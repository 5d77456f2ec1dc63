import TestBench.Async.Until
import TestBench.Set
import TestBench.Value.Basic

/-! # Self-check

A suite that exercises the test bench the way a user would: assertions, rendering, counting, and a
fixture that waits for a callback fired by a timer.
-/

namespace TestBench.SelfTest

def tickDelay : Nat := 5

def tickKey : String := "tick"

def firstFailure : List Result → Result
  | [] => .ok ()
  | .ok () :: rest => firstFailure rest
  | .error f :: _ => .error f

def assertsTruth : Hook :=
  .ofWork <| pure <| firstFailure
    [(Value.bool true).check, (Value.int 1).check, (Value.text "verdict").check]

def reportsMismatch : Hook :=
  let mismatch := (Value.int 1).checkEquals (.int 2)
  .ofWork <| pure <| firstFailure
    [(Value.text "same").checkEquals (.text "same"),
      (Value.bool (match mismatch with
        | .error f => f.isAssertion
        | .ok () => false)).check]

def rendersKind : Hook := .ofWork do
  let o ← Outcome.create "render" .pass none
  return (Value.text o.render).checkEquals (.text "✓ [Pass] render")

def countsOnce : Hook := .ofWork do
  let o ← Outcome.create "dedup" .pass none
  let (_, s) ← Summary.enter {} o
  let (_, s) ← s.enter o
  return (Value.int s.tally.total).checkEquals (.int 1)

def tick (slot : Nat) : Async Unit := do
  Async.rest tickDelay
  Async.perform (.put tickKey (.time (← Async.now)))
  let _ ← Async.settle slot (.ok ())

def startTicker (timeout : Option Nat) : Hook := .ofWork do
  let started ← Async.now
  let fire (slot : Nat) : Hook := .ofWork do
    Async.spawnHolding slot (tick slot)
    return .ok ()
  match ← Async.untilSignal fire timeout with
  | .error f => return .error f
  | .ok () =>
      match ← Async.perform (.look tickKey) with
      | some (.time fired) =>
          Async.announce (.tickerFired (fired - started))
          return .ok ()
      | _ => return .error (.ofMessage "ticker did not fire before the timeout")

def tickerFired : Hook := .ofWork do
  let note ← Async.perform (.look tickKey)
  return (Value.bool note.isSome).check

def clearTicker : Hook := .ofWork do
  Async.perform (.remove tickKey)
  return .ok ()

def suite (timeout : Option Nat) : TestSet where
  tests :=
    [{ name := "assert accepts truthy values", body := assertsTruth },
      { name := "assert_equals reports mismatches as assertion failures", body := reportsMismatch },
      { name := "outcomes render their kind label", body := rendersKind },
      { name := "summary counts an outcome once", body := countsOnce },
      { name := "until observes a timer-driven callback", body := tickerFired
        before := some (startTicker timeout), after := some clearTicker }]

/-- Turns enough for a run of the suite, also if the ticker of an earlier run is still to fire. -/
def turns : Nat := 128

/-- Why a command did not succeed. The message is empty if all was said before. -/
structure Complaint where
  message : String
  exitCode : Nat := 1
  deriving DecidableEq, Repr

/-- Runs the suite on the console. Without printing only the summary line is shown. -/
def check (noColor : Option String) (config : Config) : Async (Except Complaint Unit) := do
  match ← (suite config.timeout).runWith noColor config with
  | .error a => return .error { message := a.message }
  | .ok s =>
      unless config.print do (Sink.ofConfig noColor config).put s.line
      if s.isSuccess then return .ok () else return .error { message := "" }

end TestBench.SelfTest
