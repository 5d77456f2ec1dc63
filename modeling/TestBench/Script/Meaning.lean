import TestBench.Async.Until
import TestBench.Set
import TestBench.Script.Basic

/-! # The meaning of scripts

Each script stands for an asynchronous program. The slot that is passed down belongs to the innermost
enclosing wait for a callback; steps in forked tasks keep it.
-/

namespace TestBench

/-- What follows a step: the next one, or the end of the script with a result. -/
inductive Flow
  | next
  | leave (result : Result)

namespace Flow

def ofResult : Result → Flow
  | .ok () => next
  | .error f => leave (.error f)

end Flow

/-- The callback of a wait. Outside every wait nothing takes the result. -/
def signal (slot : Option Nat) (result : Result) : Async Bool :=
  match slot with
  | some slot => Async.settle slot result
  | none => pure false

def spawnWithin (slot : Option Nat) (p : Async Result) : Async Unit :=
  match slot with
  | some slot => Async.spawnHolding slot p
  | none => Async.spawn p

def logSignal (name : String) (accepted : Bool) : Async Unit :=
  Async.log (name ++ "=" ++ if accepted then "true" else "false")

def attemptText : Result → String
  | .ok () => "ok"
  | .error f => (if f.isAssertion then "assertion: " else "unexpected: ") ++ f.message

def noteText? (key : String) : Async (Option String) := do
  match ← Async.perform (.look key) with
  | some (.text s) => return some s
  | _ => return none

def optionalText (s : Option String) : Value := .ofOption (s.map .text)

def callThen (called later : Async Result) : Hook := do
  let _ ← called
  return later

def pickCall (hooks : List Hook) (earlier : Nat) : Hook :=
  (hooks[min earlier (hooks.length - 1)]?).getD (.ofWork (pure (.ok ())))

def logLines : List Line → Async Unit
  | [] => pure ()
  | l :: rest => do
      Async.log l.text
      logLines rest

def runInnerCase (c : Case) : Async Flow := do
  let o ← c.run.muted
  Async.log o.render
  return .next

def runInnerSet (set : TestSet) : Async Flow := do
  let (result, reports) ← (set.run true .memory).collect []
  logLines (Report.lines reports)
  match result with
  | .ok _ => return .next
  | .error a => return .leave (.error a.toFailure)

mutual

def Step.run (slot : Option Nat) : Step → Async Flow
  | .log line => do Async.log line; return .next
  | .done => do logSignal "done" (← signal slot (.ok ())); return .next
  | .reject f => do logSignal "reject" (← signal slot (.error f)); return .next
  | .spawn steps => do spawnWithin slot (runSteps slot steps); return .next
  | .put key text => do Async.perform (.put key (.text text)); return .next
  | .remove key => do Async.perform (.remove key); return .next
  | .panic p => .panic p
  | .sleep ms => do Async.rest ms; return .next
  | .yield => .yield (.pure .next)
  | .fail f => return .leave (.error f)
  | .leave => return .leave (.ok ())
  | .check v => return .ofResult v.check
  | .checkEquals v w => return .ofResult (v.checkEquals w)
  | .expectNote key text => do
      return .ofResult ((optionalText (← noteText? key)).checkEquals (optionalText text))
  | .hasNote key => do return .ofResult (optionalText (← noteText? key)).check
  | .untilSignal called later timeout => do
      let result ← Async.untilSignal
        (fun slot => callThen (runSteps (some slot) called) (runSteps (some slot) later)) timeout
      return .ofResult result
  | .attempt steps => do
      Async.log (attemptText (← runSteps slot steps))
      return .next
  | .case c => runInnerCase (c.build slot)
  | .set s => runInnerSet (s.build slot)

/-- Runs steps until one of them ends the script. -/
def runSteps (slot : Option Nat) : List Step → Async Result
  | [] => pure (.ok ())
  | step :: rest => do
      match ← step.run slot with
      | .next => runSteps slot rest
      | .leave result => return result

def CallScript.hook (slot : Option Nat) : CallScript → Hook
  | .mk called later => callThen (runSteps slot called) (runSteps slot later)

def callHooks (slot : Option Nat) : List CallScript → List Hook
  | [] => []
  | c :: rest => c.hook slot :: callHooks slot rest

/-- A hook with a counter may be shared between cases, so it belongs to no wait. -/
def HookScript.hook (slot : Option Nat) : HookScript → Hook
  | .mk none calls => pickCall (callHooks slot calls) 0
  | .mk (some counter) calls => do
      let earlier ← Async.perform (.countCall counter)
      pickCall (callHooks none calls) earlier

def HookScript.hook? (slot : Option Nat) : Option HookScript → Option Hook
  | none => none
  | some h => some (h.hook slot)

def CaseScript.build (slot : Option Nat) : CaseScript → Case
  | .mk name body before after =>
      { name, body := body.hook slot, before := HookScript.hook? slot before,
        after := HookScript.hook? slot after }

def CaseScript.buildAll (slot : Option Nat) : List CaseScript → List Case
  | [] => []
  | c :: rest => c.build slot :: CaseScript.buildAll slot rest

def SetScript.build (slot : Option Nat) : SetScript → TestSet
  | .mk tests before after =>
      { tests := CaseScript.buildAll slot tests, before := HookScript.hook? slot before,
        after := HookScript.hook? slot after }

end

end TestBench
