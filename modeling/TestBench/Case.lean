import TestBench.Hook
import TestBench.Sink

/-! # Test cases

A named body between an optional set-up and an optional teardown. A run gives exactly one outcome:

- a failed set-up makes it an error and the body is left out;
- otherwise the body decides: a failed assertion is a fail, other trouble an error;
- the teardown always runs, and its failure makes an error of a pass or a fail; an earlier error
  stays.
-/

namespace TestBench

structure Case where
  name : String
  body : Hook
  before : Option Hook := none
  after : Option Hook := none
  /-- The outcome of the latest run that came to its end. -/
  lastOutcome : Option Outcome := none

/-- A kind with the message that explains it. -/
structure Finding where
  kind : Kind
  cause : Option String
  deriving DecidableEq, Repr

namespace Finding

def ofSetupFailure (f : Failure) : Finding := ⟨.error, f.message?⟩

def ofBody : Result → Finding
  | .ok () => ⟨.pass, none⟩
  | .error (.assertion message) => ⟨.fail, some message⟩
  | .error (.unexpected message) => ⟨.error, message⟩

/-- The first error stays. -/
def afterTeardownFailure (found : Finding) (f : Failure) : Finding :=
  if found.kind = .error then found else ⟨.error, f.message?⟩

def teardownNotice (found : Finding) (f : Failure) : Notice :=
  if found.kind = .error then .teardownFailedLate f else .teardownFailed f

end Finding

namespace Outcome

/-- A new outcome, with a number that no outcome had before. -/
def create (test : String) (kind : Kind) (cause : Option String) : Async Outcome := do
  let id ← Async.perform .newOutcome
  return make id test kind cause

end Outcome

namespace Case

def examine (c : Case) : Async Finding := do
  match ← Hook.invokeOption c.before with
  | .error f =>
      Async.announce (.setupFailed f)
      return .ofSetupFailure f
  | .ok () => return .ofBody (← c.body.invoke)

def tearDown (c : Case) (found : Finding) : Async Finding := do
  match ← Hook.invokeOption c.after with
  | .error f =>
      Async.announce (found.teardownNotice f)
      return found.afterTeardownFailure f
  | .ok () => return found

def conclude (c : Case) (found : Finding) : Async Outcome := do
  let o ← Outcome.create c.name found.kind found.cause
  Async.announce (.testFinished o.kind)
  Async.tell (.outcome o)
  return o

def run (c : Case) : Async Outcome :=
  Program.within (.case c.name) do
    let found ← c.examine
    let found ← c.tearDown found
    c.conclude found

def runAndPrint (c : Case) (sink : Sink) : Async Outcome := do
  let o ← c.run
  sink.put o.line
  return o

/-- The case after a run that reported `reports`, however that run ended. -/
def afterRun (c : Case) (reports : List Report) : Case :=
  reports.foldl (fun c r => match r with
    | .outcome o => { c with lastOutcome := some o }
    | _ => c) c

end Case

end TestBench
