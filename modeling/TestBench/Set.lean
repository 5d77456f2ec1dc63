import TestBench.Case

/-! # Test sets

Cases that run in order between an optional set-up and an optional teardown of the whole set. What
goes wrong in one case does not touch the others, but a failed hook of the set gives the run up.
-/

namespace TestBench

structure TestSet where
  tests : List Case := []
  before : Option Hook := none
  after : Option Hook := none
  /-- The summary of the latest run that was not given up. -/
  lastSummary : Option Summary := none

namespace Summary

def enter (s : Summary) (o : Outcome) : Async (Bool × Summary) := do
  let added := s.add o
  unless added.1 do Async.announce (.alreadyCounted o.test)
  return added

end Summary

namespace TestSet

def runTests (print : Bool) (sink : Sink) : List Case → Summary → Async Summary
  | [], s => pure s
  | c :: rest, s => do
      let o ← c.run
      let (_, s) ← s.enter o
      if print then sink.put o.line
      runTests print sink rest s

/-- Runs the tests between the hooks; with `print` every outcome and the summary go to the sink. A
panic of a hook of the set passes through. -/
def runBetweenHooks (set : TestSet) (print : Bool) (sink : Sink) :
    Async (Except Abort Summary) := do
  match ← Hook.runOption set.before with
  | .error f =>
      Async.announce (.setSetupFailed f)
      return .error ⟨.setup, f⟩
  | .ok () =>
      let s ← runTests print sink set.tests {}
      if print then sink.put s.line
      match ← Hook.runOption set.after with
      | .error f =>
          Async.announce (.setTeardownFailed f)
          return .error ⟨.teardown, f⟩
      | .ok () =>
          Async.announce (.setFinished s.tally)
          Async.tell (.summary s)
          return .ok s

def run (set : TestSet) (print : Bool) (sink : Sink) : Async (Except Abort Summary) :=
  (set.runBetweenHooks print sink).within (.set set.tests.length)

def runWith (noColor : Option String) (config : Config) (set : TestSet) :
    Async (Except Abort Summary) :=
  set.run config.print (.ofConfig noColor config)

def push (set : TestSet) (c : Case) : TestSet := { set with tests := set.tests ++ [c] }

/-- The outcomes that the latest run that was not given up retained. -/
def results (set : TestSet) : List Outcome := (set.lastSummary.map Summary.results).getD []

/-- Gives the outcomes to the tests one by one, from the first test on. -/
def recordOutcomes : List Case → List Outcome → List Case
  | c :: cases, o :: outcomes => { c with lastOutcome := some o } :: recordOutcomes cases outcomes
  | cases, _ => cases

/-- The set after a run that reported `reports`, however that run ended: each test that came to its
end has its outcome, and the summary is kept if the run was not given up. -/
def afterRun (set : TestSet) (reports : List Report) : TestSet :=
  let outcomes := reports.filterMap fun
    | .outcome o => some o
    | _ => none
  let summaries := reports.filterMap fun
    | .summary s => some s
    | _ => none
  { set with
    tests := recordOutcomes set.tests outcomes
    lastSummary := summaries.getLast?.or set.lastSummary }

end TestSet

end TestBench
