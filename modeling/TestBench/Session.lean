import TestBench.World.Run
import TestBench.Set

/-! # Sessions

A session runs one thing after the other in one world: tasks that were left behind by one run go on
during the next. A case or set that is run comes back with what the run made it keep, however the
run ended.
-/

namespace TestBench

structure Session where
  world : World := {}
  turns : Nat
  limit : Option Nat := none

namespace Session

variable {α : Type}

def run (s : Session) (p : Async α) : Ending α × List Report × Session :=
  let (ending, w) := World.run s.turns s.limit p { s.world with reports := [] }
  (ending, w.reports, { s with world := w })

def rest (s : Session) (ms : Nat) : Session :=
  { s with world := (World.run s.turns none (Async.rest ms) s.world).2 }

structure CaseRun where
  ending : Ending Outcome
  case : Case
  session : Session

def runCase (s : Session) (c : Case) : CaseRun :=
  let (ending, reports, s) := s.run c.run
  { ending, case := c.afterRun reports, session := s }

structure SetRun where
  ending : Ending (Except Abort Summary)
  reports : List Report
  set : TestSet
  session : Session

def runSet (s : Session) (set : TestSet) (p : Async (Except Abort Summary)) : SetRun :=
  let (ending, reports, s) := s.run p
  { ending, reports, set := set.afterRun reports, session := s }

end Session

end TestBench
