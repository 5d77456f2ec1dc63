import TestBench.Set
import TestBench.Text.Layout

/-! # Inspection

Cases, sets and what they keep, as structured values for display. Hooks show only whether they are
there.
-/

namespace TestBench

open Text (Layout)

def Outcome.layout (o : Outcome) : Layout :=
  .record "Outcome"
    [("id", .apply "OutcomeId" [.nat o.id]), ("test", .text o.test), ("kind", .atom o.kind.label),
      ("cause", .option (o.cause.map .text))]

def Tally.layout (t : Tally) : Layout :=
  .record "Tally"
    [("total", .nat t.total), ("passed", .nat t.passed), ("failed", .nat t.failed),
      ("errors", .nat t.errors)]

def Summary.layout (s : Summary) : Layout :=
  .record "RunSummary"
    [("results", .list (s.results.map Outcome.layout)),
      ("seen", .set (s.seen.map fun id => .apply "OutcomeId" [.nat id])), ("tally", s.tally.layout)]

def Case.layout (c : Case) : Layout :=
  .record "TestCase"
    [("name", .text c.name), ("before", .bool c.before.isSome), ("after", .bool c.after.isSome),
      ("last_outcome", .option (c.lastOutcome.map Outcome.layout))]

def TestSet.layout (s : TestSet) : Layout :=
  .record "TestSet"
    [("tests", .list (s.tests.map Case.layout)), ("before", .bool s.before.isSome),
      ("after", .bool s.after.isSome), ("last_summary", .option (s.lastSummary.map Summary.layout))]

end TestBench
