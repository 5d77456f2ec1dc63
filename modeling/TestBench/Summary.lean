import TestBench.Tally
import TestBench.Outcome

/-! # Summaries

The outcomes of one set run with their tally. An outcome counts once, however often it or a copy of
it is added; different outcomes with equal contents count separately.
-/

namespace TestBench

structure Summary where
  results : List Outcome := []
  seen : List Nat := []
  tally : Tally := {}
  deriving DecidableEq, Repr

namespace Summary

/-- Adds an outcome unless it was added before, and says whether it did. -/
def add (s : Summary) (o : Outcome) : Bool × Summary :=
  if o.id ∈ s.seen then (false, s)
  else
    (true,
      { results := s.results ++ [o], seen := s.seen ++ [o.id], tally := s.tally.record o.kind })

def isSuccess (s : Summary) : Bool := s.tally.failed == 0 && s.tally.errors == 0

def line (s : Summary) : Line := { channel := .log, text := s.tally.sentence }

end Summary

end TestBench
