import TestBench.Kind

/-! # Tallies

Counts of outcomes by kind, and the sentence that reports them.
-/

namespace TestBench

structure Tally where
  total : Nat := 0
  passed : Nat := 0
  failed : Nat := 0
  errors : Nat := 0
  deriving DecidableEq, Repr

namespace Tally

def record (t : Tally) : Kind → Tally
  | .pass => { t with total := t.total + 1, passed := t.passed + 1 }
  | .fail => { t with total := t.total + 1, failed := t.failed + 1 }
  | .error => { t with total := t.total + 1, errors := t.errors + 1 }

def count (t : Tally) : Kind → Nat
  | .pass => t.passed
  | .fail => t.failed
  | .error => t.errors

def ofKinds (kinds : List Kind) : Tally := kinds.foldl record {}

/-- One clause of the sentence: "all passed", or "3 passed" if there are others. -/
def clause (t : Tally) (k : Kind) : String :=
  if t.count k = t.total then "all " ++ k.tallyLabel else toString (t.count k) ++ " " ++ k.tallyLabel

def clauses (t : Tally) : List String :=
  (Kind.all.filter (0 < t.count ·)).map t.clause

/-- Clauses are enumerated as in prose: commas between them, "and" before the last, a full stop. -/
def enumerate : List String → String
  | [] => ""
  | [last] => last ++ "."
  | [first, last] => first ++ " and " ++ last ++ "."
  | first :: rest => first ++ ", " ++ enumerate rest

def nothingRun : String := "No tests executed."

def sentence (t : Tally) : String :=
  if t.total = 0 then nothingRun
  else toString t.total ++ " tests executed: " ++ Text.capitalize (enumerate t.clauses)

@[simp] theorem count_record (t : Tally) (k j : Kind) :
    (t.record k).count j = t.count j + if k = j then 1 else 0 := by
  cases k <;> cases j <;> simp [record, count]

@[simp] theorem total_record (t : Tally) (k : Kind) : (t.record k).total = t.total + 1 := by
  cases k <;> rfl

end Tally

end TestBench
