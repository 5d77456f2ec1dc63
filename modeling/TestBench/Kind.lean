import TestBench.Text.Capital

/-! # Outcome kinds

The closed set of results of one test, with the texts that name each kind. The order of `Kind.all`
is the order in which reports list the kinds.
-/

namespace TestBench

/-- A test passes if nothing went wrong, fails if an assertion in its body did not hold, and is an
error if anything else went wrong. -/
inductive Kind
  | pass
  | fail
  | error
  deriving DecidableEq, Repr

namespace Kind

def all : List Kind := [pass, fail, error]

theorem mem_all (k : Kind) : k ∈ all := by cases k <;> decide

def name : Kind → String
  | pass => "pass"
  | fail => "fail"
  | error => "error"

def symbol : Kind → Char
  | pass => '✓'
  | fail => '✗'
  | error => '✗'

def tallyLabel : Kind → String
  | pass => "passed"
  | fail => "failed"
  | error => "with errors"

def label (k : Kind) : String := Text.capitalize k.name

/-- Names are matched exactly: "Pass" names no kind. -/
def ofName? (s : String) : Option Kind := all.find? (·.name == s)

theorem ofName?_name (k : Kind) : ofName? k.name = some k := by cases k <;> decide

end Kind

end TestBench
