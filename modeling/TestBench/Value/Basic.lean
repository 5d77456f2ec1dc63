import TestBench.Failure
import TestBench.Kind
import TestBench.Value.Binary

/-! # Values and assertions

The values that a test can make assertions about, whether they count as true, and when two of them
are equal.
-/

namespace TestBench

inductive Value
  | bool (b : Bool)
  | int (n : Int)
  | float (x : Binary)
  | text (s : String)
  | none
  | some (v : Value)
  | list (vs : List Value)
  | failure (f : Failure)
  | kind (k : Kind)

namespace Value

def ofOption : Option Value → Value
  | .none => none
  | .some v => some v

/-- Counted as false are `false`, zero, what is not a number, the empty text and the absent value. A
present value counts as true, whatever it is. -/
def isTruthy : Value → Bool
  | bool b => b
  | int n => n != 0
  | float x => x != .nan && !x.isZero
  | text s => !s.isEmpty
  | none => false
  | some _ => true
  | list vs => !vs.isEmpty
  | failure _ => true
  | kind _ => true

mutual

/-- Equality of contents. It follows numeric equality for floating-point numbers, so a value need
not be equal to itself. -/
def equals : Value → Value → Bool
  | bool a, bool b => a == b
  | int m, int n => m == n
  | float x, float y => x.equals y
  | text s, text t => s == t
  | none, none => true
  | some v, some w => v.equals w
  | list vs, list ws => equalsAll vs ws
  | failure f, failure g => f == g
  | kind j, kind k => j == k
  | _, _ => false

def equalsAll : List Value → List Value → Bool
  | [], [] => true
  | v :: vs, w :: ws => v.equals w && equalsAll vs ws
  | _, _ => false

end

def check (v : Value) : Result :=
  if v.isTruthy then .ok () else .error (.assertion Failure.assertionFailed)

def checkEquals (v w : Value) : Result :=
  if v.equals w then .ok () else .error (.assertion Failure.notTheSame)

end Value

end TestBench
