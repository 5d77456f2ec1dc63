/-! # Decimal numerals

Reading numbers from text. A decimal numeral stands for an exact number; nothing is rounded here.
-/

namespace TestBench

/-- The number `± digits · 10 ^ exponent`. -/
structure Decimal where
  negative : Bool
  digits : Nat
  exponent : Int
  deriving DecidableEq, Repr

def digitsValue (ds : List Char) : Nat :=
  ds.foldl (fun n c => 10 * n + (c.toNat - '0'.toNat)) 0

/-- Splits off a sign; without one the number is positive. -/
def splitSign : List Char → Bool × List Char
  | '-' :: rest => (true, rest)
  | '+' :: rest => (false, rest)
  | rest => (false, rest)

def readInt? (s : String) : Option Int :=
  let (negative, ds) := splitSign s.toList
  if ds.isEmpty || !ds.all Char.isDigit then none
  else some (if negative then -(digitsValue ds : Int) else digitsValue ds)

namespace Decimal

/-- The exponent part of a numeral: nothing, or an `e` and an integer. -/
def readExponent? : List Char → Option Int
  | [] => some 0
  | c :: rest => if c = 'e' ∨ c = 'E' then readInt? (String.ofList rest) else none

/-- An unsigned numeral: digits with at most one point, then the exponent part. There is at least
one digit. -/
def readUnsigned? (negative : Bool) (cs : List Char) : Option Decimal :=
  let whole := cs.takeWhile Char.isDigit
  let (fraction, rest) := match cs.dropWhile Char.isDigit with
    | '.' :: more => more.span Char.isDigit
    | rest => ([], rest)
  if whole.isEmpty && fraction.isEmpty then none
  else (readExponent? rest).map fun e =>
    ⟨negative, digitsValue (whole ++ fraction), e - fraction.length⟩

def read? (s : String) : Option Decimal :=
  let (negative, cs) := splitSign s.toList
  readUnsigned? negative cs

end Decimal

end TestBench
