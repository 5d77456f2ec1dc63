import TestBench.Value.Decimal

/-! # Binary floating point

Floating-point numbers as exact values: a mantissa times a power of two, an infinity, or not a
number. A decimal numeral stands for the nearest number of the format; of two equally near ones it
is the one with the even mantissa.
-/

namespace TestBench

structure BinaryFormat where
  precision : Nat
  leastExponent : Int
  greatestExponent : Int
  deriving DecidableEq, Repr

namespace BinaryFormat

def single : BinaryFormat := ⟨24, -149, 104⟩

def double : BinaryFormat := ⟨53, -1074, 971⟩

end BinaryFormat

inductive Binary
  | nan
  | infinite (negative : Bool)
  /-- The number `± mantissa · 2 ^ exponent`. -/
  | finite (negative : Bool) (mantissa : Nat) (exponent : Int)
  deriving DecidableEq, Repr

namespace Binary

/-- The integer nearest to `n / d`; a tie goes to the even one. -/
def divNearest (n d : Nat) : Nat :=
  let q := n / d
  let r := n % d
  if 2 * r < d then q else if d < 2 * r then q + 1 else if q % 2 = 0 then q else q + 1

def scaledNearest (n d : Nat) (e : Int) : Nat :=
  if 0 ≤ e then divNearest n (d * Nat.pow 2 e.toNat) else divNearest (n * Nat.pow 2 (-e).toNat) d

/-- The greatest `e` with `2 ^ e ≤ n / d`, for positive `n` and `d`. -/
def floorLog (n d : Nat) : Int :=
  let e : Int := (n.log2 : Int) - d.log2
  let reached := if 0 ≤ e then d * Nat.pow 2 e.toNat ≤ n else d ≤ n * Nat.pow 2 (-e).toNat
  if reached then e else e - 1

def ofQuotient (fmt : BinaryFormat) (negative : Bool) (n d : Nat) : Binary :=
  if n = 0 then finite negative 0 fmt.leastExponent
  else
    let e := max fmt.leastExponent (floorLog n d + 1 - fmt.precision)
    let m := scaledNearest n d e
    let (m, e) := if m = Nat.pow 2 fmt.precision then (m / 2, e + 1) else (m, e)
    if fmt.greatestExponent < e then infinite negative else finite negative m e

/-- The number of the format nearest to a decimal one. Since ten is more than the third power of two,
decimals far outside the range of the format are known by their exponents alone. -/
def ofDecimal (fmt : BinaryFormat) (x : Decimal) : Binary :=
  let order : Int := x.exponent + (Nat.toDigits 10 x.digits).length
  if x.digits = 0 then finite x.negative 0 fmt.leastExponent
  else if fmt.greatestExponent + fmt.precision ≤ 3 * (order - 1) then infinite x.negative
  else if 3 * order < fmt.leastExponent - 1 then finite x.negative 0 fmt.leastExponent
  else if 0 ≤ x.exponent then ofQuotient fmt x.negative (x.digits * Nat.pow 10 x.exponent.toNat) 1
  else ofQuotient fmt x.negative x.digits (Nat.pow 10 (-x.exponent).toNat)

def lowercase (s : List Char) : String := String.ofList (s.map Char.toLower)

/-- Reads a numeral, or one of the names of the values that are no finite numbers. -/
def read? (fmt : BinaryFormat) (s : String) : Option Binary :=
  let (negative, cs) := splitSign s.toList
  let word := lowercase cs
  if word = "nan" then some nan
  else if word = "inf" ∨ word = "infinity" then some (infinite negative)
  else (Decimal.readUnsigned? negative cs).map (ofDecimal fmt)

def isZero : Binary → Bool
  | finite _ m _ => m == 0
  | _ => false

/-- Numeric equality: the two zeros are equal, and what is not a number equals nothing. -/
def equals (x y : Binary) : Bool :=
  if x = nan ∨ y = nan then false else (x.isZero && y.isZero) || x == y

end Binary

end TestBench
