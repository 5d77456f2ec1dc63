/-! # Durations as text

Durations are whole milliseconds. They are written in seconds from one second on, with as many
decimals as needed and no trailing zeros, and in milliseconds below; zero is written in nanoseconds.
-/

namespace TestBench.Text

def dropTrailingZeros (digits : List Char) : List Char :=
  (digits.reverse.dropWhile (· == '0')).reverse

/-- The part of a decimal fraction of thousandths, with its point; empty for zero. -/
def thousandths (n : Nat) : String :=
  match dropTrailingZeros ((toString (1000 + n % 1000)).toList.drop 1) with
  | [] => ""
  | digits => "." ++ String.ofList digits

def duration (ms : Nat) : String :=
  if ms = 0 then "0ns"
  else if ms < 1000 then toString ms ++ "ms"
  else toString (ms / 1000) ++ thousandths ms ++ "s"

end TestBench.Text
