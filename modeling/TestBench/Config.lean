/-! # Run configuration

The options of a set run: whether to print, when to colour error lines, and how long fixtures may
wait for a callback.
-/

namespace TestBench

inductive ColorChoice
  | auto
  | always
  | never
  deriving DecidableEq, Repr

namespace ColorChoice

def all : List ColorChoice := [auto, always, never]

def name : ColorChoice → String
  | auto => "auto"
  | always => "always"
  | never => "never"

def ofName? (s : String) : Option ColorChoice := all.find? (·.name == s)

/-- Whether lines are coloured, given the value of the environment variable that asks for no colour.
It counts as soon as it is set, even to the empty text. -/
def enabled (noColor : Option String) : ColorChoice → Bool
  | auto => noColor.isNone
  | always => true
  | never => false

end ColorChoice

structure Config where
  print : Bool := false
  color : ColorChoice := .auto
  /-- In milliseconds; without a timeout a fixture waits for ever. -/
  timeout : Option Nat := some 1000
  deriving DecidableEq, Repr

end TestBench
