/-! # Report lines

Reports are lines on one of two channels. A line may itself contain line breaks.
-/

namespace TestBench

inductive Channel
  | log
  | error
  deriving DecidableEq, Repr

structure Line where
  channel : Channel
  text : String
  deriving DecidableEq, Repr

namespace Line

def red : String := "\x1b[31m"

def reset : String := "\x1b[0m"

/-- What a console writes for the line: error lines as a whole in red if colour is on. -/
def consoleText (color : Bool) (l : Line) : String :=
  match l.channel with
  | .log => l.text ++ "\n"
  | .error => (if color then red ++ l.text ++ reset else l.text) ++ "\n"

def textsOn (channel : Channel) (lines : List Line) : List String :=
  (lines.filter (·.channel = channel)).map text

end Line

end TestBench
