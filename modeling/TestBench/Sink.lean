import TestBench.Async.Basic
import TestBench.Config

/-! # Sinks

Where the lines of a run go: into memory, to a console, or out as notices.
-/

namespace TestBench

inductive Sink
  | memory
  | console (color : Bool)
  | notices
  deriving DecidableEq, Repr

namespace Sink

def put (line : Line) : Sink → Async Unit
  | memory => Async.tell (.printed line)
  | console color => Async.tell (.written line.channel (line.consoleText color))
  | notices => Async.announce (.report line)

def ofConfig (noColor : Option String) (config : Config) : Sink :=
  console (config.color.enabled noColor)

end Sink

namespace Report

def lines (reports : List Report) : List Line :=
  reports.filterMap fun
    | .printed line => some line
    | _ => none

def consoleText (channel : Channel) (reports : List Report) : String :=
  String.join (reports.filterMap fun
    | .written c text => if c = channel then some text else none
    | _ => none)

end Report

end TestBench
