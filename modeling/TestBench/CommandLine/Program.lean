import TestBench.CommandLine.Help
import TestBench.SelfTest
import TestBench.Session

/-! # The program

What the program writes and how it exits, given its arguments.
-/

namespace TestBench.CommandLine

structure Transcript where
  stdout : String := ""
  stderr : String := ""
  exitCode : Nat := 0
  deriving DecidableEq, Repr

def SelfTestArguments.config (args : SelfTestArguments) : Config where
  print := !args.quiet
  color := args.color.getD .auto
  timeout := some (args.timeout.getD 1000)

/-- What a check of the suite came to: the ending of the run, what it wrote to the console, and what
it let observers know. -/
structure Checked where
  ending : Ending (Except SelfTest.Complaint Unit)
  stdout : String
  stderr : String
  events : List Event

def checkSuite (noColor : Option String) (config : Config) : Checked :=
  let session : Session := { turns := SelfTest.turns }
  let (ending, reports, session) := session.run (SelfTest.check noColor config)
  { ending, stdout := Report.consoleText .log reports, stderr := Report.consoleText .error reports,
    events := session.world.events }

def crashed : Nat := 101

def runSelfTest (noColor : Option String) (args : SelfTestArguments) : Transcript :=
  let checked := checkSuite noColor args.config
  match checked.ending with
  | .finished (.error c) =>
      { checked with
        stderr := checked.stderr ++ if c.message.isEmpty then "" else c.message ++ "\n"
        exitCode := c.exitCode }
  | .finished (.ok ()) => { checked with exitCode := 0 }
  | .panicked _ | .pending | .unfinished => { checked with exitCode := crashed }

def noCommand : String := "no command given; try `verdict --help`\n"

def program (noColor : Option String) (args : List String) : Transcript :=
  match readArguments args with
  | .ok .nothing => { stderr := noCommand, exitCode := 1 }
  | .ok (.selfTest args) => runSelfTest noColor args
  | .error stop =>
      if stop.exitCode = 0 then { stdout := stop.text }
      else { stderr := stop.text, exitCode := stop.exitCode }

end TestBench.CommandLine
