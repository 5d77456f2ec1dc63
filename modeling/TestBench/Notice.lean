import TestBench.Outcome
import TestBench.Summary
import TestBench.Text.Duration

/-! # Notices

What a run lets an observer know while it goes on. Every notice is given under the spans that are
open in its task: the runs of cases and sets that enclose it, outermost first.
-/

namespace TestBench

inductive Level
  | trace
  | debug
  | info
  | warn
  | error
  deriving DecidableEq, Repr

def Level.name : Level → String
  | trace => "trace"
  | debug => "debug"
  | info => "info"
  | warn => "warn"
  | error => "error"

inductive Span
  | case (test : String)
  | set (tests : Nat)
  deriving DecidableEq, Repr

namespace Span

def name : Span → String
  | case _ => "run"
  | set _ => "run_with_sink"

def fields : Span → List (String × String)
  | case test => [("test", test)]
  | set tests => [("tests", toString tests)]

end Span

inductive Notice
  | setupFailed (f : Failure)
  | teardownFailed (f : Failure)
  /-- The teardown of a test failed that was an error before; the earlier error stays. -/
  | teardownFailedLate (f : Failure)
  | testFinished (kind : Kind)
  | setSetupFailed (f : Failure)
  | setTeardownFailed (f : Failure)
  | setFinished (tally : Tally)
  | alreadyCounted (test : String)
  | timedOut (timeout : Option Nat)
  | tickerFired (elapsed : Nat)
  | report (line : Line)
  deriving DecidableEq, Repr

namespace Notice

def level : Notice → Level
  | setupFailed _ | teardownFailed _ | teardownFailedLate _ | testFinished _ => .debug
  | setSetupFailed _ | setTeardownFailed _ => .warn
  | setFinished _ | tickerFired _ => .debug
  | alreadyCounted _ | timedOut _ => .trace
  | report line => match line.channel with
    | .log => .info
    | .error => .error

def target : Notice → String
  | setupFailed _ | teardownFailed _ | teardownFailedLate _ | testFinished _ => "verdict::case"
  | setSetupFailed _ | setTeardownFailed _ | setFinished _ => "verdict::set"
  | alreadyCounted _ => "verdict::summary"
  | timedOut _ => "verdict::until"
  | tickerFired _ => "verdict::cli::selftest"
  | report _ => "verdict::report"

def message : Notice → String
  | setupFailed _ => "setup failed, skipping body"
  | teardownFailed _ => "teardown failed"
  | teardownFailedLate _ => "teardown failed after an earlier error; keeping the first error"
  | testFinished _ => "test finished"
  | setSetupFailed _ => "test set setup failed, aborting run"
  | setTeardownFailed _ => "test set teardown failed"
  | setFinished _ => "test set finished"
  | alreadyCounted _ => "outcome already counted"
  | timedOut _ => "until timed out, resolving"
  | tickerFired _ => "ticker fired"
  | report line => line.text

def fields : Notice → List (String × String)
  | setupFailed f | teardownFailed f | teardownFailedLate f | setSetupFailed f | setTeardownFailed f =>
      [("failure", f.message)]
  | testFinished kind => [("kind", kind.name)]
  | setFinished tally =>
      [("total", toString tally.total), ("passed", toString tally.passed),
        ("failed", toString tally.failed), ("errors", toString tally.errors)]
  | alreadyCounted test => [("test", test)]
  | timedOut timeout =>
      [("timeout", match timeout with
        | none => "None"
        | some ms => "Some(" ++ Text.duration ms ++ ")")]
  | tickerFired elapsed => [("elapsed", Text.duration elapsed)]
  | report _ => []

end Notice

/-- A notice with the spans open around it, outermost first. -/
structure Event where
  spans : List Span
  notice : Notice
  deriving DecidableEq, Repr

end TestBench
