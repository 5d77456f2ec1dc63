import TestBench.Kind
import TestBench.Failure
import TestBench.Line

/-! # Outcomes

The record of one run of one test. Outcomes are told apart by the number they get when they are
made; a copy keeps the number.
-/

namespace TestBench

structure Outcome where
  id : Nat
  test : String
  kind : Kind
  cause : Option String
  deriving DecidableEq, Repr

namespace Outcome

/-- What is recorded as the cause: nothing for a pass, always something for an error, and an empty
cause counts as none. -/
def causeFor : Kind → Option String → Option String
  | .pass, _ => none
  | .fail, cause => cause.filter (!·.isEmpty)
  | .error, cause => some ((cause.filter (!·.isEmpty)).getD Failure.unknownError)

def make (id : Nat) (test : String) (kind : Kind) (cause : Option String) : Outcome :=
  { id, test, kind, cause := causeFor kind cause }

def sameInstance (o p : Outcome) : Bool := o.id == p.id

def render (o : Outcome) : String :=
  String.singleton o.kind.symbol ++ " [" ++ o.kind.label ++ "] " ++ o.test ++
    match o.cause with
    | none => ""
    | some cause => ": \n  - " ++ cause

def line (o : Outcome) : Line :=
  { channel := if o.kind = .pass then .log else .error, text := o.render }

end Outcome

end TestBench
