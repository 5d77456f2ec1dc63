/-! # Failures

What a hook or a test body reports when it does not succeed, what a panic carries, and how the
failure of a hook of a whole set is worded.
-/

namespace TestBench

/-- What a panic carries. Only texts can be shown later. -/
inductive Payload
  | text (message : String)
  | other
  deriving DecidableEq, Repr

/-- A failed assertion is kept apart from every other trouble, which may come without a message. -/
inductive Failure
  | assertion (message : String)
  | unexpected (message : Option String)
  deriving DecidableEq, Repr

abbrev Result := Except Failure Unit

instance : DecidableEq Result
  | .ok (), .ok () => isTrue rfl
  | .ok (), .error _ => isFalse nofun
  | .error _, .ok () => isFalse nofun
  | .error f, .error g =>
      if h : f = g then isTrue (h ▸ rfl) else isFalse fun e => h (Except.error.inj e)

namespace Failure

def unknownError : String := "Unknown error"

def assertionFailed : String := "Assertion failed"

def notTheSame : String := "Assertion failed, values are not the same"

/-- An unexpected failure with a message; an empty message counts as none. -/
def ofMessage (message : String) : Failure :=
  if message.isEmpty then .unexpected none else .unexpected (some message)

def unknown : Failure := .unexpected none

def ofPayload : Payload → Failure
  | .text message => ofMessage message
  | .other => unknown

def message? : Failure → Option String
  | .assertion message => some message
  | .unexpected message => message

def message : Failure → String
  | .assertion message => message
  | .unexpected (some message) => message
  | .unexpected none => unknownError

def isAssertion : Failure → Bool
  | .assertion _ => true
  | .unexpected _ => false

end Failure

/-- Set-up runs before the tests of a set, teardown after them. -/
inductive Phase
  | setup
  | teardown
  deriving DecidableEq, Repr

def Phase.name : Phase → String
  | .setup => "setup"
  | .teardown => "teardown"

structure Abort where
  phase : Phase
  failure : Failure
  deriving DecidableEq, Repr

namespace Abort

def message (a : Abort) : String := "test set " ++ a.phase.name ++ " failed: " ++ a.failure.message

/-- Seen from outside the set an abort is an unexpected failure, also if an assertion caused it. -/
def toFailure (a : Abort) : Failure := .ofMessage a.message

end Abort

end TestBench
