import TestBench.Async.Control

/-! # Awaiting a callback

`Async.untilSignal` turns completion by callback into a result to wait for. The callbacks write into a
slot that takes one result; the first to write wins. A function given to it is first called,
which may already use the callbacks, and yields the work to do later, which runs as a task of its own
and is not stopped when the wait is over.
-/

namespace TestBench.Async

/-- What the work puts into the slot itself: a failure or a panic, never a success. -/
def runWork (slot : Nat) (work : Async Result) : Async Unit := do
  match ← work.attempt with
  | .ok (.ok ()) => pure ()
  | .ok (.error f) => let _ ← settle slot (.error f)
  | .error p => let _ ← settle slot (.error (.ofPayload p))

/-- Waits for the first result put into the slot that `func` is given; after `timeout` milliseconds
without one the wait ends in success. A panic of `func` before it yields its work is the result at
once. -/
def untilSignal (func : Nat → Async (Async Result)) (timeout : Option Nat) : Async Result := do
  let slot ← perform .openSlot
  match ← (func slot).attempt with
  | .error p =>
      perform (.abandon slot)
      return .error (.ofPayload p)
  | .ok work =>
      spawnHolding slot (runWork slot work)
      match ← Program.await slot timeout .pure with
      | some result => return result
      | none =>
          announce (.timedOut timeout)
          return .ok ()

end TestBench.Async
