import TestBench.Async.Control

/-! # Hooks

A hook is first called, and the call yields the work to wait for. Bodies of tests are hooks too. Both
the call and the work may panic. What a hook reports is nobody's: only the case or set that it belongs
to reports.
-/

namespace TestBench

abbrev Hook := Async (Async Result)

namespace Hook

def ofWork (work : Async Result) : Hook := .pure work

/-- Calls the hook and waits for its work. Panics pass through. -/
def run (h : Hook) : Async Result := Program.muted do
  let work ← h
  work

/-- Calls the hook and waits for its work. Panics become failures. -/
def invoke (h : Hook) : Async Result := Program.muted do
  match ← h.attempt with
  | .error p => return .error (.ofPayload p)
  | .ok work =>
      match ← work.attempt with
      | .error p => return .error (.ofPayload p)
      | .ok result => return result

def invokeOption : Option Hook → Async Result
  | none => pure (.ok ())
  | some h => h.invoke

def runOption : Option Hook → Async Result
  | none => pure (.ok ())
  | some h => h.run

end Hook

end TestBench
