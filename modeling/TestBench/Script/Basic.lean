import TestBench.Value.Basic

/-! # Scripts

A small language for hooks and bodies. A script is a list of steps; a step may start further tasks,
wait for a callback, or build and run cases and sets of its own.
-/

namespace TestBench

mutual

inductive Step
  | log (line : String)
  /-- Calls back with success to the innermost enclosing wait for a callback. -/
  | done
  | reject (f : Failure)
  | spawn (steps : List Step)
  | put (key text : String)
  | remove (key : String)
  | panic (p : Payload)
  | sleep (ms : Nat)
  | yield
  | fail (f : Failure)
  /-- Ends the innermost hook, task or attempt with success. -/
  | leave
  | check (v : Value)
  | checkEquals (v w : Value)
  | expectNote (key : String) (text : Option String)
  | hasNote (key : String)
  | untilSignal (called later : List Step) (timeout : Option Nat)
  | attempt (steps : List Step)
  | case (c : CaseScript)
  | set (s : SetScript)

/-- One call of a hook: the steps of the call itself, and the steps of its work. -/
inductive CallScript
  | mk (called later : List Step)

/-- A hook as the list of its calls; the last entry serves all further calls. Calls are counted under
the name of the counter. Without one every call is the first. -/
inductive HookScript
  | mk (counter : Option String) (calls : List CallScript)

inductive CaseScript
  | mk (name : String) (body : HookScript) (before after : Option HookScript)

inductive SetScript
  | mk (tests : List CaseScript) (before after : Option HookScript)

end

end TestBench
