import TestBench.Script.Basic

/-! # How long scripts can run

Scripts have no loops, so the number of times that their tasks start or go on after waiting is bounded
by their size.
-/

namespace TestBench

mutual

def Step.size : Step → Nat
  | .spawn steps => 1 + Step.sizeAll steps
  | .untilSignal called later _ => 2 + Step.sizeAll called + Step.sizeAll later
  | .attempt steps => 1 + Step.sizeAll steps
  | .case c => 1 + c.size
  | .set s => 1 + s.size
  | _ => 1

def Step.sizeAll : List Step → Nat
  | [] => 0
  | s :: rest => s.size + Step.sizeAll rest

def CallScript.size : CallScript → Nat
  | .mk called later => Step.sizeAll called + Step.sizeAll later

def CallScript.sizeAll : List CallScript → Nat
  | [] => 0
  | c :: rest => c.size + CallScript.sizeAll rest

def HookScript.size : HookScript → Nat
  | .mk _ calls => CallScript.sizeAll calls

def HookScript.sizeOption : Option HookScript → Nat
  | none => 0
  | some h => h.size

def CaseScript.size : CaseScript → Nat
  | .mk _ body before after => body.size + HookScript.sizeOption before + HookScript.sizeOption after

def CaseScript.sizeAll : List CaseScript → Nat
  | [] => 0
  | c :: rest => c.size + CaseScript.sizeAll rest

def SetScript.size : SetScript → Nat
  | .mk tests before after =>
      CaseScript.sizeAll tests + HookScript.sizeOption before + HookScript.sizeOption after

end

/-- Steps enough for scripts of some size. Each part of them starts one task at most and waits or gives
way once at most. A wait costs the look that moves the clock, the turns of the task that the clock and
a signal call for, and the further turn after its end; giving way costs a look and two turns. -/
def turnsFor (size : Nat) : Nat := 16 * size + 16

end TestBench
