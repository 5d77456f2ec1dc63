import TestBench.Proofs.World.Ending

/-! # How soon a run ends

`World.Halts` bounds the steps that a run takes while its main program waits. A run that comes to its end
within that many steps is answered by `World.run` with as many turns (`World.Halts.run_eq`). Programs that
never wait take no step (`Program.Prompt`), and the steps of a sequence add up.
-/

namespace TestBench

def Progress.Halts {α : Type} : Nat → Progress α → Prop
  | _, .ended .. => True
  | 0, .waits .. => False
  | steps + 1, .waits main w => Progress.Halts steps (w.step none main)

namespace World

variable {α β : Type} {n m : Nat} {p : Async α} {w w' : World}

def Halts (n : Nat) (p : Async α) (w : World) : Prop := (w.turnMain none p).Halts n

end World

namespace Progress.Halts

open World

variable {α β : Type} {n m : Nat} {x : Progress α} {main : Waiting α} {w w' : World} {e : Ending α}

theorem ended : (Progress.ended e w).Halts n := by cases n <;> trivial

theorem mono (h : x.Halts n) (hle : n ≤ m) : x.Halts m := by
  induction n generalizing m x with
  | zero =>
    cases x with
    | ended e w => exact .ended
    | waits main w => exact h.elim
  | succ n ih =>
    obtain ⟨m, rfl⟩ := Nat.exists_eq_add_of_le' hle
    cases x with
    | ended e w => trivial
    | waits main w =>
      have hStep : (w.step none main).Halts n := h
      have hMore : (w.step none main).Halts (m + n) := ih hStep (Nat.le_add_left n m)
      exact hMore

theorem step (h : (w.step none main).Halts n) (hlt : n < m) : (Progress.waits main w).Halts m := by
  obtain ⟨m, rfl⟩ := Nat.exists_eq_add_of_le' (Nat.lt_of_le_of_lt (Nat.zero_le n) hlt)
  have hMore : (w.step none main).Halts m := h.mono (Nat.le_of_lt_succ hlt)
  exact hMore

theorem drive_eq (h : (Progress.waits main w).Halts n) (hDrives : Drives none main w e w') :
    World.drive none n main w = (e, w') := by
  induction n generalizing main w with
  | zero => exact h.elim
  | succ n ih =>
    simp only [World.drive]
    cases hDrives with
    | last hStep => simp only [hStep]
    | more hStep hRest =>
      have hNext : (w.step none main).Halts n := h
      rw [hStep] at hNext
      simp only [hStep, ih hNext hRest]

theorem andThen {f : Except Payload α → Async β} (h : x.Halts n)
    (hRest : ∀ e w', x.Leads none e w' → (Progress.andThen none f (.ended e w')).Halts m) :
    (x.andThen none f).Halts (n + m) := by
  induction n generalizing x with
  | zero =>
    cases x with
    | ended e w => exact (hRest e w ⟨rfl, rfl⟩).mono (Nat.le_add_left _ _)
    | waits main w => exact h.elim
  | succ n ih =>
    cases x with
    | ended e w => exact (hRest e w ⟨rfl, rfl⟩).mono (Nat.le_add_left _ _)
    | waits main w =>
      rw [Nat.succ_add]
      change (w.step none (main.andThen f)).Halts _
      rw [step_andThen]
      have hStep : (w.step none main).Halts n := h
      exact ih hStep fun e w' hLeads => hRest e w' (drives_iff.mpr hLeads)

end Progress.Halts

namespace World

variable {α β : Type} {n m : Nat} {p : Async α} {w w' : World}

namespace Halts

theorem mono (h : Halts n p w) (hle : n ≤ m) : Halts m p w := Progress.Halts.mono h hle

theorem pure (a : α) : Halts n (.pure a) w := Progress.Halts.ended

theorem notice {e : Event} {next : Async α} (h : Halts n next { w with events := w.events ++ [e] }) :
    Halts n (.notice e next) w := h

theorem run_eq {turns : Nat} {e : Ending α} (h : Halts n p w) (hEnds : Ends none p w e w') (enough : n ≤ turns) :
    run turns none p w = (e, w') := by
  have hHalts := h.mono enough
  unfold Ends at hEnds
  unfold Halts at hHalts
  simp only [run, Option.map_none]
  cases hTurn : w.turnMain none p with
  | ended e₁ w₁ =>
    rw [hTurn] at hEnds
    obtain ⟨rfl, rfl⟩ := hEnds
    rfl
  | waits main w₁ =>
    rw [hTurn] at hEnds hHalts
    exact hHalts.drive_eq hEnds

theorem bind {g : α → Async β} (h : Halts n p w)
    (hRest : ∀ a w₁, Ends none p w (.finished a) w₁ → Halts m (g a) w₁) : Halts (n + m) (p.bind g) w := by
  unfold Halts
  rw [Program.bind_eq_attempt_bind, turnMain_andThen]
  refine Progress.Halts.andThen h fun e w₁ hLeads => ?_
  cases e with
  | finished a => exact hRest a w₁ hLeads
  | panicked q => exact .ended
  | pending => exact .ended
  | unfinished => exact .ended

theorem attempt (h : Halts n p w) : Halts n p.attempt w := by
  have hAttempt : p.attempt = p.attempt.bind .pure := p.attempt.bind_pure.symm
  unfold Halts
  rw [hAttempt, turnMain_andThen]
  refine (Progress.Halts.andThen (m := 0) h fun e w₁ _ => ?_)
  cases e <;> exact .ended

end Halts

end World

/-! ## Programs that do not wait -/

namespace Program

variable {τ α β : Type}

/-- The program starts no task, never waits and never gives way, and asks the world for nothing but what is
allowed. -/
def Prompt (allowed : Action → Prop) : Program τ α → Prop
  | pure _ | panic _ => True
  | act a next => allowed a ∧ ∀ x, (next x).Prompt allowed
  | report _ next | notice _ next => next.Prompt allowed
  | fork .. | sleep .. | yield _ | await .. => False

namespace Prompt

variable {allowed : Action → Prop} {p : Program τ α}

theorem bind {f : α → Program τ β} (h : p.Prompt allowed) (hRest : ∀ a, (f a).Prompt allowed) :
    (p.bind f).Prompt allowed := by
  induction p with
  | pure a => exact hRest a
  | panic => trivial
  | act a next ih => exact ⟨h.1, fun x => ih x (h.2 x)⟩
  | report r next ih => exact ih h
  | notice e next ih => exact ih h
  | _ => exact h.elim

theorem attempt (h : p.Prompt allowed) : p.attempt.Prompt allowed := by
  induction p with
  | pure | panic => trivial
  | act a next ih => exact ⟨h.1, fun x => ih x (h.2 x)⟩
  | report r next ih => exact ih h
  | notice e next ih => exact ih h
  | _ => exact h.elim

theorem under (spans : List Span) (h : p.Prompt allowed) : (p.under spans).Prompt allowed := by
  have hWithin (s : Span) {p : Program τ α} (h : p.Prompt allowed) : (p.within s).Prompt allowed := by
    induction p with
    | pure | panic => trivial
    | act a next ih => exact ⟨h.1, fun x => ih x (h.2 x)⟩
    | report r next ih => exact ih h
    | notice e next ih => exact ih h
    | _ => exact h.elim
  induction spans with
  | nil => exact h
  | cons s spans ih => exact hWithin s ih

theorem halts {p : Async α} (h : p.Prompt allowed) (n : Nat) (w : World) : World.Halts n p w := by
  have hTurn : ∃ e w', w.turnMain none p = .ended e w' := by
    induction p generalizing w with
    | pure a => exact ⟨_, _, rfl⟩
    | panic q => exact ⟨_, _, rfl⟩
    | act a next ih => exact ih _ (h.2 _) _
    | report r next ih => exact ih h _
    | notice e next ih => exact ih h _
    | _ => exact h.elim
  obtain ⟨e, w', hTurn⟩ := hTurn
  unfold World.Halts
  rw [hTurn]
  exact .ended

end Prompt

end Program

end TestBench
