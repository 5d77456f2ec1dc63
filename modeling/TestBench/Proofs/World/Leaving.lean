import TestBench.Proofs.World.Ending

/-! # Runs that are left

A main program that waits can be left where it stands, and it is left when the world drops it. A sequence
is left in its first part, or the first part came to its end and the rest is left (`World.Left.of_bind`).
Every run ends or is left (`World.ends_or_left`).
-/

namespace TestBench

/-- A main program that waits goes on for some steps, waits still, and is left. -/
inductive World.Leaves {α : Type} (limit : Option Nat) : Waiting α → World → World → Prop
  | standing (main : Waiting α) (w : World) : Leaves limit main w w
  | dropped {main : Waiting α} {w w' : World} (h : w.step limit main = .ended .pending w') :
      Leaves limit main w w'
  | more {main main' : Waiting α} {w w₁ w' : World} (h : w.step limit main = .waits main' w₁)
      (rest : Leaves limit main' w₁ w') : Leaves limit main w w'

def Progress.IsLeft {α : Type} (limit : Option Nat) (w : World) : Progress α → Prop
  | ended e w₁ => e = .pending ∧ w₁ = w
  | waits main w₁ => World.Leaves limit main w₁ w

namespace World

variable {α β : Type} {limit : Option Nat} {w w' : World}

/-- A main program that is given its turn in a world is left, and leaves a world behind. -/
def Left (limit : Option Nat) (p : Async α) (w w' : World) : Prop := (w.turnMain limit p).IsLeft limit w'

theorem Leaves.of_step {main : Waiting α} (h : (w.step limit main).IsLeft limit w') :
    Leaves limit main w w' := by
  cases hStep : w.step limit main with
  | ended e w₁ =>
    rw [hStep] at h
    obtain ⟨rfl, rfl⟩ := h
    exact .dropped hStep
  | waits main' w₁ =>
    rw [hStep] at h
    exact .more hStep h

theorem leaves_of_drive {turns : Nat} {main : Waiting α} {e : Ending α}
    (h : drive limit turns main w = (e, w')) (he : e = .pending ∨ e = .unfinished) :
    Leaves limit main w w' := by
  induction turns generalizing main w with
  | zero =>
    obtain ⟨-, rfl⟩ := Prod.mk.inj h
    exact .standing main _
  | succ turns ih =>
    rw [drive] at h
    split at h
    · rename_i hStep
      obtain ⟨rfl, rfl⟩ := Prod.mk.inj h
      obtain rfl | rfl := he
      · exact .dropped hStep
      · exact absurd hStep (step_ne_unfinished _ _ _)
    · rename_i hStep
      exact .more hStep (ih h)

theorem left_of_run {turns : Nat} {p : Async α} {e : Ending α} (h : run turns limit p w = (e, w'))
    (he : e = .pending ∨ e = .unfinished) : Left (limit.map (w.now + ·)) p w w' := by
  simp only [run] at h
  unfold Left
  split at h <;> rename_i hTurn <;> rw [hTurn]
  · obtain ⟨rfl, rfl⟩ := Prod.mk.inj h
    obtain rfl | rfl := he
    · exact ⟨rfl, rfl⟩
    · exact absurd hTurn (turnMain_ne_unfinished _ _ _)
  · exact leaves_of_drive h he

theorem ends_or_left {turns : Nat} {p : Async α} {e : Ending α} (h : run turns limit p w = (e, w')) :
    (e ≠ .pending ∧ Ends (limit.map (w.now + ·)) p w e w') ∨
      ((e = .pending ∨ e = .unfinished) ∧ Left (limit.map (w.now + ·)) p w w') := by
  rcases e with a | q | _ | _
  case finished | panicked => exact .inl ⟨nofun, ends_of_run h nofun⟩
  case pending => exact .inr ⟨.inl rfl, left_of_run h (.inl rfl)⟩
  case unfinished => exact .inr ⟨.inr rfl, left_of_run h (.inr rfl)⟩

/-! ## Sequences -/

def LeftAfter (limit : Option Nat) (f : Except Payload α → Async β) (e : Ending α) (w₁ w : World) : Prop :=
  match e with
  | .finished a => Left limit (f (.ok a)) w₁ w
  | .panicked q => Left limit (f (.error q)) w₁ w
  | .pending | .unfinished => False

variable {f : Except Payload α → Async β}

theorem isLeft_andThen {progress : Progress α} (h : (progress.andThen limit f).IsLeft limit w) :
    progress.IsLeft limit w ∨ (∃ e w₁, progress = .ended e w₁ ∧ LeftAfter limit f e w₁ w) ∨
      ∃ main w₁, progress = .waits main w₁ ∧ Leaves limit (main.andThen f) w₁ w := by
  rcases progress with ⟨_ | _ | _ | _, w₁⟩ | ⟨main, w₁⟩
  · exact .inr (.inl ⟨_, _, rfl, h⟩)
  · exact .inr (.inl ⟨_, _, rfl, h⟩)
  · exact .inl ⟨rfl, h.2⟩
  · exact nomatch h.1
  · exact .inr (.inr ⟨main, w₁, rfl, h⟩)

theorem Leaves.of_andThen {x : Waiting β} (h : Leaves limit x w w') :
    ∀ main : Waiting α, x = main.andThen f → Leaves limit main w w' ∨
      ∃ e w₁, Drives limit main w e w₁ ∧ LeftAfter limit f e w₁ w' := by
  induction h with
  | standing x w =>
    rintro main rfl
    exact .inl (.standing main w)
  | @dropped x w w' h =>
    rintro main rfl
    rw [step_andThen] at h
    have hLeft : ((w.step limit main).andThen limit f).IsLeft limit w' := h ▸ ⟨rfl, rfl⟩
    obtain hLeft | ⟨e, w₁, hStep, hRest⟩ | ⟨main', w₁, hStep, -⟩ := isLeft_andThen hLeft
    · exact .inl (.of_step hLeft)
    · exact .inr ⟨e, w₁, .last hStep, hRest⟩
    · rw [hStep] at h
      cases h
  | @more x x' w w₂ w' h rest ih =>
    rintro main rfl
    rw [step_andThen] at h
    have hLeft : ((w.step limit main).andThen limit f).IsLeft limit w' := h ▸ rest
    obtain hLeft | ⟨e, w₁, hStep, hRest⟩ | ⟨main', w₁, hStep, -⟩ := isLeft_andThen hLeft
    · exact .inl (.of_step hLeft)
    · exact .inr ⟨e, w₁, .last hStep, hRest⟩
    · rw [hStep] at h
      cases h
      obtain hLeaves | ⟨e, w₃, hDrives, hRest⟩ := ih main' rfl
      · exact .inl (.more hStep hLeaves)
      · exact .inr ⟨e, w₃, .more hStep hDrives, hRest⟩

theorem Left.of_attempt_bind {p : Async α} (h : Left limit (p.attempt.bind f) w w') :
    Left limit p w w' ∨ ∃ e w₁, Ends limit p w e w₁ ∧ LeftAfter limit f e w₁ w' := by
  unfold Left at h
  rw [turnMain_andThen] at h
  unfold Left Ends
  obtain hLeft | ⟨e, w₁, hTurn, hRest⟩ | ⟨main, w₁, hTurn, hLeaves⟩ := isLeft_andThen h
  · exact .inl hLeft
  · exact .inr ⟨e, w₁, hTurn ▸ ⟨rfl, rfl⟩, hRest⟩
  · rw [hTurn]
    exact hLeaves.of_andThen main rfl

section

variable {p : Async α} {g : α → Async β}

theorem not_left_pure {a : α} : ¬ Left limit (.pure a) w w' := fun h => nomatch h.1

theorem not_left_panic {q : Payload} : ¬ Left limit (.panic q : Async α) w w' := fun h => nomatch h.1

theorem Left.of_bind (h : Left limit (p.bind g) w w') :
    Left limit p w w' ∨ ∃ a w₁, Ends limit p w (.finished a) w₁ ∧ Left limit (g a) w₁ w' := by
  rw [Program.bind_eq_attempt_bind] at h
  obtain hLeft | ⟨e, w₁, hEnds, hRest⟩ := h.of_attempt_bind
  · exact .inl hLeft
  · cases e with
    | finished a => exact .inr ⟨a, w₁, hEnds, hRest⟩
    | panicked q => exact absurd hRest not_left_panic
    | pending => exact hRest.elim
    | unfinished => exact hRest.elim

end

end World

end TestBench
