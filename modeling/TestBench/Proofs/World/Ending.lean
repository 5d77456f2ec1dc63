import TestBench.World.Run
import TestBench.Proofs.Async.Spans

/-! # How the run of a main program ends

`World.Ends` says how a program that is given its turn comes to its end, with no bound on the steps
that it takes. An ending is unique, and it is what `World.run` answers once its bound is large enough.
The run of a sequence is the run of its first part followed by the run of the rest in the world that
the first part left behind, whether the rest takes over a value only or a panic too.
-/

namespace TestBench

/-- A waiting program followed by a further one, which also takes over a panic. -/
def Waiting.andThen {α β : Type} (f : Except Payload α → Async β) : Waiting α → Waiting β
  | ready next => ready (next.attempt.bind f)
  | sleeping due next => sleeping due (next.attempt.bind f)
  | awaiting slot due next => awaiting slot due fun r => (next r).attempt.bind f
  | postponed slot timeout next => postponed slot timeout fun r => (next r).attempt.bind f

def Progress.andThen {α β : Type} (limit : Option Nat) (f : Except Payload α → Async β) :
    Progress α → Progress β
  | .ended (.finished a) w => w.turnMain limit (f (.ok a))
  | .ended (.panicked q) w => w.turnMain limit (f (.error q))
  | .ended .pending w => .ended .pending w
  | .ended .unfinished w => .ended .unfinished w
  | .waits main w => .waits (main.andThen f) w

namespace World

variable {α β : Type} {limit : Option Nat} {f : Except Payload α → Async β}

theorem turn_andThen (p : Async α) (f : Except Payload α → Async β) (w : World) :
    (p.attempt.bind f).turn w = match p.turn w with
      | (.finished a, w) => (f (.ok a)).turn w
      | (.panicked q, w) => (f (.error q)).turn w
      | (.waits x, w) => (.waits (x.andThen f), w)
      | (.yields x, w) => (.yields (x.andThen f), w) := by
  induction p generalizing w with
  | pure a => rfl
  | panic q => rfl
  | fork task next ih => exact ih _
  | act a next ih => exact ih _ _
  | report r next ih => exact ih _
  | notice e next ih => exact ih _
  | yield next ih => rfl
  | sleep ms next ih =>
    simp only [Program.attempt, Program.bind, Program.turn]
    split
    · rfl
    · split
      · exact ih _
      · rfl
  | await slot timeout next ih =>
    simp only [Program.attempt, Program.bind, Program.turn]
    split
    · rfl
    · split
      · exact ih _ _
      · rfl

@[simp] theorem canResume_andThen (w : World) (x : Waiting α) :
    w.canResume (x.andThen f) = w.canResume x := by cases x <;> rfl

@[simp] theorem resume_andThen (now : Nat) (x : Waiting α) :
    (x.andThen f).resume now = (x.resume now).attempt.bind f := by cases x <;> rfl

@[simp] theorem drop_andThen (w : World) (x : Waiting α) : w.drop (x.andThen f) = w.drop x := by
  cases x <;> rfl

@[simp] theorem dues_andThen (w : World) (x : Waiting α) :
    w.dues (x.andThen f) limit = w.dues x limit := by cases x <;> rfl

theorem wait_andThen (w : World) (x : Waiting α) :
    w.wait limit (x.andThen f) = (w.wait limit x).andThen limit f := by
  simp only [wait, drop_andThen]
  split <;> rfl

theorem turnMain_andThen (w : World) (p : Async α) :
    w.turnMain limit (p.attempt.bind f) = (w.turnMain limit p).andThen limit f := by
  simp only [turnMain, turn_andThen]
  rcases p.turn w with ⟨_ | _ | _ | _, w⟩
  · rfl
  · rfl
  · exact wait_andThen _ _
  · exact wait_andThen _ _

theorem attend_andThen (w : World) (x : Waiting α) :
    w.attend limit (x.andThen f) = (w.attend limit x).andThen limit f := by
  simp only [attend, canResume_andThen, resume_andThen, drop_andThen, dues_andThen, turnMain_andThen,
    wait_andThen]
  split
  · rfl
  · split
    · rfl
    · split
      · rfl
      · split <;> rfl

theorem step_andThen (w : World) (x : Waiting α) :
    w.step limit (x.andThen f) = (w.step limit x).andThen limit f := by
  simp only [step, attend_andThen]
  split
  · rfl
  · split <;> rfl

theorem turnMain_ne_unfinished (w w' : World) (p : Async α) :
    w.turnMain limit p ≠ .ended .unfinished w' := by
  simp only [turnMain, wait]
  rcases p.turn w with ⟨_ | _ | _ | _, w⟩
  · exact nofun
  · exact nofun
  · dsimp only; split <;> exact nofun
  · dsimp only; split <;> exact nofun

theorem step_ne_unfinished (w w' : World) (main : Waiting α) :
    w.step limit main ≠ .ended .unfinished w' := by
  have hAttend : w.attend limit main ≠ .ended .unfinished w' := by
    simp only [attend, wait]
    split
    · exact turnMain_ne_unfinished _ _ _
    · split
      · exact nofun
      · split
        · exact nofun
        · split
          · exact turnMain_ne_unfinished _ _ _
          · split <;> exact nofun
  unfold step
  split
  · exact hAttend
  · split
    · exact nofun
    · exact hAttend

end World

/-! ## Endings -/

/-- A main program that waits comes to its end by steps of the world. -/
inductive World.Drives {α : Type} (limit : Option Nat) : Waiting α → World → Ending α → World → Prop
  | last {main : Waiting α} {w w' : World} {e : Ending α} (h : w.step limit main = .ended e w') :
      Drives limit main w e w'
  | more {main main' : Waiting α} {w w₁ w' : World} {e : Ending α}
      (h : w.step limit main = .waits main' w₁) (rest : Drives limit main' w₁ e w') :
      Drives limit main w e w'

def Progress.Leads {α : Type} (limit : Option Nat) (e : Ending α) (w : World) : Progress α → Prop
  | ended e₁ w₁ => e₁ = e ∧ w₁ = w
  | waits main w₁ => World.Drives limit main w₁ e w

namespace World

variable {α β : Type} {limit : Option Nat}

/-- A main program that is given its turn in a world comes to its end, leaving a world behind. -/
def Ends (limit : Option Nat) (p : Async α) (w : World) (e : Ending α) (w' : World) : Prop :=
  (w.turnMain limit p).Leads limit e w'

theorem drives_iff {main : Waiting α} {w w' : World} {e : Ending α} :
    Drives limit main w e w' ↔ (w.step limit main).Leads limit e w' := by
  constructor
  · intro h
    cases h with
    | last h => rw [h]; exact ⟨rfl, rfl⟩
    | more h rest => rw [h]; exact rest
  · intro h
    cases hStep : w.step limit main with
    | ended e₁ w₁ =>
      rw [hStep] at h
      obtain ⟨rfl, rfl⟩ := h
      exact .last hStep
    | waits main' w₁ =>
      rw [hStep] at h
      exact .more hStep h

theorem Drives.unique {main : Waiting α} {w w₁ w₂ : World} {e₁ e₂ : Ending α}
    (h₁ : Drives limit main w e₁ w₁) (h₂ : Drives limit main w e₂ w₂) : e₁ = e₂ ∧ w₁ = w₂ := by
  induction h₁ with
  | last h => rw [drives_iff, h] at h₂; exact h₂
  | more h _ ih => rw [drives_iff, h] at h₂; exact ih h₂

theorem Ends.unique {p : Async α} {w w₁ w₂ : World} {e₁ e₂ : Ending α}
    (h₁ : Ends limit p w e₁ w₁) (h₂ : Ends limit p w e₂ w₂) : e₁ = e₂ ∧ w₁ = w₂ := by
  unfold Ends at h₁ h₂
  cases hTurn : w.turnMain limit p with
  | ended e w =>
    rw [hTurn] at h₁ h₂
    exact ⟨h₁.1.symm.trans h₂.1, h₁.2.symm.trans h₂.2⟩
  | waits main w =>
    rw [hTurn] at h₁ h₂
    exact Drives.unique h₁ h₂

theorem Drives.ne_unfinished {main : Waiting α} {w w' : World} {e : Ending α}
    (h : Drives limit main w e w') : e ≠ .unfinished := by
  induction h with
  | last h => exact fun he => step_ne_unfinished _ _ _ (he ▸ h)
  | more _ _ ih => exact ih

theorem Ends.ne_unfinished {p : Async α} {w w' : World} {e : Ending α} (h : Ends limit p w e w') :
    e ≠ .unfinished := by
  unfold Ends at h
  cases hTurn : w.turnMain limit p with
  | ended e₁ w₁ =>
    rw [hTurn] at h
    obtain ⟨rfl, rfl⟩ := h
    exact fun he => turnMain_ne_unfinished _ _ _ (he ▸ hTurn)
  | waits main w₁ =>
    rw [hTurn] at h
    exact Drives.ne_unfinished h

theorem Drives.drive {main : Waiting α} {w w' : World} {e : Ending α}
    (h : Drives limit main w e w') :
    ∃ bound, ∀ turns, bound ≤ turns → World.drive limit turns main w = (e, w') := by
  induction h with
  | last h =>
    refine ⟨1, fun turns enough => ?_⟩
    obtain ⟨turns, rfl⟩ := Nat.exists_eq_add_of_le' enough
    simp only [World.drive, h]
  | more h _ ih =>
    obtain ⟨bound, ih⟩ := ih
    refine ⟨bound + 1, fun turns enough => ?_⟩
    obtain ⟨turns, rfl⟩ := Nat.exists_eq_add_of_le' (Nat.le_of_add_left_le enough)
    simp only [World.drive, h]
    exact ih turns (by omega)

theorem drives_of_drive {turns : Nat} {main : Waiting α} {w w' : World} {e : Ending α}
    (h : World.drive limit turns main w = (e, w')) (he : e ≠ .unfinished) :
    Drives limit main w e w' := by
  induction turns generalizing main w with
  | zero => exact absurd (Prod.mk.inj h).1.symm he
  | succ turns ih =>
    rw [World.drive] at h
    split at h
    · rename_i hStep
      cases h
      exact .last hStep
    · rename_i hStep
      exact .more hStep (ih h)

theorem ends_of_run {turns : Nat} {p : Async α} {w w' : World} {e : Ending α}
    (h : run turns limit p w = (e, w')) (he : e ≠ .unfinished) :
    Ends (limit.map (w.now + ·)) p w e w' := by
  simp only [run] at h
  unfold Ends
  split at h
  · rename_i hTurn
    cases h
    rw [hTurn]
    exact ⟨rfl, rfl⟩
  · rename_i hTurn
    rw [hTurn]
    exact drives_of_drive h he

/-- An ending is what a run answers, once it is allowed steps enough. -/
theorem ends_iff_run {p : Async α} {w w' : World} {e : Ending α} :
    Ends (limit.map (w.now + ·)) p w e w' ↔
      e ≠ .unfinished ∧ ∃ bound, ∀ turns, bound ≤ turns → run turns limit p w = (e, w') := by
  constructor
  · intro h
    refine ⟨h.ne_unfinished, ?_⟩
    unfold Ends at h
    simp only [run]
    cases hTurn : w.turnMain (limit.map (w.now + ·)) p with
    | ended e₁ w₁ =>
      rw [hTurn] at h
      obtain ⟨rfl, rfl⟩ := h
      exact ⟨0, fun _ _ => rfl⟩
    | waits main w₁ =>
      rw [hTurn] at h
      exact Drives.drive h
  · rintro ⟨he, bound, h⟩
    exact ends_of_run (h bound (Nat.le_refl _)) he

/-! ## Endings of sequences -/

def Continues (limit : Option Nat) (f : Except Payload α → Async β) (e₁ : Ending α) (w₁ : World)
    (e : Ending β) (w : World) : Prop :=
  match e₁ with
  | .finished a => Ends limit (f (.ok a)) w₁ e w
  | .panicked q => Ends limit (f (.error q)) w₁ e w
  | .pending => e = .pending ∧ w = w₁
  | .unfinished => False

variable {f : Except Payload α → Async β}

theorem leads_ended_andThen_iff {e₁ : Ending α} {w₁ w : World} {e : Ending β}
    (he : e₁ ≠ .unfinished) :
    (Progress.andThen limit f (.ended e₁ w₁)).Leads limit e w ↔ Continues limit f e₁ w₁ e w := by
  cases e₁ with
  | finished a => exact Iff.rfl
  | panicked q => exact Iff.rfl
  | pending => simp only [Progress.andThen, Progress.Leads, Continues, eq_comm]
  | unfinished => exact absurd rfl he

theorem Drives.of_andThen {x : Waiting β} {w w' : World} {e : Ending β}
    (h : Drives limit x w e w') : ∀ main : Waiting α, x = main.andThen f →
      ∃ e₁ w₁, Drives limit main w e₁ w₁ ∧ Continues limit f e₁ w₁ e w' := by
  induction h with
  | @last x w w' e h =>
    rintro main rfl
    rw [step_andThen] at h
    cases hStep : w.step limit main with
    | waits main' w₁ => rw [hStep] at h; cases h
    | ended e₁ w₁ =>
      have he : e₁ ≠ .unfinished := fun he => step_ne_unfinished _ _ _ (he ▸ hStep)
      refine ⟨e₁, w₁, .last hStep, (leads_ended_andThen_iff he).mp ?_⟩
      rw [← hStep, h]
      exact ⟨rfl, rfl⟩
  | @more x x' w w₂ w' e h rest ih =>
    rintro main rfl
    rw [step_andThen] at h
    cases hStep : w.step limit main with
    | waits main' w₁ =>
      rw [hStep] at h
      cases h
      obtain ⟨e₁, w₁, hDrives, hContinues⟩ := ih main' rfl
      exact ⟨e₁, w₁, .more hStep hDrives, hContinues⟩
    | ended e₁ w₁ =>
      have he : e₁ ≠ .unfinished := fun he => step_ne_unfinished _ _ _ (he ▸ hStep)
      refine ⟨e₁, w₁, .last hStep, (leads_ended_andThen_iff he).mp ?_⟩
      rw [← hStep, h]
      exact rest

theorem Drives.andThen {main : Waiting α} {w w₁ w' : World} {e₁ : Ending α} {e : Ending β}
    (h : Drives limit main w e₁ w₁) (hContinues : Continues limit f e₁ w₁ e w') :
    Drives limit (main.andThen f) w e w' := by
  induction h with
  | @last main w w₁ e₁ h =>
    have he : e₁ ≠ .unfinished := fun he => step_ne_unfinished _ _ _ (he ▸ h)
    rw [drives_iff, step_andThen, h]
    exact (leads_ended_andThen_iff he).mpr hContinues
  | @more main main' w w₂ w₁ e₁ h _ ih =>
    rw [drives_iff, step_andThen, h]
    exact ih hContinues

theorem ends_attempt_bind_iff {p : Async α} {w w' : World} {e : Ending β} :
    Ends limit (p.attempt.bind f) w e w' ↔
      ∃ e₁ w₁, Ends limit p w e₁ w₁ ∧ Continues limit f e₁ w₁ e w' := by
  unfold Ends
  rw [turnMain_andThen]
  cases hTurn : w.turnMain limit p with
  | ended e₁ w₁ =>
    rw [leads_ended_andThen_iff fun he => turnMain_ne_unfinished _ _ _ (he ▸ hTurn)]
    constructor
    · exact fun h => ⟨e₁, w₁, ⟨rfl, rfl⟩, h⟩
    · rintro ⟨_, _, ⟨rfl, rfl⟩, h⟩
      exact h
  | waits main w₁ =>
    constructor
    · exact fun h => Drives.of_andThen h main rfl
    · rintro ⟨_, _, hDrives, h⟩
      exact Drives.andThen hDrives h

/-! ## Endings of single requests -/

section

variable {w w' : World} {e : Ending α}

theorem ends_pure_iff {a : α} : Ends limit (.pure a) w e w' ↔ e = .finished a ∧ w' = w := by
  simp only [Ends, turnMain, Program.turn, Progress.Leads, eq_comm]

theorem ends_panic_iff {q : Payload} :
    Ends limit (.panic q : Async α) w e w' ↔ e = .panicked q ∧ w' = w := by
  simp only [Ends, turnMain, Program.turn, Progress.Leads, eq_comm]

theorem ends_act_iff {a : Action} {next : a.Answer → Async α} :
    Ends limit (.act a next) w e w' ↔ Ends limit (next (w.perform a).1) (w.perform a).2 e w' :=
  Iff.rfl

theorem ends_report_iff {r : Report} {next : Async α} :
    Ends limit (.report r next) w e w' ↔
      Ends limit next { w with reports := w.reports ++ [r] } e w' :=
  Iff.rfl

theorem ends_notice_iff {n : Event} {next : Async α} :
    Ends limit (.notice n next) w e w' ↔
      Ends limit next { w with events := w.events ++ [n] } e w' :=
  Iff.rfl

end

/-! ## Endings of plain sequences -/

section

variable {g : α → Async β} {p : Async α} {w w' : World}

theorem ends_bind_iff {e : Ending β} :
    Ends limit (p.bind g) w e w' ↔
      (∃ a w₁, Ends limit p w (.finished a) w₁ ∧ Ends limit (g a) w₁ e w') ∨
        (∃ q, e = .panicked q ∧ Ends limit p w (.panicked q) w') ∨
        (e = .pending ∧ Ends limit p w .pending w') := by
  rw [Program.bind_eq_attempt_bind, ends_attempt_bind_iff]
  constructor
  · rintro ⟨e₁, w₁, h, hContinues⟩
    cases e₁ with
    | finished a => exact .inl ⟨a, w₁, h, hContinues⟩
    | panicked q =>
      obtain ⟨rfl, rfl⟩ := ends_panic_iff.mp hContinues
      exact .inr (.inl ⟨q, rfl, h⟩)
    | pending =>
      obtain ⟨rfl, rfl⟩ := hContinues
      exact .inr (.inr ⟨rfl, h⟩)
    | unfinished => exact hContinues.elim
  · rintro (⟨a, w₁, h, hRest⟩ | ⟨q, rfl, h⟩ | ⟨rfl, h⟩)
    · exact ⟨_, _, h, hRest⟩
    · exact ⟨_, _, h, ends_panic_iff.mpr ⟨rfl, rfl⟩⟩
    · exact ⟨_, _, h, rfl, rfl⟩

theorem ends_bind_finished_iff {b : β} :
    Ends limit (p.bind g) w (.finished b) w' ↔
      ∃ a w₁, Ends limit p w (.finished a) w₁ ∧ Ends limit (g a) w₁ (.finished b) w' := by
  simp [ends_bind_iff]

end

/-! ## Programs that do not panic -/

def NeverPanics (limit : Option Nat) (p : Async α) : Prop :=
  ∀ q w w', ¬ Ends limit p w (.panicked q) w'

namespace NeverPanics

theorem pure (a : α) : NeverPanics limit (.pure a) := by
  intro q w w' h
  cases (ends_pure_iff.mp h).1

theorem act {a : Action} {next : a.Answer → Async α} (h : ∀ x, NeverPanics limit (next x)) :
    NeverPanics limit (.act a next) := fun q _ w' hEnds => h _ q _ w' hEnds

theorem report {r : Report} {next : Async α} (h : NeverPanics limit next) :
    NeverPanics limit (.report r next) := fun q _ w' hEnds => h q _ w' hEnds

theorem notice {n : Event} {next : Async α} (h : NeverPanics limit next) :
    NeverPanics limit (.notice n next) := fun q _ w' hEnds => h q _ w' hEnds

theorem bind {p : Async α} {g : α → Async β} (h : NeverPanics limit p)
    (hRest : ∀ a, NeverPanics limit (g a)) : NeverPanics limit (p.bind g) := by
  intro q w w' hEnds
  obtain ⟨a, w₁, -, hEnds⟩ | ⟨_, ⟨rfl⟩, hEnds⟩ | ⟨hPending, -⟩ := ends_bind_iff.mp hEnds
  · exact hRest a q w₁ w' hEnds
  · exact h _ w w' hEnds
  · cases hPending

theorem ends_bind_iff {p : Async α} {g : α → Async β} {w w' : World} {e : Ending β}
    (h : NeverPanics limit p) (he : e ≠ .pending) :
    Ends limit (p.bind g) w e w' ↔
      ∃ a w₁, Ends limit p w (.finished a) w₁ ∧ Ends limit (g a) w₁ e w' := by
  rw [World.ends_bind_iff]
  constructor
  · rintro (hEnds | ⟨q, -, hEnds⟩ | ⟨hPending, -⟩)
    · exact hEnds
    · exact absurd hEnds (h q w w')
    · exact absurd hPending he
  · exact .inl

end NeverPanics

/-! ## Chains -/

/-- The world goes through a list of parts, one after the other, with nothing in between. -/
def Chain {ι : Type} (does : ι → World → World → Prop) : List ι → World → World → Prop
  | [], w, w' => w = w'
  | part :: rest, w, w' => ∃ w₁, does part w w₁ ∧ Chain does rest w₁ w'

section

variable {ι κ : Type} {does : ι → World → World → Prop} {w w' : World}

@[simp] theorem chain_nil_iff : Chain does [] w w' ↔ w = w' := Iff.rfl

@[simp] theorem chain_cons_iff {part : ι} {rest : List ι} :
    Chain does (part :: rest) w w' ↔ ∃ w₁, does part w w₁ ∧ Chain does rest w₁ w' :=
  Iff.rfl

@[simp] theorem chain_append_iff {xs ys : List ι} :
    Chain does (xs ++ ys) w w' ↔ ∃ w₁, Chain does xs w w₁ ∧ Chain does ys w₁ w' := by
  induction xs generalizing w with
  | nil => simp
  | cons part xs ih =>
    simp only [List.cons_append, chain_cons_iff, ih]
    constructor
    · rintro ⟨w₁, h, w₂, hxs, hys⟩
      exact ⟨w₂, ⟨w₁, h, hxs⟩, hys⟩
    · rintro ⟨w₂, ⟨w₁, h, hxs⟩, hys⟩
      exact ⟨w₁, h, w₂, hxs, hys⟩

theorem chain_map_iff {g : κ → ι} {xs : List κ} :
    Chain does (xs.map g) w w' ↔ Chain (fun x => does (g x)) xs w w' := by
  induction xs generalizing w with
  | nil => rfl
  | cons x xs ih => simp only [List.map_cons, chain_cons_iff, ih]

end

end World

end TestBench
