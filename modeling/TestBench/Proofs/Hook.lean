import TestBench.Hook
import TestBench.Proofs.World.Ending

/-! # How a hook ends

A hook that was called and whose work came to an end has returned a result or panicked, in the call or
in the work. A case makes a result of either; a set lets the panic pass.
-/

namespace TestBench

/-- How something that was invoked came to its end: with what it returned, or in a panic. -/
abbrev Ended := Except Payload Result

namespace Ended

def ending : Ended → Ending Result
  | .ok r => .finished r
  | .error q => .panicked q

def result : Ended → Result
  | .ok r => r
  | .error q => .error (.ofPayload q)

/-- The result of a part that may be absent: an absent part succeeds. -/
def resultOf (x : Option Ended) : Result := (x.map result).getD (.ok ())

def failureOf (x : Option Ended) : Option Failure :=
  match resultOf x with
  | .ok () => none
  | .error f => some f

theorem failureOf_eq_none_iff {x : Option Ended} : failureOf x = none ↔ resultOf x = .ok () := by
  unfold failureOf
  split <;> simp_all

theorem failureOf_eq_some_iff {x : Option Ended} {f : Failure} :
    failureOf x = some f ↔ resultOf x = .error f := by
  unfold failureOf
  split <;> simp_all

end Ended

namespace Hook

open World

variable {limit : Option Nat} {spans : List Span} {h : Hook} {w w' : World}

theorem invoke_eq (h : Hook) : h.invoke = h.run.attempt.bind fun e => .pure (Ended.result e) := by
  have hMuted : h.run.attempt.bind (fun e => .pure (Ended.result e)) =
      ((h.bind id).attempt.bind fun e => .pure (Ended.result e)).muted := by
    rw [Program.muted_bind, ← Program.attempt_muted]
    rfl
  rw [hMuted, Program.attempt_bind, Program.bind_assoc]
  change Program.muted (h.attempt.bind _) = _
  congr 2
  funext x
  cases x with
  | error q => rfl
  | ok work =>
    change work.attempt.bind _ = work.attempt.bind _
    congr 1
    funext e
    cases e <;> rfl

theorem ends_invoke_iff {e : Ending Result} :
    Ends limit (h.invoke.under spans) w e w' ↔
      (∃ x : Ended, Ends limit (h.run.under spans) w x.ending w' ∧ e = .finished x.result) ∨
        (Ends limit (h.run.under spans) w .pending w' ∧ e = .pending) := by
  rw [invoke_eq, Program.under_bind, ← Program.attempt_under, ends_attempt_bind_iff]
  simp only [Program.under_pure]
  constructor
  · rintro ⟨e₁, w₁, hRun, hContinues⟩
    cases e₁ with
    | finished r =>
      obtain ⟨rfl, rfl⟩ := ends_pure_iff.mp hContinues
      exact .inl ⟨.ok r, hRun, rfl⟩
    | panicked q =>
      obtain ⟨rfl, rfl⟩ := ends_pure_iff.mp hContinues
      exact .inl ⟨.error q, hRun, rfl⟩
    | pending =>
      obtain ⟨rfl, rfl⟩ := hContinues
      exact .inr ⟨hRun, rfl⟩
    | unfinished => exact hContinues.elim
  · rintro (⟨x, hRun, rfl⟩ | ⟨hRun, rfl⟩)
    · refine ⟨x.ending, w', hRun, ?_⟩
      cases x <;> exact ends_pure_iff.mpr ⟨rfl, rfl⟩
    · exact ⟨.pending, w', hRun, rfl, rfl⟩

theorem ends_invoke_finished_iff {r : Result} :
    Ends limit (h.invoke.under spans) w (.finished r) w' ↔
      ∃ x : Ended, Ends limit (h.run.under spans) w x.ending w' ∧ x.result = r := by
  simp [ends_invoke_iff, eq_comm]

theorem ends_invokeOption_iff {h? : Option Hook} {r : Result} :
    Ends limit ((invokeOption h?).under spans) w (.finished r) w' ↔
      ∃ x : Option Ended, x.isSome = h?.isSome ∧ Ended.resultOf x = r ∧
        Chain (fun e w w' => ∃ h, h? = some h ∧ Ends limit (h.run.under spans) w e.ending w')
          x.toList w w' := by
  cases h? with
  | none =>
    change Ends limit ((Program.pure _).under spans) w _ w' ↔ _
    rw [Program.under_pure, ends_pure_iff]
    constructor
    · rintro ⟨⟨rfl⟩, rfl⟩
      exact ⟨none, rfl, rfl, rfl⟩
    · rintro ⟨x, hx, rfl, hChain⟩
      cases x with
      | none => exact ⟨rfl, hChain.symm⟩
      | some x => cases hx
  | some h =>
    change Ends limit (h.invoke.under spans) w _ w' ↔ _
    rw [ends_invoke_finished_iff]
    constructor
    · rintro ⟨x, hRun, rfl⟩
      exact ⟨some x, rfl, rfl, w', ⟨h, rfl, hRun⟩, rfl⟩
    · rintro ⟨x, hx, rfl, hChain⟩
      obtain ⟨x, rfl⟩ := Option.isSome_iff_exists.mp hx
      obtain ⟨w₁, ⟨_, ⟨rfl⟩, hRun⟩, rfl⟩ := hChain
      exact ⟨x, hRun, rfl⟩

theorem neverPanics_invoke : NeverPanics limit (h.invoke.under spans) := by
  intro q w w'
  simp [ends_invoke_iff]

theorem neverPanics_invokeOption {h? : Option Hook} :
    NeverPanics limit ((invokeOption h?).under spans) := by
  cases h? with
  | none =>
    change NeverPanics limit ((Program.pure _).under spans)
    rw [Program.under_pure]
    exact .pure _
  | some h => exact neverPanics_invoke

theorem ends_runOption_bind_iff {α : Type} {h? : Option Hook} {g : Result → Async α} {e : Ending α}
    (he : e ≠ .pending) :
    Ends limit (((runOption h?).under spans).bind g) w e w' ↔
      ∃ x : Option Ended, x.isSome = h?.isSome ∧ ∃ w₁,
        Chain (fun e w w' => ∃ h, h? = some h ∧ Ends limit (h.run.under spans) w e.ending w')
          x.toList w w₁ ∧ Ends limit (Program.passPanic g (x.getD (.ok (.ok ())))) w₁ e w' := by
  cases h? with
  | none =>
    change Ends limit (((Program.pure _).under spans).bind g) w e w' ↔ _
    rw [Program.under_pure]
    constructor
    · exact fun hEnds => ⟨none, rfl, w, rfl, hEnds⟩
    · rintro ⟨x, hx, w₁, hChain, hEnds⟩
      cases x with
      | none => exact hChain ▸ hEnds
      | some x => cases hx
  | some h =>
    change Ends limit ((h.run.under spans).bind g) w e w' ↔ _
    rw [Program.bind_eq_attempt_bind, ends_attempt_bind_iff]
    constructor
    · rintro ⟨e₁, w₁, hRun, hContinues⟩
      cases e₁ with
      | finished r => exact ⟨some (.ok r), rfl, w₁, ⟨w₁, ⟨h, rfl, hRun⟩, rfl⟩, hContinues⟩
      | panicked q => exact ⟨some (.error q), rfl, w₁, ⟨w₁, ⟨h, rfl, hRun⟩, rfl⟩, hContinues⟩
      | pending => exact absurd hContinues.1 he
      | unfinished => exact hContinues.elim
    · rintro ⟨x, hx, w₁, hChain, hEnds⟩
      obtain ⟨x, rfl⟩ := Option.isSome_iff_exists.mp hx
      obtain ⟨_, ⟨_, ⟨rfl⟩, hRun⟩, rfl⟩ := hChain
      cases x with
      | ok r => exact ⟨_, _, hRun, hEnds⟩
      | error q => exact ⟨_, _, hRun, hEnds⟩

end Hook

end TestBench
