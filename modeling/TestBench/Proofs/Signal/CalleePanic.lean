import TestBench.Proofs.Signal.Schedule

/-! # Callees that panic

A callee may panic when it is called, before it returns its future. Then `Async.untilSignal` returns the failure
of the panic at once, whatever was signalled before.
-/

namespace TestBench

section

variable {func : Nat → Async (Async Result)} {timeout : Option Nat} {w w₁ : World} {q : Payload}

theorem turn_untilSignal_of_panicked
    (hPanic : (func w.slots.length).turn (w.perform .openSlot).2 = (.panicked q, w₁)) :
    (Async.untilSignal func timeout).turn w =
      (.finished (.error (.ofPayload q)), w₁.abandon w.slots.length) := by
  rw [Async.untilSignal_eq]
  change ((func w.slots.length).attempt.bind _).turn (w.perform .openSlot).2 = _
  rw [World.turn_andThen, hPanic]
  rfl

/-- If the callee panics when it is called the call returns the failure of the panic, though the first
signal that the callee gave before was accepted. So the call returns the accepted result exactly if that
happens to be the same failure. -/
theorem until_panicking_callee (hFunc : ∀ slot, (func slot).KeepsTo ∅ Program.Proper)
    (hPanic : (func w.slots.length).turn (w.perform .openSlot).2 = (.panicked q, w₁)) :
    (∃ w', (Async.untilSignal func timeout).turn w = (.finished (.error (.ofPayload q)), w')) ∧
    ∀ r accepted later, ((func w.slots.length).marks (w.perform .openSlot).2).on w.slots.length =
        .signalled r accepted :: later →
      accepted = true ∧ (∀ r', .signalled r' true ∉ later) ∧
        ((∃ w', (Async.untilSignal func timeout).turn w = (.finished r, w')) ↔
          r = .error (.ofPayload q)) := by
  have hTurn := @turn_untilSignal_of_panicked func timeout w w₁ q hPanic
  refine ⟨⟨_, hTurn⟩, fun r accepted later hMarks => ?_⟩
  obtain ⟨own', hPasses, -⟩ := (hFunc w.slots.length).turnPasses (w := (w.perform .openSlot).2) nofun
  have hLives := hPasses.lives w.slots.length fun _ => List.mem_cons_self
  have hVacant : (w.perform .openSlot).2.slots[w.slots.length]? = some .vacant := by simp [World.perform]
  rw [hMarks, hVacant] at hLives
  have hLives : Slot.Lives none ([.opened] ++ .signalled r accepted :: later) _ := .cons .opened hLives
  have hAccepted : accepted = true := (hLives.accepted_iff (by simp)).mpr (by simp)
  subst hAccepted
  refine ⟨rfl, fun r' => hLives.accepted_unique.2, ?_⟩
  rw [hTurn]
  constructor
  · rintro ⟨w', hEq⟩
    cases hEq
    rfl
  · rintro rfl
    exact ⟨_, rfl⟩

theorem until_panicking_callee_of_done_then_panic :
    let func (slot : Nat) : Async (Async Result) := .act (.settle slot (.ok ())) fun _ => .panic (.text "boom")
    (∃ w', (Async.untilSignal func none).turn {} = (.finished (.error (.ofPayload (.text "boom"))), w')) ∧
      ¬ ∃ w', (Async.untilSignal func none).turn {} = (.finished (.ok ()), w') := by
  intro func
  have hFunc (slot : Nat) : (func slot).KeepsTo ∅ Program.Proper := .act trivial fun _ => .panic _
  obtain ⟨hReturned, hSignals⟩ := @until_panicking_callee func none {} _ _ hFunc rfl
  obtain ⟨-, -, hIff⟩ := hSignals (.ok ()) true [] rfl
  exact ⟨hReturned, fun hOk => nomatch hIff.mp hOk⟩

/-- The result of the first signal, although it was accepted, is not always what the call returns. -/
theorem exists_accepted_signal_not_returned :
    ¬ ∀ (func : Nat → Async (Async Result)) (timeout : Option Nat) (w w₁ : World) (q : Payload) (r : Result)
        (later : List Mark), (∀ slot, (func slot).KeepsTo ∅ Program.Proper) →
      (func w.slots.length).turn (w.perform .openSlot).2 = (.panicked q, w₁) →
      ((func w.slots.length).marks (w.perform .openSlot).2).on w.slots.length = .signalled r true :: later →
      ∃ w', (Async.untilSignal func timeout).turn w = (.finished r, w') := by
  intro h
  let func (slot : Nat) : Async (Async Result) := .act (.settle slot (.ok ())) fun _ => .panic (.text "boom")
  obtain ⟨w', hTurn⟩ := h func none {} _ _ (.ok ()) [] (fun _ => .act trivial fun _ => .panic _) rfl rfl
  cases hTurn

end

end TestBench
