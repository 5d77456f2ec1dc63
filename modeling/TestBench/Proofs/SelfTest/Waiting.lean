import TestBench.Proofs.SelfTest.Chores
import TestBench.Proofs.World.Halting

/-! # Waiting on a bench

While the main program waits on a bench the chores take their turns, and the clock moves from ring to ring. A
main program that has a time to wait for, or waits for a slot with a ticker, gets its turn in the end
(`Bench.exists_reached`), and if it is due it gets it before the tickers that ring at that time.
-/

namespace TestBench.SelfTest

open World

variable {α : Type} {main : Waiting α} {w w₁ w₂ : World} {chores chores₁ chores₂ : List (Nat × Chore)}

/-- The steps until the main program gets its turn, at most. A step of the chores counts twice, as a look at the
main program may follow it. -/
def patience (w : World) (chores : List (Nat × Chore)) : Nat :=
  2 * (toDo w.now chores + w.queue.length) + if w.streak < longestStreak then 1 else 2

theorem patience_pos (w : World) (chores : List (Nat × Chore)) : 0 < patience w chores := by
  unfold patience
  split <;> omega

/-- A main program that began to wait on a bench gets its turn on another. -/
structure Reached (main : Waiting α) (w : World) (chores : List (Nat × Chore)) (w₂ : World)
    (chores₂ : List (Nat × Chore)) : Prop where
  bench : Bench w₂ chores₂
  passes : Passes w chores w₂ chores₂
  resumes : w₂.canResume main
  turn : ∀ e w', (w₂.beginTurn.turnMain none (main.resume w₂.now)).Leads none e w' → Drives none main w e w'
  soon : ∀ n, (w₂.beginTurn.turnMain none (main.resume w₂.now)).Halts n →
    (Progress.waits main w).Halts (patience w chores + n)
  calmer : patience w₂ chores₂ ≤ patience w chores
  still : w.canResume main → w₂.now = w.now
  prompt : ∀ slot due, main.awaits slot → Pending w chores slot due → w₂.now ≤ due
  /-- If it is due then at once: what was to ring at this time is still to ring. -/
  inTime : main.isDue w₂.now → main.due? = some w₂.now ∧
    (∀ slot, main.awaits slot → w₂.slots[slot]? = some .vacant) ∧
    ∀ slot due, Pending w chores slot due → w₂.now ≤ due → Pending w₂ chores₂ slot due
  early : main.isDue w₂.now → Ticked w₂ → Ticked w ∨ ∃ slot due, Pending w chores slot due ∧ due < w₂.now

/-- The main program will get its turn: it can go on, or has a time to wait for, or waits for a ticker. -/
def Expects (main : Waiting α) (w : World) (chores : List (Nat × Chore)) : Prop :=
  w.canResume main ∨ main.due?.isSome ∨ ∃ slot due, main.awaits slot ∧ Pending w chores slot due

theorem canResume_of_awaits {slot : Nat} (h : main.awaits slot) (hSlot : w.slots[slot]? ≠ some .vacant) :
    w.canResume main := by
  cases main with
  | awaiting other due next =>
    obtain rfl : other = slot := beq_iff_eq.mp h
    simp [canResume, hSlot]
  | _ => cases h

theorem ne_vacant_of_canResume {slot : Nat} (h : main.awaits slot) (hMain : w.canResume main)
    (hDue : ¬ main.isDue w.now) : w.slots[slot]? ≠ some .vacant := by
  cases main with
  | awaiting other due next =>
    obtain rfl : other = slot := beq_iff_eq.mp h
    simp only [canResume, Bool.or_eq_true, bne_iff_ne] at hMain
    exact hMain.resolve_right hDue
  | _ => cases h

theorem vacant_of_not_canResume {slot : Nat} (hMain : ¬ w.canResume main) (h : main.awaits slot) :
    w.slots[slot]? = some .vacant :=
  Decidable.byContradiction fun hSlot => hMain (canResume_of_awaits h hSlot)

theorem not_isDue_iff {now : Nat} : ¬ main.isDue now ↔ ∀ due ∈ main.due?, now < due := by
  unfold Waiting.isDue
  cases main.due? <;> simp

theorem isDue_iff {now : Nat} : main.isDue now ↔ ∃ due ∈ main.due?, due ≤ now := by
  unfold Waiting.isDue
  cases main.due? <;> simp

namespace Passes

theorem canResume (h : Passes w chores w₁ chores₁) (hMain : w.canResume main) : w₁.canResume main := by
  have hNow := h.now
  cases main with
  | ready next => rfl
  | postponed slot timeout next => rfl
  | sleeping due next =>
    simp only [World.canResume, decide_eq_true_eq] at hMain ⊢
    omega
  | awaiting slot due next =>
    simp only [World.canResume, Bool.or_eq_true, bne_iff_ne, ne_eq] at hMain ⊢
    refine hMain.imp (fun hSlot => ?_) fun hDue => ?_
    · obtain hSame | ⟨hSettled, -⟩ := h.slots slot
      · rwa [hSame]
      · rw [hSettled]
        simp
    · cases due with
      | none => cases hDue
      | some due =>
        simp only [Waiting.isDue, Waiting.due?, Option.any_some, decide_eq_true_eq] at hDue ⊢
        omega

theorem expects (h : Passes w chores w₁ chores₁) (hMain : Expects main w chores) : Expects main w₁ chores₁ := by
  obtain hResume | hDue | ⟨slot, due, hAwaits, hPending⟩ := hMain
  · exact .inl (h.canResume hResume)
  · exact .inr (.inl hDue)
  · obtain hStill | ⟨-, -, hSlot⟩ := h.gone slot due hPending
    · exact .inr (.inr ⟨slot, due, hAwaits, hStill⟩)
    · exact .inl (canResume_of_awaits hAwaits hSlot)

end Passes

/-- One step while the main program waits, and the rest of the way. If the clock moves in that step nothing
else happens. -/
theorem Reached.step (hBench : Bench w chores) (hStep : w.step none main = .waits main w₁)
    (hPasses : Passes w chores w₁ chores₁) (hLater : ¬ main.isDue w₁.now)
    (hMove : w₁.now = w.now ∨
      ¬ w.canResume main ∧ ∀ slot due, Pending w chores slot due → Pending w₁ chores₁ slot due)
    (hPatience : patience w₁ chores₁ < patience w chores) (h : Reached main w₁ chores₁ w₂ chores₂) :
    Reached main w chores w₂ chores₂ where
  bench := h.bench
  passes := hPasses.trans h.passes
  resumes := h.resumes
  turn e w' hLeads := .more hStep (h.turn e w' hLeads)
  soon n hTurn := .step (hStep ▸ h.soon n hTurn) (Nat.add_lt_add_right hPatience n)
  calmer := Nat.le_of_lt (Nat.lt_of_le_of_lt h.calmer hPatience)
  still hResume := by
    obtain hNow | ⟨hMain, -⟩ := hMove
    · exact (h.still (hPasses.canResume hResume)).trans hNow
    · exact absurd hResume hMain
  prompt slot due hAwaits hBefore := by
    obtain hStill | ⟨-, -, hSlot⟩ := hPasses.gone slot due hBefore
    · exact h.prompt slot due hAwaits hStill
    · obtain hNow | ⟨-, hPending⟩ := hMove
      · rw [h.still (canResume_of_awaits hAwaits hSlot), hNow]
        obtain ⟨t, ht, -, rfl⟩ := hBefore
        exact hBench.punctual t ht
      · exact h.prompt slot due hAwaits (hPending slot due hBefore)
  inTime hDue := by
    obtain ⟨hNow, hVacant, hPending⟩ := h.inTime hDue
    refine ⟨hNow, hVacant, fun slot due hBefore hLe => ?_⟩
    obtain hStill | ⟨hGone, -⟩ := hPasses.gone slot due hBefore
    · exact hPending slot due hStill hLe
    · have hSame : w₁.now = w₂.now := Nat.le_antisymm h.passes.now (Nat.le_trans hLe hGone)
      exact absurd (hSame ▸ hDue) hLater
  early hDue hTicked := by
    have hLt : w₁.now < w₂.now := Nat.lt_of_le_of_ne h.passes.now fun hSame => hLater (hSame ▸ hDue)
    obtain hTicked₁ | ⟨slot, due, hPending, hEarly⟩ := h.early hDue hTicked
    · refine (hPasses.rung hTicked₁).imp id ?_
      rintro ⟨slot, due, hPending, hRung⟩
      exact ⟨slot, due, hPending, Nat.lt_of_le_of_lt hRung hLt⟩
    · exact .inr ⟨slot, due, hPasses.kept slot due hPending, hEarly⟩

namespace Bench

theorem rested_eq (h : Bench w chores) : w.rested = { w with streak := 0 } := by
  have hYielding := h.yielding
  have hRested : w.rested = { w with streak := 0, yielding := [] } := by
    unfold World.rested World.wakeYielding
    simp only [hYielding]
    rfl
  rw [hRested, ← hYielding]

theorem rested (h : Bench w chores) : Bench w.rested chores ∧ Passes w chores w.rested chores := by
  rw [h.rested_eq]
  exact ⟨h.idle rfl rfl (Nat.le_refl _) rfl rfl rfl (fun _ => id) fun _ => id, .of_same rfl rfl rfl⟩

theorem patience_turned {task : Nat} {rest : List Nat} (hQueue : w.queue = task :: rest)
    (hStreak : w.streak < longestStreak)
    (h : toDo w₁.now chores₁ + w₁.queue.length ≤ toDo w.now chores + rest.length) :
    patience w₁ chores₁ < patience w chores := by
  simp only [patience, hQueue, hStreak, if_true, List.length_cons]
  split <;> omega

theorem patience_rested (h : Bench w chores) : patience w.rested chores ≤ patience w chores ∧
    (¬ w.streak < longestStreak → patience w.rested chores < patience w chores) := by
  have hRested : patience w.rested chores = 2 * (toDo w.now chores + w.queue.length) + 1 := by
    rw [h.rested_eq]
    rfl
  rw [hRested, patience]
  constructor
  · split <;> omega
  · intro hLong
    rw [if_neg hLong]
    exact Nat.lt_succ_self _

theorem ticking (h : Bench w chores) (hQueue : w.queue = []) :
    ∀ t ∈ chores, ∃ slot due, t.2 = .ticking slot due ∧ w.now < due := by
  intro t ht
  have hTask : (t.1, t.2.waiting) ∈ w.tasks := h.tasks ▸ List.mem_map.mpr ⟨t, ht, rfl⟩
  have hResume := h.alert.not_canResume hQueue h.yielding _ hTask
  have hPunctual := h.punctual t ht
  obtain ⟨task, c⟩ := t
  cases c with
  | work slot => exact absurd rfl hResume
  | ticker slot => exact absurd rfl hResume
  | ticking slot due =>
    refine ⟨slot, due, rfl, ?_⟩
    simpa [Chore.waiting, World.canResume] using hResume

theorem toDo_later (h : Bench w chores) (hQueue : w.queue = []) (now : Nat) :
    toDo now chores + 2 * (w.tasks.filter (·.2.isDue now)).length = toDo w.now chores := by
  have hTicking := h.ticking hQueue
  rw [h.tasks]
  clear h
  induction chores with
  | nil => rfl
  | cons t chores ih =>
    obtain ⟨slot, due, hTick, hLt⟩ := hTicking t List.mem_cons_self
    have hRest := ih fun t ht => hTicking t (List.mem_cons_of_mem _ ht)
    have hDue : t.2.waiting.isDue now = decide (due ≤ now) := by rw [hTick]; rfl
    have hEffort : t.2.effort w.now = 3 := by rw [hTick]; exact if_pos hLt
    have hLater : t.2.effort now = if now < due then 3 else 1 := by rw [hTick]; rfl
    simp only [toDo, List.map_cons, List.sum_cons, List.filter_cons, hDue, hEffort, hLater] at hRest ⊢
    by_cases hNow : now < due
    · simp only [hNow, if_true, decide_eq_false (Nat.not_le.mpr hNow), Bool.false_eq_true, if_false]
      omega
    · simp only [hNow, if_false, decide_eq_true (Nat.le_of_not_lt hNow), if_true, List.length_cons]
      omega

theorem patience_advance (h : Bench w chores) (hQueue : w.queue = []) (time : Nat) :
    patience (w.advance time) chores ≤ patience w chores ∧
      ((∃ t ∈ chores, t.2.waiting.isDue (w.advance time).now) →
        patience (w.advance time) chores < patience w chores) := by
  let later : World := { w with now := max w.now time }
  have hLength := later.length_enqueueAll_le ((w.tasks.filter (·.2.isDue later.now)).map (·.1))
  obtain ⟨q, hq⟩ := w.advance_eq time
  have hSame : later.enqueueAll ((w.tasks.filter (·.2.isDue later.now)).map (·.1)) = w.advance time := rfl
  have hNow : later.queue.length = 0 := congrArg List.length hQueue
  rw [hSame, hq, List.length_map, hNow, Nat.zero_add] at hLength
  have hToDo := h.toDo_later hQueue (max w.now time)
  have hLength : q.length ≤ (w.tasks.filter (·.2.isDue (max w.now time))).length := hLength
  simp only [hq, patience, hQueue, List.length_nil]
  refine ⟨by omega, ?_⟩
  rintro ⟨t, ht, hDue⟩
  have hMem : (t.1, t.2.waiting) ∈ w.tasks.filter (·.2.isDue (max w.now time)) :=
    List.mem_filter.mpr ⟨h.tasks ▸ List.mem_map.mpr ⟨t, ht, rfl⟩, hDue⟩
  have hPos := List.length_pos_of_mem hMem
  omega

theorem advance {time : Nat} (h : Bench w chores) (hQueue : w.queue = [])
    (hTime : (w.dues main none).min? = some time) :
    Bench (w.advance time) chores ∧ Passes w chores (w.advance time) chores ∧
      ∀ slot due, Pending w chores slot due → Pending (w.advance time) chores slot due := by
  obtain ⟨q, hq⟩ := w.advance_eq time
  obtain ⟨-, hLeast⟩ := le_due_of_min hTime
  have hAlert := h.alert.advance time
  rw [hq] at hAlert ⊢
  have hDue (t : Nat × Chore) (ht : t ∈ chores) (now : Nat) : t.2.due now = t.2.due w.now := by
    obtain ⟨slot, due, hTicking, -⟩ := h.ticking hQueue t ht
    rw [hTicking]
    rfl
  have hPending (slot due : Nat) :
      Pending { w with now := max w.now time, queue := q } chores slot due ↔ Pending w chores slot due := by
    refine exists_congr fun t => and_congr_right fun ht => and_congr_right fun _ => ?_
    rw [hDue t ht]
  refine ⟨⟨h.tasks, hAlert, h.yielding, h.opened, fun t ht => ?_, h.noted, h.backed⟩,
    .of_pending_iff (Nat.le_max_left _ _) rfl rfl hPending, fun slot due => (hPending slot due).mpr⟩
  rw [hDue t ht]
  refine Nat.max_le.mpr ⟨h.punctual t ht, ?_⟩
  have hTask : (t.1, t.2.waiting) ∈ w.tasks := h.tasks ▸ List.mem_map.mpr ⟨t, ht, rfl⟩
  obtain ⟨slot, due, hTicking, -⟩ := h.ticking hQueue t ht
  refine hLeast _ hTask _ ?_
  rw [hTicking]
  rfl

theorem reached_of_canResume (h : Bench w chores) (hLater : ¬ main.isDue w.now) (hMain : w.canResume main)
    (hStep : w.step none main = w.attend none main) : Reached main w chores w.rested chores := by
  obtain ⟨hCalmer, -⟩ := h.patience_rested
  obtain ⟨hBench, hPasses⟩ := h.rested
  have hNow : w.rested.now = w.now := by rw [h.rested_eq]
  have hResume : w.rested.canResume main := hPasses.canResume hMain
  have hLook : w.step none main = w.rested.beginTurn.turnMain none (main.resume w.rested.now) := by
    rw [hStep, attend_eq, lookAt, if_pos hResume]
  refine ⟨hBench, hPasses, hResume, fun e w' hLeads => ?_, fun n hTurn => ?_, hCalmer, fun _ => hNow,
    fun slot due _ hPending => ?_, fun hDue => absurd (hNow ▸ hDue) hLater,
    fun hDue => absurd (hNow ▸ hDue) hLater⟩
  · rw [drives_iff, hLook]
    exact hLeads
  · exact .step (hLook ▸ hTurn) (Nat.lt_add_of_pos_left (patience_pos w chores))
  · obtain ⟨t, ht, -, rfl⟩ := hPending
    exact hNow ▸ h.punctual t ht

theorem attend_of_not_canResume (h : Bench w chores) (hMain : ¬ w.canResume main) (hQueue : w.queue ≠ []) :
    w.attend none main = .waits main w.rested := by
  have hSame : w.rested.canResume main = w.canResume main := by
    rw [h.rested_eq]
    rfl
  have hEmpty : w.rested.queue.isEmpty = false := by
    rw [h.rested_eq]
    simpa using hQueue
  rw [attend_eq, lookAt, if_neg (hSame ▸ hMain), if_pos (by rw [hEmpty]; rfl)]

theorem exists_due {time : Nat} (h : Bench w chores) (hQueue : w.queue = [])
    (hTime : (w.dues main none).min? = some time) (hMain : main.due? ≠ some time) :
    ∃ t ∈ chores, t.2.due w.now = time := by
  have hMem : time ∈ w.dues main none := List.min?_mem hTime
  rcases List.mem_append.mp hMem with hMem | hMem
  · rcases List.mem_append.mp hMem with hMem | hMem
    · exact absurd (Option.mem_toList.mp hMem) hMain
    · cases hMem
  · obtain ⟨t, ht, hDue⟩ := List.mem_filterMap.mp hMem
    rw [h.tasks] at ht
    obtain ⟨t, hMem, rfl⟩ := List.mem_map.mp ht
    obtain ⟨slot, due, hTicking, -⟩ := h.ticking hQueue t hMem
    refine ⟨t, hMem, ?_⟩
    rw [hTicking] at hDue ⊢
    exact Option.some.inj hDue

theorem exists_time (h : Bench w chores) (hQueue : w.queue = []) (hMain : ¬ w.canResume main)
    (hExpects : Expects main w chores) : ∃ time, (w.dues main none).min? = some time := by
  have hDues : ∃ due, due ∈ w.dues main none := by
    obtain hResume | hDue | ⟨slot, due, -, t, ht, -, -⟩ := hExpects
    · exact absurd hResume hMain
    · obtain ⟨due, hDue⟩ := Option.isSome_iff_exists.mp hDue
      exact ⟨due, List.mem_append_left _ (List.mem_append_left _ (by simp [hDue]))⟩
    · obtain ⟨slot, due, hTicking, -⟩ := h.ticking hQueue t ht
      refine ⟨due, List.mem_append_right _ (List.mem_filterMap.mpr ⟨(t.1, t.2.waiting), ?_, ?_⟩)⟩
      · exact h.tasks ▸ List.mem_map.mpr ⟨t, ht, rfl⟩
      · rw [hTicking]
        rfl
  obtain ⟨due, hDue⟩ := hDues
  exact Option.isSome_iff_exists.mp (List.isSome_min?_of_mem hDue)

theorem le_now_advance (w : World) (time : Nat) : time ≤ (w.advance time).now := by
  obtain ⟨q, hq⟩ := w.advance_eq time
  rw [hq]
  exact Nat.le_max_right _ _

theorem due?_of_isDue_advance {time : Nat} (hMain : ¬ w.canResume main)
    (hTime : (w.dues main none).min? = some time) (hDue : main.isDue (w.advance time).now) :
    main.due? = some (w.advance time).now := by
  obtain ⟨q, hq⟩ := w.advance_eq time
  obtain ⟨due, hSome, hLe⟩ := isDue_iff.mp hDue
  have hLt := lt_due_of_not_canResume hMain due hSome
  have hLeast := (le_due_of_min hTime).1 due hSome
  rw [hq] at hLe ⊢
  rw [hSome]
  -- the clock moved to `time`, and no time that is waited for was skipped
  congr 1
  have hLater : max w.now time ≤ due := Nat.max_le.mpr ⟨Nat.le_of_lt hLt, hLeast⟩
  exact Nat.le_antisymm hLe hLater

/-- Nobody could go on, and the clock has moved: to the time of the main program, or else a ticker is due. -/
structure Moved (main : Waiting α) (w : World) (chores : List (Nat × Chore)) (later : World) : Prop where
  bench : Bench later chores
  passes : Passes w chores later chores
  slots : later.slots = w.slots
  ticked : Ticked later ↔ Ticked w
  pending : ∀ slot due, Pending w chores slot due → Pending later chores slot due
  due : main.isDue later.now → main.due? = some later.now
  calmer : patience later chores ≤ patience w chores
  fewer : ¬ main.isDue later.now → patience later chores < patience w chores
  attend : w.attend none main =
    if later.canResume main then later.beginTurn.turnMain none (main.resume later.now) else later.wait none main

theorem exists_moved (h : Bench w chores) (hMain : ¬ w.canResume main) (hQueue : w.queue = [])
    (hExpects : Expects main w chores) : ∃ later, Moved main w chores later := by
  obtain ⟨hBench, hPasses⟩ := h.rested
  have hMain' : ¬ w.rested.canResume main := by
    rw [h.rested_eq]
    exact hMain
  have hQueue' : w.rested.queue = [] := by
    rw [h.rested_eq]
    exact hQueue
  obtain ⟨time, hTime⟩ := hBench.exists_time hQueue' hMain' (hPasses.expects hExpects)
  obtain ⟨hLaterBench, hLaterPasses, hPending⟩ := hBench.advance hQueue' hTime
  obtain ⟨hCalmer, -⟩ := h.patience_rested
  obtain ⟨hCalmer', hFewer⟩ := hBench.patience_advance hQueue' time
  obtain ⟨q, hq⟩ := w.rested.advance_eq time
  refine ⟨w.rested.advance time, hLaterBench, hPasses.trans hLaterPasses, ?_, ?_, fun slot due hBefore => ?_,
    due?_of_isDue_advance hMain' hTime, Nat.le_trans hCalmer' hCalmer, fun hNotDue => ?_, ?_⟩
  · rw [hq, h.rested_eq]
  · rw [hq, h.rested_eq]
    rfl
  · refine hPending slot due ?_
    rw [h.rested_eq]
    exact hBefore
  · have hLe : time ≤ (w.rested.advance time).now := le_now_advance _ time
    obtain ⟨t, ht, hDue⟩ := hBench.exists_due hQueue' hTime fun hDue =>
      hNotDue (isDue_iff.mpr ⟨time, hDue, hLe⟩)
    obtain ⟨slot, due, hTicking, -⟩ := hBench.ticking hQueue' t ht
    refine Nat.lt_of_lt_of_le (hFewer ⟨t, ht, ?_⟩) hCalmer
    rw [hTicking] at hDue ⊢
    have hDue : due = time := hDue
    exact decide_eq_true (hDue.symm ▸ hLe)
  · rw [attend_eq, lookAt, if_neg hMain', if_neg (by rw [hQueue']; exact nofun)]
    simp only [hTime]

theorem Moved.reached {later : World} (h : Moved main w chores later) (hMain : ¬ w.canResume main)
    (hResume : later.canResume main) (hStep : w.step none main = w.attend none main) :
    Reached main w chores later chores := by
  have hLook : w.step none main = later.beginTurn.turnMain none (main.resume later.now) := by
    rw [hStep, h.attend, if_pos hResume]
  refine ⟨h.bench, h.passes, hResume, fun e w' hLeads => ?_, fun n hTurn => ?_, h.calmer,
    fun hResume => absurd hResume hMain, fun slot due _ hBefore => ?_, fun hDue => ?_,
    fun _ hTicked => .inl (h.ticked.mp hTicked)⟩
  · rw [drives_iff, hLook]
    exact hLeads
  · exact .step (hLook ▸ hTurn) (Nat.lt_add_of_pos_left (patience_pos w chores))
  · obtain ⟨t, ht, -, rfl⟩ := h.pending slot due hBefore
    exact h.bench.punctual t ht
  · refine ⟨h.due hDue, fun slot hAwaits => ?_, fun slot due hBefore _ => h.pending slot due hBefore⟩
    rw [h.slots]
    exact vacant_of_not_canResume hMain hAwaits

/-- On a bench a main program that can expect its turn gets it: each step of the world takes some of the
patience. -/
theorem exists_reached (main : Waiting α) {w : World} {chores : List (Nat × Chore)} (h : Bench w chores)
    (hLater : ¬ main.isDue w.now) (hExpects : Expects main w chores) :
    ∃ w₂ chores₂, Reached main w chores w₂ chores₂ := by
  -- a turn of a chore, a look after a streak of turns or a move of the clock: each takes some of the patience
  by_cases hMain : w.canResume main ∧ w.step none main = w.attend none main
  · exact ⟨_, _, h.reached_of_canResume hLater hMain.1 hMain.2⟩
  · rcases hQueue : w.queue with _ | ⟨task, rest⟩
    · have hStep : w.step none main = w.attend none main := by simp only [World.step, hQueue]
      have hNot : ¬ w.canResume main := fun hResume => hMain ⟨hResume, hStep⟩
      obtain ⟨w₁, hMoved⟩ := h.exists_moved hNot hQueue hExpects
      by_cases hResume : w₁.canResume main
      · exact ⟨w₁, _, hMoved.reached hNot hResume hStep⟩
      · have hWaits : w.step none main = .waits main w₁ := by
          rw [hStep, hMoved.attend, if_neg hResume]
          rfl
        have hLater₁ : ¬ main.isDue w₁.now := not_isDue_iff.mpr (lt_due_of_not_canResume hResume)
        have hFewer := hMoved.fewer hLater₁
        obtain ⟨w₂, chores₂, hReached⟩ :=
          exists_reached main hMoved.bench hLater₁ (hMoved.passes.expects hExpects)
        exact ⟨w₂, chores₂,
          hReached.step h hWaits hMoved.passes hLater₁ (.inr ⟨hNot, hMoved.pending⟩) hFewer⟩
    · by_cases hStreak : w.streak < longestStreak
      · have hStep : w.step none main =
            .waits main (turnTask { w with queue := rest, streak := w.streak + 1 } task) := by
          simp only [World.step, hQueue, hStreak, if_true]
        obtain ⟨chores₁, hBench₁, hPasses₁, hNow, hToDo⟩ := h.turned hQueue
        have hFewer := patience_turned hQueue hStreak hToDo
        have hLater₁ := hNow.symm ▸ hLater
        obtain ⟨w₂, chores₂, hReached⟩ := exists_reached main hBench₁ hLater₁ (hPasses₁.expects hExpects)
        exact ⟨w₂, chores₂, hReached.step h hStep hPasses₁ hLater₁ (.inl hNow) hFewer⟩
      · have hStep : w.step none main = w.attend none main := by
          simp only [World.step, hQueue, hStreak, if_false]
        have hNot : ¬ w.canResume main := fun hResume => hMain ⟨hResume, hStep⟩
        have hLook := hStep.trans (h.attend_of_not_canResume hNot (by simp [hQueue]))
        obtain ⟨hBench₁, hPasses₁⟩ := h.rested
        have hFewer := h.patience_rested.2 hStreak
        have hLater₁ : ¬ main.isDue w.rested.now := by
          rw [h.rested_eq]
          exact hLater
        obtain ⟨w₂, chores₂, hReached⟩ := exists_reached main hBench₁ hLater₁ (hPasses₁.expects hExpects)
        exact ⟨w₂, chores₂, hReached.step h hLook hPasses₁ hLater₁ (.inl (by rw [h.rested_eq])) hFewer⟩
termination_by patience w chores

end Bench

end TestBench.SelfTest
