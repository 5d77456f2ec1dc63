import TestBench.Proofs.Signal.Lockstep

/-! # Steps in lockstep

Twin worlds take the same steps (`World.Twin.step`): a timer that is armed and has not fired wakes nobody, and
the clock does not stop for it as long as somebody waits for an earlier time.
-/

namespace TestBench

/-- The same came of two runs: both ended in the same way, or both main programs wait. -/
inductive Progress.Twin (slot ms u : Nat) {α : Type} : Progress α → Progress α → Prop
  | ended (e : Ending α) {w w' : World} (h : w.Twin slot ms u w') : Twin slot ms u (.ended e w) (.ended e w')
  | waits {x x' : Waiting α} {w w' : World} (hMain : x.Retimed slot ms u Eq x') (h : w.Twin slot ms u w') :
      Twin slot ms u (.waits x w) (.waits x' w')

namespace World.Twin

variable {α : Type} {slot ms u : Nat} {w w' : World} {limit : Option Nat} {x x' : Waiting α} {p p' : Async α}

theorem isPast_eq (h : w.Twin slot ms u w') (limit : Option Nat) : w'.isPast limit = w.isPast limit := by
  simp only [isPast, h.now_eq]

theorem drop (h : w.Twin slot ms u w') (hx : x.Retimed slot ms u Eq x') :
    (w.drop x).Twin slot ms u (w'.drop x') := by
  cases hx with
  | ready _ => exact h
  | sleeping _ => exact h
  | awaiting _ => exact h.abandon _
  | postponed _ => exact h.abandon _
  | pending _ _ _ => exact h.abandon _
  | delayed _ _ => exact h.abandon _

theorem wait (h : w.Twin slot ms u w') (limit : Option Nat) (hx : x.Retimed slot ms u Eq x') :
    w'.waitMarks limit x' = w.waitMarks limit x ∧ (w.wait limit x).Twin slot ms u (w'.wait limit x') := by
  unfold waitMarks World.wait
  rw [h.isPast_eq limit, hx.dropMarks_eq]
  split
  · exact ⟨rfl, .ended _ (h.drop hx)⟩
  · exact ⟨rfl, .waits hx h⟩

theorem turnMain (h : p.Together slot ms u Eq p' w w') (limit : Option Nat) :
    w'.turnMainMarks limit p' = w.turnMainMarks limit p ∧
      (w.turnMain limit p).Twin slot ms u (w'.turnMain limit p') := by
  obtain ⟨hSame, hTurn, hWorld⟩ := h
  unfold turnMainMarks World.turnMain
  rw [hSame]
  generalize p.turn w = t at hTurn hWorld
  generalize p'.turn w' = t' at hTurn hWorld
  obtain ⟨t, w⟩ := t
  obtain ⟨t', w'⟩ := t'
  cases hTurn with
  | finished hab => exact ⟨rfl, hab ▸ .ended _ hWorld⟩
  | panicked q => exact ⟨rfl, .ended _ hWorld⟩
  | waits hx =>
    obtain ⟨hWait, hProgress⟩ := wait hWorld limit hx
    exact ⟨congrArg _ hWait, hProgress⟩
  | yields hx =>
    obtain ⟨hWait, hProgress⟩ := wait hWorld limit hx
    exact ⟨congrArg _ hWait, hProgress⟩

theorem followUp (h : w.Twin slot ms u w') (task : Nat) : (w.followUp task).Twin slot ms u (w'.followUp task) := by
  have hNudged : w'.nudged = w.nudged := by
    obtain ⟨tasks, -, rfl⟩ := h
    rfl
  unfold World.followUp
  rw [hNudged]
  split
  · exact h.enqueue task
  · exact h

theorem settleTask {t t' : Turn Unit} (h : w.Twin slot ms u w') (task : Nat) (ht : t.Retimed slot ms u Eq t') :
    (w.settleTask task t).Twin slot ms u (w'.settleTask task t') := by
  cases ht with
  | finished _ => exact h
  | panicked _ => exact h
  | waits hx => exact (h.keep task hx).followUp task
  | @yields x x' hx =>
    obtain ⟨tasks, hTasks, hEq⟩ := h.keep task hx
    have hYields : Twin slot ms u { w.keep task x with yielding := task :: w.yielding }
        { w'.keep task x' with yielding := task :: w'.yielding } := by
      rw [hEq]
      obtain ⟨-, -, rfl⟩ := h
      exact ⟨tasks, hTasks, rfl⟩
    exact hYields.followUp task

theorem turnTask {task : Nat} (h : w.Twin slot ms u w') (hTime : w.InTime slot ms u)
    (hMarks : ((w.turnTaskMarks task).stamped w.now).InTime slot ms u)
    (hNow : ∀ t ∈ w.tasks, t.2.awaits slot → w.now ≤ u) :
    w'.turnTaskMarks task = w.turnTaskMarks task ∧ (w.turnTask task).Twin slot ms u (w'.turnTask task) := by
  unfold turnTaskMarks at hMarks ⊢
  unfold World.turnTask
  obtain ⟨hNone, hNone'⟩ | ⟨x, x', hSome, hSome', hx⟩ := h.lookup task
  · simp only [hNone, hNone']
    exact ⟨trivial, h⟩
  · obtain ⟨before, after, hTasks, -⟩ := List.lookup_eq_some_iff.mp hSome
    have hNow := hNow (task, x) (by simp [hTasks])
    simp only [hSome, hSome', hx.canResume_eq h.now_eq h.slots_eq hNow] at hMarks ⊢
    split
    · rename_i hResume
      rw [if_pos hResume] at hMarks
      have hReady : (w.without task).beginTurn.canResume x = w.canResume x := canResume_congr rfl fun _ _ => rfl
      have hBegun : (w.without task).beginTurn.InTime slot ms u := hTime.idle rfl (Nat.le_refl _)
      obtain ⟨hSame, hTurn, hWorld⟩ := hx.together (h.without task).beginTurn hBegun hMarks
        (by decide : turnBudget ≠ 0) (hReady ▸ hResume) hNow
      exact ⟨hSame, (hWorld.settleTask task hTurn).setReports h.reports_eq⟩
    · exact ⟨rfl, h⟩

theorem look (h : w.Twin slot ms u w') (hx : x.Retimed slot ms u Eq x') (hTime : w.InTime slot ms u)
    (hMarks : ((w.beginTurn.turnMainMarks limit (x.resume w.now)).stamped w.now).InTime slot ms u)
    (hResume : w.canResume x) (hNow : x.awaits slot → w.now ≤ u) :
    w'.beginTurn.turnMainMarks limit (x'.resume w'.now) = w.beginTurn.turnMainMarks limit (x.resume w.now) ∧
      (w.beginTurn.turnMain limit (x.resume w.now)).Twin slot ms u
        (w'.beginTurn.turnMain limit (x'.resume w'.now)) := by
  have hBegun : w.beginTurn.InTime slot ms u := hTime.idle rfl (Nat.le_refl _)
  have hReady : w.beginTurn.canResume x = w.canResume x := canResume_congr rfl fun _ _ => rfl
  have hTurn : (((x.resume w.now).marks w.beginTurn).stamped w.now).InTime slot ms u := by
    refine hMarks.mono ?_
    unfold turnMainMarks
    rw [History.stamped_append]
    exact List.subset_append_left _ _
  exact turnMain (hx.together h.beginTurn hBegun hTurn (by decide : turnBudget ≠ 0) (hReady ▸ hResume) hNow) limit

end World.Twin

/-! ## Times that are waited for -/

theorem exists_mem_of_forall₂ {α β : Type} {R : α → β → Prop} {l : List α} {l' : List β} {a : α}
    (h : List.Forall₂ R l l') (ha : a ∈ l) : ∃ b ∈ l', R a b := by
  induction h with
  | nil => cases ha
  | @cons b c _ _ hFirst _ ih =>
    rcases List.mem_cons.mp ha with rfl | ha
    · exact ⟨c, List.mem_cons_self, hFirst⟩
    · obtain ⟨d, hd, hRest⟩ := ih ha
      exact ⟨d, List.mem_cons_of_mem c hd, hRest⟩

namespace World

variable {α : Type} {slot ms u : Nat} {w w' : World} {limit : Option Nat} {x x' : Waiting α}

def Awaited (w : World) (slot : Nat) (main : Waiting α) : Prop := main.awaits slot ∨ ∃ t ∈ w.tasks, t.2.awaits slot

theorem now_advance (w : World) (time : Nat) : (w.advance time).now = max w.now time := by
  obtain ⟨q, hq⟩ := w.advance_eq time
  rw [hq]

theorem mem_dues_iff {time : Nat} :
    time ∈ w.dues x limit ↔ time ∈ x.due? ∨ time ∈ limit ∨ ∃ t ∈ w.tasks, time ∈ t.2.due? := by
  simp [dues]

namespace Twin

theorem mem_tasks (h : w.Twin slot ms u w') {t : Nat × Waiting Unit} (ht : t ∈ w.tasks) :
    ∃ t' ∈ w'.tasks, SameTask slot ms u t t' := by
  obtain ⟨tasks, hTasks, rfl⟩ := h
  exact exists_mem_of_forall₂ hTasks ht

theorem mem_tasks' (h : w.Twin slot ms u w') {t' : Nat × Waiting Unit} (ht' : t' ∈ w'.tasks) :
    ∃ t ∈ w.tasks, SameTask slot ms u t t' := by
  obtain ⟨tasks, hTasks, rfl⟩ := h
  have hFlipped : List.Forall₂ (flip (SameTask slot ms u)) tasks w.tasks := .flip hTasks
  exact exists_mem_of_forall₂ hFlipped ht'

/-- If nobody waits for the slot, or the clock goes on to a time up to `u`, it goes on to the same time in both
worlds. -/
theorem min_dues_eq (h : w.Twin slot ms u w') (hx : x.Retimed slot ms u Eq x')
    (hClock : w.Awaited slot x → ∀ time, (w.dues x limit).min? = some time → time ≤ u) :
    (w'.dues x' limit).min? = (w.dues x limit).min? := by
  have hMem : ∀ due ∈ w.dues x limit, due ∈ w'.dues x' limit ∨ w.Awaited slot x ∧ u < due := by
    intro due hDue
    simp only [mem_dues_iff] at hDue ⊢
    rcases hDue with hDue | hDue | ⟨t, ht, hDue⟩
    · obtain hSame | ⟨hAwaits, ⟨due', hDue', hLt⟩, -⟩ := hx.due?_eq
      · exact .inl (.inl (hSame ▸ hDue))
      · obtain rfl := Option.mem_unique hDue hDue'
        exact .inr ⟨.inl hAwaits, hLt⟩
    · exact .inl (.inr (.inl hDue))
    · obtain ⟨t', ht', -, hSame⟩ := h.mem_tasks ht
      obtain hSame | ⟨hAwaits, ⟨due', hDue', hLt⟩, -⟩ := hSame.due?_eq
      · exact .inl (.inr (.inr ⟨t', ht', hSame ▸ hDue⟩))
      · obtain rfl := Option.mem_unique hDue hDue'
        exact .inr ⟨.inr ⟨t, ht, hAwaits⟩, hLt⟩
  have hMem' : ∀ due ∈ w'.dues x' limit,
      due ∈ w.dues x limit ∨ w.Awaited slot x ∧ u < due ∧ w.dues x limit ≠ [] := by
    intro due hDue
    have hSome {other : Nat} (hOther : other ∈ w.dues x limit) : w.dues x limit ≠ [] := List.ne_nil_of_mem hOther
    rcases mem_dues_iff.mp hDue with hDue | hDue | ⟨t', ht', hDue⟩
    · obtain hSame | ⟨hAwaits, ⟨due', hDue', -⟩, hLater⟩ := hx.due?_eq
      · exact .inl (mem_dues_iff.mpr (.inl (hSame ▸ hDue)))
      · exact .inr ⟨.inl hAwaits, hLater due hDue, hSome (mem_dues_iff.mpr (.inl hDue'))⟩
    · exact .inl (mem_dues_iff.mpr (.inr (.inl hDue)))
    · obtain ⟨t, ht, -, hSame⟩ := h.mem_tasks' ht'
      obtain hSame | ⟨hAwaits, ⟨due', hDue', -⟩, hLater⟩ := hSame.due?_eq
      · exact .inl (mem_dues_iff.mpr (.inr (.inr ⟨t, ht, hSame ▸ hDue⟩)))
      · exact .inr ⟨.inr ⟨t, ht, hAwaits⟩, hLater due hDue, hSome (mem_dues_iff.mpr (.inr (.inr ⟨t, ht, hDue'⟩)))⟩
  -- the lists of times differ, but only in times after `u`, and one is empty only if the other is
  cases hMin : (w.dues x limit).min? with
  | none =>
    rw [List.min?_eq_none_iff] at hMin ⊢
    refine List.eq_nil_iff_forall_not_mem.mpr fun due hDue => ?_
    obtain hDue | ⟨-, -, hSome⟩ := hMem' due hDue
    · rw [hMin] at hDue
      cases hDue
    · exact hSome hMin
  | some time =>
    obtain ⟨hLeast, hLe⟩ := List.min?_eq_some_iff.mp hMin
    refine List.min?_eq_some_iff.mpr ⟨?_, fun due hDue => ?_⟩
    · obtain hSame | ⟨hAwaited, hLt⟩ := hMem time hLeast
      · exact hSame
      · exact absurd (hClock hAwaited time hMin) (Nat.not_le.mpr hLt)
    · obtain hDue | ⟨hAwaited, hLt, -⟩ := hMem' due hDue
      · exact hLe due hDue
      · exact Nat.le_trans (hClock hAwaited time hMin) (Nat.le_of_lt hLt)

theorem advance (h : w.Twin slot ms u w') (time : Nat)
    (hNow : (∃ t ∈ w.tasks, t.2.awaits slot) → (w.advance time).now ≤ u) :
    (w.advance time).Twin slot ms u (w'.advance time) := by
  obtain ⟨q, hq⟩ := w.advance_eq time
  rw [hq] at hNow
  have hLater : Twin slot ms u { w with now := max w.now time } { w' with now := max w'.now time } := by
    obtain ⟨tasks, hTasks, rfl⟩ := h
    exact ⟨tasks, hTasks, rfl⟩
  unfold World.advance
  rw [h.now_eq] at hLater ⊢
  exact hLater.wake fun t ht x' hx => hx.isDue_eq fun hAwaits => hNow ⟨t, ht, hAwaits⟩

theorem rested (h : w.Twin slot ms u w') : w.rested.Twin slot ms u w'.rested := by
  have hStreak : Twin slot ms u { w with streak := 0 } { w' with streak := 0 } := by
    obtain ⟨tasks, hTasks, rfl⟩ := h
    exact ⟨tasks, hTasks, rfl⟩
  exact hStreak.wakeYielding

theorem lookAt (h : w.Twin slot ms u w') (hx : x.Retimed slot ms u Eq x') (hTime : w.InTime slot ms u)
    (hMarks : (w.lookChronicle limit x).InTime slot ms u) (hNow : w.Awaited slot x → w.now ≤ u)
    (hClock : w.Awaited slot x → (w.lookAt limit x).world.now ≤ u) :
    w'.lookChronicle limit x' = w.lookChronicle limit x ∧
      (w.lookAt limit x).Twin slot ms u (w'.lookAt limit x') := by
  have hSame := hx.canResume_eq h.now_eq h.slots_eq fun hAwaits => hNow (.inl hAwaits)
  have hQueue := h.queue_eq
  unfold lookChronicle at hMarks ⊢
  unfold World.lookAt at hClock ⊢
  rw [hSame, hQueue]
  split
  · rename_i hResume
    rw [if_pos hResume] at hMarks
    obtain ⟨hLook, hProgress⟩ := h.look hx hTime hMarks hResume fun hAwaits => hNow (.inl hAwaits)
    rw [hLook]
    exact ⟨congrArg (History.stamped · _) h.now_eq, hProgress⟩
  · rename_i hResume
    rw [if_neg hResume] at hMarks hClock
    split
    · exact ⟨rfl, .waits hx h⟩
    · rename_i hEmpty
      rw [if_neg hEmpty] at hMarks hClock
      have hLater (hAwaited : w.Awaited slot x) (time : Nat) (hMin : (w.dues x limit).min? = some time) :
          (w.advance time).now ≤ u := by
        have hTime := hClock hAwaited
        simp only [hMin] at hTime
        split at hTime
        · rw [now_turnMain] at hTime
          exact hTime
        · rw [now_wait] at hTime
          exact hTime
      have hDue (hAwaited : w.Awaited slot x) (time : Nat) (hMin : (w.dues x limit).min? = some time) : time ≤ u :=
        Nat.le_trans (now_advance w time ▸ Nat.le_max_right _ _) (hLater hAwaited time hMin)
      rw [h.min_dues_eq hx hDue]
      cases hMin : (w.dues x limit).min? with
      | none =>
        simp only [hx.dropMarks_eq, h.now_eq]
        exact ⟨trivial, .ended _ (h.drop hx)⟩
      | some time =>
        rw [hMin] at hMarks
        have hMoved := h.advance time fun hTask => hLater (.inr hTask) time hMin
        have hSame := hx.canResume_eq hMoved.now_eq hMoved.slots_eq fun hAwaits => hLater (.inl hAwaits) time hMin
        have hMovedTime : (w.advance time).InTime slot ms u := by
          obtain ⟨q, hq⟩ := w.advance_eq time
          rw [hq]
          exact hTime.idle rfl (Nat.le_max_left _ _)
        simp only [hSame] at hMarks ⊢
        split
        · rename_i hResume
          rw [if_pos hResume] at hMarks
          obtain ⟨hLook, hProgress⟩ := hMoved.look hx hMovedTime hMarks hResume fun hAwaits =>
            hLater (.inl hAwaits) time hMin
          rw [hLook]
          exact ⟨congrArg (History.stamped · _) hMoved.now_eq, hProgress⟩
        · obtain ⟨hWait, hProgress⟩ := hMoved.wait limit hx
          rw [hWait]
          exact ⟨congrArg (History.stamped · _) hMoved.now_eq, hProgress⟩

theorem attend (h : w.Twin slot ms u w') (hx : x.Retimed slot ms u Eq x') (hTime : w.InTime slot ms u)
    (hMarks : (w.attendChronicle limit x).InTime slot ms u)
    (hClock : w.Awaited slot x → (w.attend limit x).world.now ≤ u) :
    w'.attendChronicle limit x' = w.attendChronicle limit x ∧
      (w.attend limit x).Twin slot ms u (w'.attend limit x') := by
  have hNow (hAwaited : w.Awaited slot x) : w.now ≤ u := Nat.le_trans (w.grows_attend limit x).now (hClock hAwaited)
  rw [attend_eq] at hClock
  rw [attend_eq, attend_eq]
  have hRested := h.rested
  unfold attendChronicle at hMarks ⊢
  obtain ⟨q, hq⟩ := w.rested_eq
  rw [hq] at hRested hMarks hClock ⊢
  exact hRested.lookAt hx (hTime.idle rfl (Nat.le_refl _)) hMarks hNow hClock

/-- Twin worlds take the same step, and stay twins, if the wait is in time and the clock is not past `u` while
somebody waits for the slot. -/
theorem step (h : w.Twin slot ms u w') (hx : x.Retimed slot ms u Eq x') (hTime : w.InTime slot ms u)
    (hMarks : (w.stepChronicle limit x).InTime slot ms u)
    (hClock : w.Awaited slot x → (w.step limit x).world.now ≤ u) :
    w'.stepChronicle limit x' = w.stepChronicle limit x ∧ (w.step limit x).Twin slot ms u (w'.step limit x') := by
  have hNow (hAwaited : w.Awaited slot x) : w.now ≤ u := Nat.le_trans (w.grows_step limit x).now (hClock hAwaited)
  unfold stepChronicle at hMarks ⊢
  unfold World.step at hClock ⊢
  rw [h.queue_eq, h.streak_eq]
  cases hQueue : w.queue with
  | nil =>
    simp only [hQueue] at hMarks hClock ⊢
    exact h.attend hx hTime hMarks hClock
  | cons task rest =>
    simp only [hQueue] at hMarks hClock ⊢
    split
    · rename_i hStreak
      rw [if_pos hStreak] at hMarks
      have hPopped : Twin slot ms u { w with queue := rest, streak := w.streak + 1 }
          { w' with queue := rest, streak := w.streak + 1 } := by
        obtain ⟨tasks, hTasks, rfl⟩ := h
        exact ⟨tasks, hTasks, rfl⟩
      have hTask : ∀ t ∈ w.tasks, t.2.awaits slot → w.now ≤ u := fun t ht hAwaits => hNow (.inr ⟨t, ht, hAwaits⟩)
      obtain ⟨hSame, hWorld⟩ := hPopped.turnTask (hTime.idle rfl (Nat.le_refl _)) hMarks hTask
      rw [hSame]
      exact ⟨congrArg (History.stamped · _) h.now_eq, .waits hx hWorld⟩
    · rename_i hStreak
      rw [if_neg hStreak] at hMarks hClock
      exact h.attend hx hTime hMarks hClock

end Twin

end World

end TestBench
