import TestBench.Proofs.Signal.Twin

/-! # Turns in lockstep

Retimed programs that get their turns in twin worlds do the same, unless the retimed wait runs out of time:
they leave the same marks and twin worlds, and what is left of them is retimed (`Program.Retimed.lockstep`).
-/

namespace TestBench

/-- The wait for a slot does not run out of time, and if it is a wait of some time it is not over at `u`. -/
structure Chronicle.InTime (slot ms u : Nat) (l : Chronicle) : Prop where
  patient : ∀ s, (s, slot, .looked (some none)) ∉ l
  opened : ms ≠ 0 → ∀ s, (s, slot, .opened) ∈ l → u < s + min ms longestWait

theorem Chronicle.InTime.mono {slot ms u : Nat} {l l' : Chronicle} (h : l.InTime slot ms u) (hSub : l' ⊆ l) :
    l'.InTime slot ms u where
  patient s hs := h.patient s (hSub hs)
  opened hms s hs := h.opened hms s (hSub hs)

namespace World

variable {slot ms u : Nat} {w w₁ : World}

/-- If the slot is there, a wait for it that begins now is not over at `u`. -/
def InTime (slot ms u : Nat) (w : World) : Prop :=
  ms ≠ 0 → slot < w.slots.length → u < w.now + min ms longestWait

theorem InTime.idle (h : w.InTime slot ms u) (hSlots : w₁.slots.length = w.slots.length) (hNow : w.now ≤ w₁.now) :
    w₁.InTime slot ms u := by
  intro hms hSlot
  have hBefore := h hms (hSlots ▸ hSlot)
  omega

theorem slots_start (w : World) (t : Task) : (w.start t).slots = w.slots := by
  obtain ⟨q, hq⟩ := enqueue_eq
    { w with nextTask := w.nextTask + 1, tasks := w.tasks ++ [(w.nextTask, .ready t.body)] } w.nextTask
  rw [World.start, hq]

theorem length_of_collectSlot? {timeout : Option Nat} {other : Nat} {x : Option Result}
    (h : w.collectSlot? other timeout = some (x, w₁)) : w₁.slots.length = w.slots.length := by
  unfold collectSlot? at h
  split at h
  · cases h
    exact List.length_set
  · split at h
    · cases h
      exact List.length_set
    · cases h
  · cases h
    rfl

theorem opened_of_lt {a : Action} (h : slot < (w.perform a).2.slots.length) :
    slot < w.slots.length ∨ (slot, .opened) ∈ w.marks a := by
  cases a with
  | openSlot =>
    have hLength : slot < w.slots.length + 1 := by simpa [perform] using h
    rcases Nat.lt_succ_iff_lt_or_eq.mp hLength with hLt | rfl
    · exact .inl hLt
    · exact .inr List.mem_cons_self
  | settle other r =>
    left
    simp only [perform, settle] at h
    split at h
    · obtain ⟨q, hq⟩ := (w.setSlot other (.settled r)).enqueueAll_eq
        (((w.setSlot other (.settled r)).tasks.filter (·.2.awaits other)).map (·.1))
      rw [wake, hq] at h
      simpa [setSlot] using h
    · exact h
  | abandon other =>
    left
    simp only [perform, abandon] at h
    split at h
    · simpa [finish, setSlot] using h
    · simpa [finish, setSlot] using h
    · exact h
  | release holder other =>
    left
    obtain ⟨slots, queue, hLength, hEq⟩ := w.letGo_eq holder other
    rwa [perform, hEq, hLength] at h
  | _ => exact .inl h

theorem InTime.perform {a : Action} (h : w.InTime slot ms u)
    (hMarks : ((w.marks a).stamped w.now).InTime slot ms u) : (w.perform a).2.InTime slot ms u := by
  intro hms hSlot
  rw [now_perform]
  rcases opened_of_lt hSlot with hSlot | hOpened
  · exact h hms hSlot
  · exact hMarks.opened hms w.now (Chronicle.mem_stamped_iff.mpr ⟨rfl, hOpened⟩)

end World

namespace Program

variable {α : Type} {slot ms u : Nat} {R : α → α → Prop} {p p' : Async α} {w w' w₁ w₁' : World}

/-- Two programs do the same in their turns, and leave twin worlds. -/
structure Together (slot ms u : Nat) (R : α → α → Prop) (p p' : Async α) (w w' : World) : Prop where
  marks : p'.marks w' = p.marks w
  turn : (p.turn w).1.Retimed slot ms u R (p'.turn w').1
  world : (p.turn w).2.Twin slot ms u (p'.turn w').2

/-- In twin worlds two programs do the same unless the wait runs out of time. -/
def Lockstep (slot ms u : Nat) (R : α → α → Prop) (p p' : Async α) : Prop :=
  ∀ ⦃w w' : World⦄, w.Twin slot ms u w' → w.InTime slot ms u →
    ((p.marks w).stamped w.now).InTime slot ms u → p.Together slot ms u R p' w w'

theorem Lockstep.await {other : Nat} {left left' : Option Nat} {next next' : Option Result → Async α}
    {x : Option Result} (h : (next x).Lockstep slot ms u R (next' x)) (hTwin : w.Twin slot ms u w')
    (hTime : w.InTime slot ms u)
    (hMarks : (((Program.await other left next).marks w).stamped w.now).InTime slot ms u) (hBudget : w.budget ≠ 0)
    (hCollect : w.collectSlot? other left = some (x, w₁)) (hCollect' : w'.collectSlot? other left' = some (x, w₁'))
    (hAfter : w₁.Twin slot ms u w₁') :
    (Program.await other left next).Together slot ms u R (.await other left' next') w w' := by
  have hNow : w₁.now = w.now := World.now_of_collectSlot? hCollect
  have hLength : w₁.slots.length = w.slots.length := World.length_of_collectSlot? hCollect
  have hAfterTime : w₁.spend.InTime slot ms u := hTime.idle hLength (Nat.le_of_eq hNow.symm)
  have hRest : (((next x).marks w₁.spend).stamped w₁.spend.now).InTime slot ms u := by
    simp only [Program.marks, hBudget, hCollect, if_false] at hMarks
    change ((Program.marks _ _).stamped w₁.now).InTime slot ms u
    rw [hNow]
    exact hMarks.mono (List.subset_cons_self _ _)
  obtain ⟨hSame, hTurn, hWorld⟩ := h hAfter.spend hAfterTime hRest
  have hBudget' : w'.budget ≠ 0 := hTwin.budget_eq ▸ hBudget
  constructor
  case marks => simp only [Program.marks, hBudget, hBudget', hCollect, hCollect', if_false, hSame]
  case turn => simpa only [Program.turn, hBudget, hBudget', hCollect, hCollect', if_false] using hTurn
  case world => simpa only [Program.turn, hBudget, hBudget', hCollect, hCollect', if_false] using hWorld

theorem Lockstep.sleep {time : Nat} {next next' : Async α} (hRetimed : next.Retimed slot ms R next')
    (h : next.Lockstep slot ms u R next') :
    (Program.sleep time next).Lockstep slot ms u R (.sleep time next') := by
  intro w w' hTwin hTime hMarks
  have hBudget' := hTwin.budget_eq
  by_cases hBudget : w.budget = 0
  · refine ⟨?_, ?_, ?_⟩ <;> simp only [Program.marks, Program.turn, hBudget', hBudget, if_true]
    · exact .yields (.ready (.sleep hRetimed))
    · exact hTwin
  · by_cases hZero : time = 0
    · simp only [Program.marks, hBudget, hZero, if_true, if_false] at hMarks
      obtain ⟨hSame, hTurn, hWorld⟩ := h hTwin.spend hTime hMarks
      refine ⟨?_, ?_, ?_⟩ <;> simp only [Program.marks, Program.turn, hBudget', hBudget, hZero, if_true, if_false]
      · exact hSame
      · exact hTurn
      · exact hWorld
    · refine ⟨?_, ?_, ?_⟩ <;>
        simp only [Program.marks, Program.turn, hBudget', hBudget, hZero, if_false, hTwin.dueAfter_eq]
      · exact .waits (.sleeping hRetimed)
      · exact hTwin

theorem Lockstep.act {a : Action} {next next' : a.Answer → Async α}
    (h : ∀ x, (next x).Lockstep slot ms u R (next' x)) :
    (Program.act a next).Lockstep slot ms u R (.act a next') := by
  intro w w' hTwin hTime hMarks
  obtain ⟨hAnswer, hDone⟩ := hTwin.perform a
  simp only [Program.marks, History.stamped_append] at hMarks
  have hFirst := hMarks.mono (List.subset_append_left _ _)
  have hRest := hMarks.mono (List.subset_append_right _ _)
  obtain ⟨hSame, hTurn, hWorld⟩ := h (w.perform a).1 hDone (hTime.perform hFirst) (by rwa [World.now_perform])
  constructor
  case marks => simp only [Program.marks, hAnswer, hSame, hTwin.marks_eq a]
  case turn => simpa only [Program.turn, hAnswer] using hTurn
  case world => simpa only [Program.turn, hAnswer] using hWorld

theorem Retimed.together_wait {later : Option Nat} {next next' : Option Result → Async α}
    (hLater : ∀ l ∈ later, ms ≤ l) (hNext : ∀ r, (next (some r)).Retimed slot ms R (next' (some r)))
    (hTwin : w.Twin slot ms u w') (hTime : w.InTime slot ms u)
    (hMarks : (((Program.await slot (some ms) next).marks w).stamped w.now).InTime slot ms u)
    (hBudget : w.budget ≠ 0) (hVacant : w.slots[slot]? = some .vacant) :
    (Program.await slot (some ms) next).Together slot ms u R (.await slot later next') w w' := by
  have hms : ms ≠ 0 := by
    rintro rfl
    have hExpires : w.collectSlot? slot (some 0) = some (none, w.expire slot) := by
      simp only [World.collectSlot?, hVacant, if_true]
    simp only [Program.marks, hBudget, hExpires, if_false] at hMarks
    exact hMarks.patient w.now List.mem_cons_self
  have hLaterPos : later ≠ some 0 := fun hZero => hms (Nat.le_zero.mp (hLater 0 hZero))
  have hNone : w.collectSlot? slot (some ms) = none := by
    simp [World.collectSlot?, hVacant, hms]
  have hNone' : w'.collectSlot? slot later = none := by
    simp [World.collectSlot?, hTwin.slots_eq, hVacant, hLaterPos]
  have hDue : u < w.dueAfter ms := hTime hms (List.getElem?_eq_some_iff.mp hVacant).1
  refine ⟨?_, ?_, ?_⟩ <;>
    simp only [Program.marks, Program.turn, hTwin.budget_eq, hBudget, hNone, hNone', if_false, hTwin.dueAfter_eq]
  · refine .waits (.pending hDue (fun d hd => ?_) hNext)
    obtain ⟨l, hl, rfl⟩ := Option.map_eq_some_iff.mp hd
    have hLe := hLater l hl
    unfold World.dueAfter at hDue ⊢
    omega
  · exact hTwin

theorem Retimed.lockstep (h : p.Retimed slot ms R p') : p.Lockstep slot ms u R p' := by
  induction h with
  | sleep h ih => exact .sleep h ih
  | act h ih => exact .act ih
  | pure h => exact fun w w' hTwin _ _ => ⟨rfl, .finished h, hTwin⟩
  | panic q => exact fun w w' hTwin _ _ => ⟨rfl, .panicked q, hTwin⟩
  | yield h _ => exact fun w w' hTwin _ _ => ⟨rfl, .yields (.ready h), hTwin⟩
  | @fork _ _ task task' next next' hTask _ _ ih =>
    intro w w' hTwin hTime hMarks
    have hStarted : (w.start task).InTime slot ms u :=
      hTime.idle (by rw [World.slots_start]) (by rw [World.now_start])
    obtain ⟨hSame, hTurn, hWorld⟩ := ih (hTwin.start hTask) hStarted (by rwa [World.now_start])
    exact ⟨hSame, hTurn, hWorld⟩
  | @report _ _ r next next' _ ih =>
    intro w w' hTwin hTime hMarks
    have hReported := hTwin.setReports (congrArg (· ++ [r]) hTwin.reports_eq)
    obtain ⟨hSame, hTurn, hWorld⟩ := ih hReported hTime hMarks
    exact ⟨hSame, hTurn, hWorld⟩
  | @notice _ _ n next next' _ ih =>
    rintro w _ ⟨tasks, hTasks, rfl⟩ hTime hMarks
    have hTwin : World.Twin slot ms u { w with events := w.events ++ [n] }
      { w with tasks, events := w.events ++ [n] } := ⟨tasks, hTasks, rfl⟩
    obtain ⟨hSame, hTurn, hWorld⟩ := ih hTwin hTime hMarks
    exact ⟨hSame, hTurn, hWorld⟩
  | @await _ _ other timeout next next' h ih =>
    intro w w' hTwin hTime hMarks
    have hBudget' := hTwin.budget_eq
    by_cases hBudget : w.budget = 0
    · refine ⟨?_, ?_, ?_⟩ <;> simp only [Program.marks, Program.turn, hBudget', hBudget, if_true]
      · exact .yields (.postponed h)
      · exact hTwin
    · obtain ⟨hNone, hNone'⟩ | ⟨x, w₁, w₁', hCollect, hCollect', hAfter⟩ := hTwin.collect other timeout
      · refine ⟨?_, ?_, ?_⟩ <;>
          simp only [Program.marks, Program.turn, hBudget', hBudget, hNone, hNone', if_false, hTwin.dueAfter_eq]
        · exact .waits (.awaiting h)
        · exact hTwin
      · exact (ih x).await hTwin hTime hMarks hBudget hCollect hCollect' hAfter
  | @wait _ _ later next next' hLater h ih =>
    intro w w' hTwin hTime hMarks
    have hBudget' := hTwin.budget_eq
    by_cases hBudget : w.budget = 0
    · refine ⟨?_, ?_, ?_⟩ <;> simp only [Program.marks, Program.turn, hBudget', hBudget, if_true]
      · exact .yields (.delayed hLater h)
      · exact hTwin
    · by_cases hVacant : w.slots[slot]? = some .vacant
      · exact together_wait hLater h hTwin hTime hMarks hBudget hVacant
      · obtain ⟨r, w₁, w₁', hCollect, hCollect', hAfter⟩ := hTwin.collect_of_ne_vacant hVacant
        exact (ih r).await hTwin hTime hMarks hBudget (hCollect _) (hCollect' _) hAfter

end Program

theorem Waiting.Retimed.together {α : Type} {slot ms u : Nat} {R : α → α → Prop} {x x' : Waiting α} {w w' : World}
    (h : x.Retimed slot ms u R x') (hTwin : w.Twin slot ms u w') (hTime : w.InTime slot ms u)
    (hMarks : (((x.resume w.now).marks w).stamped w.now).InTime slot ms u) (hBudget : w.budget ≠ 0)
    (hResume : w.canResume x) (hNow : x.awaits slot → w.now ≤ u) :
    (x.resume w.now).Together slot ms u R (x'.resume w'.now) w w' := by
  rw [hTwin.now_eq]
  cases h with
  | ready h => exact h.lockstep hTwin hTime hMarks
  | sleeping h => exact (Program.Retimed.sleep h).lockstep hTwin hTime hMarks
  | awaiting h => exact (Program.Retimed.await h).lockstep hTwin hTime hMarks
  | postponed h => exact (Program.Retimed.await h).lockstep hTwin hTime hMarks
  | delayed hLater h => exact (Program.Retimed.wait hLater h).lockstep hTwin hTime hMarks
  | @pending due later next next' hDue hLater h =>
    -- the time of the wait is not over, so it goes on because of its slot
    have hNow := hNow (beq_self_eq_true slot)
    have hNotDue : ¬ due ≤ w.now := by omega
    have hSlot : w.slots[slot]? ≠ some .vacant := by
      simpa [World.canResume, Waiting.isDue, Waiting.due?, hNotDue] using hResume
    obtain ⟨r, w₁, w₁', hCollect, hCollect', hAfter⟩ := hTwin.collect_of_ne_vacant hSlot
    exact (h r).lockstep.await hTwin hTime hMarks hBudget (hCollect _) (hCollect' _) hAfter

end TestBench
