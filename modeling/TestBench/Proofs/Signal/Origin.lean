import TestBench.Proofs.Signal.Lasting
import TestBench.Proofs.Signal.Timing
import TestBench.Proofs.Signal.Detached

/-! # Where signals come from

A signal is given by a program in its turn: it calls back, or it is the task for the work of a callee and the
work has returned a failure or panicked (`Gives`). That callbacks are dropped, that programs which keep them
end or are given up and that work succeeds gives none. A slot that nothing refers to is closed, and a wait for it
ends in an unknown failure (`World.letGo_last`), but a call holds its own slot for as long as it waits. So it
waits until the time it was given is over (`until_needs_signal`).
-/

namespace TestBench

open Chronicle Async

/-! ## The last reference -/

/-- What happens when the last reference to a vacant slot is let go: it is closed, who waits for it is woken,
and a wait for it comes to an unknown failure. -/
theorem World.letGo_last {w : World} {slot : Nat} {holder : Holder} (hVacant : w.slots[slot]? = some .vacant)
    (hLast : ∀ other, (other, slot) ∉ w.holds.erase (holder, slot)) :
    (w.letGo holder slot).slots[slot]? = some .closed ∧
      (∀ t ∈ w.tasks, t.2.awaits slot → t.1 ∈ (w.letGo holder slot).queue) ∧
      ∀ timeout, (w.letGo holder slot).collectSlot? slot timeout =
        some (some (.error .unknown), w.letGo holder slot) := by
  let left : World := { w with holds := w.holds.erase (holder, slot) }
  have hUnheld : left.isHeld slot = false := by
    refine List.any_eq_false.mpr fun r hr hSlot => ?_
    obtain rfl : r.2 = slot := beq_iff_eq.mp hSlot
    exact hLast r.1 hr
  have hStill : left.slots[slot]? = some .vacant := hVacant
  obtain ⟨q, hq, hMem⟩ := (left.setSlot slot .closed).enqueueAll_spec
    (((left.setSlot slot .closed).tasks.filter (·.2.awaits slot)).map (·.1))
  have hClosed : w.letGo holder slot = { left.setSlot slot .closed with queue := q } := by
    rw [← hq]
    change (if left.isHeld slot then left else left.close slot) = _
    rw [hUnheld, if_neg Bool.false_ne_true, World.close, hStill]
    rfl
  have hSelf : (left.setSlot slot .closed).slots[slot]? = some .closed := World.getElem?_setSlot_self hStill
  rw [hClosed]
  refine ⟨hSelf, fun t ht hAwaits => (hMem t.1).mpr (.inr ?_), fun timeout => ?_⟩
  · exact List.mem_map.mpr ⟨t, List.mem_filter.mpr ⟨ht, hAwaits⟩, rfl⟩
  · simp only [World.collectSlot?, hSelf]

/-- A call that lets go of its slot before it waits. The work of its callee ends, and the wait with it. -/
example :
    let hasty : Async Result := .act .openSlot fun slot =>
      (spawnHolding slot (runWork slot (.pure (.ok ())))).bind fun _ =>
        .act (.release .call slot) fun _ => .await slot none (answered none)
    (World.run 2 none hasty {}).1 = .finished (.error .unknown) := by rfl

/-! ## Marks and turns -/

theorem Program.exists_comes_settle {α : Type} {p : Async α} {w : World} {slot : Nat} {r : Result} {a : Bool}
    (h : (slot, .signalled r a) ∈ p.marks w) :
    ∃ h next w', p.Comes w h (.act (.settle slot r) next) w' ∧ a = (w'.settle slot r).1 := by
  induction p generalizing w with
  | pure | panic | yield => cases h
  | fork task next ih =>
    obtain ⟨h', next', w', hComes, ha⟩ := ih h
    exact ⟨h', next', w', .fork hComes, ha⟩
  | report r next ih =>
    obtain ⟨h', next', w', hComes, ha⟩ := ih h
    exact ⟨h', next', w', .report hComes, ha⟩
  | notice e next ih =>
    obtain ⟨h', next', w', hComes, ha⟩ := ih h
    exact ⟨h', next', w', .notice hComes, ha⟩
  | act action next ih =>
    rcases List.mem_append.mp h with hNow | hLater
    · cases action with
      | settle slot' r' =>
        cases List.mem_singleton.mp hNow
        exact ⟨[], next, w, .here _ _, rfl⟩
      | _ => simp [World.marks] at hNow
    · obtain ⟨h', next', w', hComes, ha⟩ := ih _ hLater
      exact ⟨_, next', w', .act hComes, ha⟩
  | sleep ms next ih =>
    simp only [marks] at h
    split at h
    · cases h
    · split at h
      · rename_i hBudget hms
        obtain ⟨h', next', w', hComes, ha⟩ := ih h
        exact ⟨h', next', w', hms ▸ .sleep hBudget hComes, ha⟩
      · cases h
  | await slot' timeout next ih =>
    simp only [marks] at h
    split at h
    · cases h
    · rename_i hBudget
      cases hCollect : w.collectSlot? slot' timeout with
      | none => simp [hCollect] at h
      | some found =>
        simp only [hCollect, List.mem_cons, Prod.mk.injEq, reduceCtorEq, and_false, false_or] at h
        obtain ⟨h', next', w', hComes, ha⟩ := ih _ h
        exact ⟨_, next', w', .await hBudget hCollect hComes, ha⟩

namespace Scene

variable {c c₁ c₂ c' : Scene} {h : History} {l : Chronicle} {own : Option Nat → Set Nat} {slot u task : Nat}
  {r : Result} {a : Bool}

theorem Move.turns_of_signalled (hMove : c.Move h c') (hMem : (slot, .signalled r a) ∈ h) :
    ∃ (α : Type) (k : Option Nat) (p : Async α) (w : World), c.Turns k p w c' ∧ h = p.marks w := by
  have hDrop {α : Type} {x : Waiting α} : (slot, .signalled r a) ∉ x.dropMarks := by
    cases x <;> simp [Waiting.dropMarks]
  cases hMove with
  | start _ w => cases hMem
  | turnMain x w => exact ⟨_, _, _, _, .main x w, rfl⟩
  | dropMain x w => exact absurd hMem hDrop
  | turnTask hTask => exact ⟨_, _, _, _, .task hTask, rfl⟩
  | dropTask _ => exact absurd hMem hDrop
  | lose _ _ => cases hMem
  | pass _ _ _ _ => cases hMem

theorem Runs.exists_turn (hRuns : c.Runs l c') (hMem : (u, slot, .signalled r a) ∈ l) :
    ∃ (l₁ l₂ : Chronicle) (c₁ c₂ : Scene) (α : Type) (k : Option Nat) (p : Async α) (w : World),
      c.Runs l₁ c₁ ∧ c₁.Turns k p w c₂ ∧ c₂.Runs l₂ c' ∧ l = l₁ ++ (p.marks w).stamped u ++ l₂ ∧
        u = w.now ∧ (slot, .signalled r a) ∈ p.marks w := by
  induction hRuns with
  | refl => cases hMem
  | @step c c₁ c' h l hMove hPaced hRest ih =>
    rcases List.mem_append.mp hMem with hNow | hLater
    · obtain ⟨rfl, hMark⟩ := mem_stamped_iff.mp hNow
      obtain ⟨α, k, p, w, hTurn, rfl⟩ := hMove.turns_of_signalled hMark
      exact ⟨[], l, c, c₁, α, k, p, w, .refl c, hTurn, hRest, rfl, hTurn.now_eq.1.symm, hMark⟩
    · obtain ⟨l₁, l₂, c₂, c₃, α, k, p, w, hFirst, hTurn, hLast, rfl, hu, hMem⟩ := ih hLater
      refine ⟨h.stamped c.world.now ++ l₁, l₂, c₂, c₃, α, k, p, w, .step hMove hPaced hFirst, hTurn, hLast, ?_,
        hu, hMem⟩
      simp only [List.append_assoc]

theorem Runs.time_le (hRuns : c.Runs l c') {e : Nat × Nat × Mark} (he : e ∈ l) : e.1 ≤ c'.world.now := by
  induction hRuns with
  | refl => cases he
  | @step c c₁ c' h l hMove hPaced hRest ih =>
    rcases List.mem_append.mp he with he | he
    · have hTime : e.1 = c.world.now := (mem_stamped_iff.mp he).1
      exact hTime ▸ (Runs.step hMove hPaced hRest).now_le
    · exact ih he

theorem Move.whence (hMove : c.Move h c') (hSound : c.Sound own) {t : Nat × Waiting Unit}
    (ht : t ∈ c'.world.tasks) :
    t ∈ c.world.tasks ∨ c.world.nextTask ≤ t.1 ∨
      ∃ x w, (t.1, x) ∈ c.world.tasks ∧ ((x.resume w.now).turn w).1.rest = some t.2 := by
  have hPassed {own own' : Set Nat} {h : History} {w w' : World} (hPasses : w.Passes own h w' own')
      (ht : t ∈ w'.tasks) : t ∈ w.tasks ∨ w.nextTask ≤ t.1 := by
    obtain ⟨new, hTasks, hNew⟩ := hPasses.tasks
    rw [hTasks] at ht
    exact (List.mem_append.mp ht).imp id fun ht => (hNew t ht).1
  cases hMove with
  | start _ w => exact .inl ht
  | @turnMain α x w =>
    obtain ⟨own', hPasses, -⟩ := (hSound.main ⟨α, x⟩ rfl w.now).turnPasses (hSound.holds none)
    exact (hPassed hPasses ht).imp id .inl
  | @dropMain α x w =>
    obtain ⟨own', hPasses⟩ := World.passes_drop (hSound.main ⟨α, x⟩ rfl) (hSound.holds none)
    exact (hPassed hPasses ht).imp id .inl
  | @turnTask main w task x hTask =>
    have hHolds : (w.without task).Holds (own (some task)) := hSound.holds (some task)
    obtain ⟨own', hPasses, -⟩ := ((hSound.tasks (task, x) hTask).2 w.now).turnPasses hHolds
    have hTasks := (World.settleTask_eq ((x.resume w.now).turn (w.without task)).2 task
      ((x.resume w.now).turn (w.without task)).1).2.2.2
    rw [hTasks] at ht
    rcases List.mem_append.mp ht with ht | ht
    · exact (hPassed hPasses ht).imp (fun ht => (mem_without ht).1) .inl
    · obtain ⟨x', hRest, rfl⟩ := List.mem_map.mp ht
      exact .inr (.inr ⟨x, w.without task, hTask, Option.mem_toList.mp hRest⟩)
  | @dropTask main w task x hTask =>
    have hHolds : (w.without task).Holds (own (some task)) := hSound.holds (some task)
    obtain ⟨own', hPasses⟩ := World.passes_drop (hSound.tasks (task, x) hTask).2 hHolds
    exact (hPassed hPasses ht).imp (fun ht => (mem_without ht).1) .inl
  | lose w slot =>
    have hPasses : w.Passes ∅ [] (w.letGo .callback slot) ∅ := World.passes_release
    exact (hPassed hPasses ht).imp id .inl
  | pass _ _ hTasks _ => exact .inl (hTasks ▸ ht)

end Scene

/-! ## The task for the work of a callee -/

def Async.LeftOf (work : Async Result) (y : Waiting Result) : Prop :=
  ∃ ws, (Waiting.ready work.muted).after ws = some y

/-- If the task is there then it does the work, and what is to be done when the work is over. -/
def Scene.DoesWork (c : Scene) (slot task : Nat) (work : Async Result) : Prop :=
  ∀ x, (task, x) ∈ c.world.tasks → ∃ y, work.LeftOf y ∧ x = y.andThen (afterWork slot)

namespace Scene

variable {c c' : Scene} {h : History} {l : Chronicle} {own : Option Nat → Set Nat} {slot task : Nat}
  {work : Async Result}

theorem DoesWork.move (hWork : c.DoesWork slot task work) (hMove : c.Move h c') (hSound : c.Sound own)
    (hLt : task < c.world.nextTask) : c'.DoesWork slot task work := by
  intro x hx
  obtain hSame | hNew | ⟨x₀, w, hTask, hRest⟩ := hMove.whence hSound hx
  · exact hWork x hSame
  · exact absurd hLt (Nat.not_lt.mpr hNew)
  · obtain ⟨y, ⟨ws, hLeft⟩, rfl⟩ := hWork x₀ hTask
    have hAfter : (y.andThen (afterWork slot)).after [w] = some x := by
      simpa [Waiting.after] using hRest
    rw [Waiting.after_andThen (rest_afterWork slot)] at hAfter
    obtain ⟨y', hTurn, rfl⟩ := Option.map_eq_some_iff.mp hAfter
    exact ⟨y', ⟨ws ++ [w], by rw [Waiting.after_append, hLeft]; exact hTurn⟩, rfl⟩

theorem DoesWork.reaches (hWork : c.DoesWork slot task work) (hReaches : c.Reaches h c') (hSound : c.Sound own)
    (hLt : task < c.world.nextTask) : c'.DoesWork slot task work := by
  induction hReaches generalizing own with
  | refl => exact hWork
  | step hMove _ ih =>
    obtain ⟨⟨own₁, hSound₁⟩, -⟩ := hMove.sound hSound
    exact ih (hWork.move hMove hSound hLt) hSound₁ (Nat.lt_of_lt_of_le hLt (hMove.nextTask_le hSound))

/-- The tasks after a turn are those that it left in its world, and perhaps the task that had it. -/
theorem Turns.tasks_eq {α : Type} {k : Option Nat} {p : Async α} {w : World} (hTurn : c.Turns k p w c') :
    c'.world.nextTask = (p.turn w).2.nextTask ∧
      ∀ t ∈ c'.world.tasks, t ∈ (p.turn w).2.tasks ∨ k = some t.1 := by
  cases hTurn with
  | main x w => exact ⟨rfl, fun t ht => .inl ht⟩
  | @task main w task x hTask =>
    obtain ⟨-, -, hNext, hTasks⟩ := World.settleTask_eq ((x.resume w.now).turn (w.without task)).2 task
      ((x.resume w.now).turn (w.without task)).1
    refine ⟨hNext, fun t ht => ?_⟩
    rw [hTasks] at ht
    refine (List.mem_append.mp ht).imp id fun ht => ?_
    obtain ⟨_, -, rfl⟩ := List.mem_map.mp ht
    rfl

theorem Turns.doesWork {α : Type} {k : Option Nat} {p next : Async α} {w w' : World}
    (hTurn : c.Turns k p w c') (hSound : c.Sound own)
    (hFork : p.Comes w h (.fork (workTask slot work) next) w') :
    c'.DoesWork slot w'.nextTask work ∧ w'.nextTask < c'.world.nextTask ∧
      c.world.nextTask ≤ w'.nextTask := by
  obtain ⟨own', hPasses, hKeeps⟩ := hFork.passes (hTurn.keepsTo hSound) (hTurn.holds hSound)
  have hSame : w.nextTask = c.world.nextTask ∧ ∀ t ∈ w.tasks, t ∈ c.world.tasks := by
    cases hTurn with
    | main x w => exact ⟨rfl, fun t ht => ht⟩
    | task hTask => exact ⟨rfl, fun t ht => (mem_without ht).1⟩
  have hLe : c.world.nextTask ≤ w'.nextTask := hSame.1 ▸ hPasses.nextTask
  cases hKeeps with
  | fork hTask hNext =>
    have hStart : w'.Passes own' [] (w'.start (workTask slot work)) own' := World.passes_start hTask
    have hHolds := hStart.holds_own (hPasses.holds_own (hTurn.holds hSound))
    obtain ⟨own₂, hRest, -⟩ := hNext.turnPasses hHolds
    obtain ⟨new, hTasks, hNew⟩ := hPasses.tasks
    obtain ⟨new', hTasks', hNew'⟩ := hRest.tasks
    obtain ⟨q, hq⟩ := w'.start_eq (workTask slot work)
    rw [hq] at hTasks' hNew' hRest
    obtain ⟨hNumber, hOrigin⟩ := hTurn.tasks_eq
    rw [hFork.turn_eq, Program.turn, hq] at hNumber hOrigin
    have hLater : w'.nextTask + 1 ≤ c'.world.nextTask := hNumber ▸ hRest.nextTask
    refine ⟨fun x hx => ?_, hLater, hLe⟩
    have hFresh {t : Nat × Waiting Unit} (ht : t ∈ w'.tasks) : t.1 < w'.nextTask := by
      rw [hTasks] at ht
      rcases List.mem_append.mp ht with ht | ht
      · exact Nat.lt_of_lt_of_le (hSound.tasks t (hSame.2 t ht)).1 hLe
      · exact (hNew t ht).2.1
    obtain hThere | rfl := hOrigin _ hx
    · rw [hTasks', List.append_assoc] at hThere
      rcases List.mem_append.mp hThere with hOld | hThere
      · exact absurd (hFresh hOld) (Nat.lt_irrefl _)
      · rcases List.mem_append.mp hThere with hThis | hLast
        · cases List.mem_singleton.mp hThis
          exact ⟨.ready work.muted, ⟨[], rfl⟩, ready_workTask slot work⟩
        · have hGe : w'.nextTask + 1 ≤ w'.nextTask := (hNew' _ hLast).1
          omega
    · cases hTurn with
      | task hTask =>
        have hLt := (hSound.tasks _ hTask).1
        omega

end Scene

/-! ## Who gives a signal -/

/-- In its turn a program gives a result to a slot. Any program may call back. The task with the number of the
work of the callee may also be over with the work, and then hands on its failure or the text of its panic. -/
inductive Gives (slot number : Nat) (work : Async Result) :
    {α : Type} → Option Nat → Async α → World → Result → Prop
  | callback {α : Type} {k : Option Nat} {p : Async α} {next : Bool → Async α} {w w' : World} {h : History}
      {r : Result} (hOther : k ≠ some number) (hComes : p.Comes w h (.act (.settle slot r) next) w') :
      Gives slot number work k p w r
  | inWork {y : Waiting Result} {next : Bool → Async Result} {w w' : World} {h : History} {r : Result}
      (hLeft : work.LeftOf y) (hComes : (y.resume w.now).Comes w h (.act (.settle slot r) next) w') :
      Gives slot number work (some number) ((y.andThen (afterWork slot)).resume w.now) w r
  | returned {y : Waiting Result} {w w' : World} {f : Failure} (hLeft : work.LeftOf y)
      (hEnds : (y.resume w.now).turn w = (.finished (.error f), w')) :
      Gives slot number work (some number) ((y.andThen (afterWork slot)).resume w.now) w (.error f)
  | panicked {y : Waiting Result} {w w' : World} {q : Payload} (hLeft : work.LeftOf y)
      (hEnds : (y.resume w.now).turn w = (.panicked q, w')) :
      Gives slot number work (some number) ((y.andThen (afterWork slot)).resume w.now) w
        (.error (.ofPayload q))

theorem gives_of_work {slot number : Nat} {work : Async Result} {y : Waiting Result} {w : World} {r : Result}
    {a : Bool} (hLeft : work.LeftOf y)
    (hMem : (slot, .signalled r a) ∈ ((y.andThen (afterWork slot)).resume w.now).marks w) :
    Gives slot number work (some number) ((y.andThen (afterWork slot)).resume w.now) w r := by
  have hMarks := hMem
  rw [World.resume_andThen, Program.marks_andThen] at hMarks
  rcases List.mem_append.mp hMarks with hWork | hAfter
  · obtain ⟨h, next, w', hComes, -⟩ := Program.exists_comes_settle hWork
    exact .inWork hLeft hComes
  · rcases hTurn : (y.resume w.now).turn w with ⟨t, w'⟩
    rw [hTurn] at hAfter
    cases t with
    | finished e =>
      obtain f | ⟨⟩ := e
      · have hGiven : r = .error f ∧ a = (w'.settle slot (.error f)).1 := by
          simpa [afterWork, Program.marks, World.marks] using hAfter
        exact hGiven.1 ▸ .returned hLeft hTurn
      · simp [afterWork, Program.marks, World.marks] at hAfter
    | panicked q =>
      have hGiven : r = .error (.ofPayload q) ∧ a = (w'.settle slot (.error (.ofPayload q))).1 := by
        simpa [afterWork, Program.marks, World.marks] using hAfter
      exact hGiven.1 ▸ .panicked hLeft hTurn
    | waits _ => cases hAfter
    | yields _ => cases hAfter

theorem Scene.Turns.work {c c' : Scene} {p : Async Unit} {w : World} {slot number : Nat} {work : Async Result}
    (hTurn : c.Turns (some number) p w c') (hWork : c.DoesWork slot number work) :
    ∃ y, work.LeftOf y ∧ p = (y.resume w.now).attempt.bind (afterWork slot) := by
  generalize hNumber : some number = k at hTurn
  cases hTurn with
  | main x w => cases hNumber
  | @task main w number x hTask =>
    cases hNumber
    obtain ⟨y, hLeft, rfl⟩ := hWork x hTask
    exact ⟨y, hLeft, World.resume_andThen w.now y⟩

theorem Scene.Turns.gives {α : Type} {c c' : Scene} {k : Option Nat} {p : Async α} {w : World}
    {slot number : Nat} {work : Async Result} {r : Result} {a : Bool} (hTurn : c.Turns k p w c')
    (hWork : c.DoesWork slot number work) (hMem : (slot, .signalled r a) ∈ p.marks w) :
    Gives slot number work k p w r := by
  by_cases hOther : k = some number
  · subst hOther
    cases hTurn with
    | @task main w number x hTask =>
      obtain ⟨y, hLeft, rfl⟩ := hWork x hTask
      exact gives_of_work (w := w.without number) hLeft hMem
  · obtain ⟨h, next, w', hComes, -⟩ := Program.exists_comes_settle hMem
    exact .callback hOther hComes

/-- On the way to a scene a program gave a result to the slot, and that left these marks. -/
def Scene.Given (c : Scene) (slot number : Nat) (work : Async Result) (l : Chronicle) (u : Nat) (r : Result) :
    Prop :=
  ∃ (l₁ l₂ : Chronicle) (c₁ c₂ : Scene) (α : Type) (k : Option Nat) (p : Async α) (w : World),
    Runs ⟨none, {}⟩ l₁ c₁ ∧ c₁.Turns k p w c₂ ∧ c₂.Runs l₂ c ∧ l = l₁ ++ (p.marks w).stamped u ++ l₂ ∧
      u = w.now ∧ Gives slot number work k p w r

/-! ## The law -/

/-- What a call waits for, whoever keeps its callbacks and whatever becomes of them. While no signal was accepted
and its time is not over, and as long as it is not given up, it waits. Until it is over it holds its slot, which is
vacant or has a result; if it let go of it with no callback left, its wait would end in an unknown failure. But no
slot is ever closed, and a program that looks at one holds it and finds it vacant or with a result. Each signal was
given by somebody, and a failure that the call returns is one that was given at that instant. -/
structure Call.NeedsSignal {α : Type} (call : Call α) (number : Nat) (work : Async Result) (l : Chronicle)
    (c : Scene) : Prop where
  waits : (∀ u r, (u, call.slot, .signalled r true) ∉ l) → (∀ u, (u, call.slot, .dropped) ∉ l) →
    (∀ d ∈ call.due, c.world.now < d) → ¬ l.IsOver call.slot ∧
      ∃ x : Waiting α, c.Has call.caller ⟨α, x⟩ ∧ x.WaitsFor call.slot call.due call.next c.world.now
  held : ¬ l.IsOver call.slot → Slot.IsOpen c.world.slots[call.slot]? ∧ (.call, call.slot) ∈ c.world.holds
  needed : ¬ l.IsOver call.slot → (∀ u r, (u, call.slot, .signalled r true) ∉ l) →
    (∀ holder, (holder, call.slot) ∉ c.world.holds.erase (.call, call.slot)) → ∀ left,
      (c.world.letGo .call call.slot).collectSlot? call.slot left =
        some (some (.error .unknown), c.world.letGo .call call.slot)
  neverClosed : ∀ slot : Nat, c.world.slots[slot]? ≠ some Slot.closed
  looks : ∀ (l' : Chronicle) (c' c'' : Scene) (β : Type) (k : Option Nat) (p : Async β) (v w : World)
    (h : History) (slot : Nat) (left : Option Nat) (next : Option Result → Async β),
    Scene.Runs ⟨none, {}⟩ l' c' → c'.Turns k p v c'' → p.Comes v h (.await slot left next) w →
      (w.slots[slot]? = some .vacant ∨ ∃ r, w.slots[slot]? = some (.settled r)) ∧ (.call, slot) ∈ w.holds
  given : ∀ u r a, (u, call.slot, .signalled r a) ∈ l → c.Given call.slot number work l u r
  failed : ∀ u f, (u, call.slot, .looked (some (some (.error f)))) ∈ l →
    (u, call.slot, .signalled (.error f) true) ∈ l ∧ c.Given call.slot number work l u (.error f)

theorem Scene.Runs.held_of_await {l : Chronicle} {c c' : Scene} {α : Type} {k : Option Nat} {p : Async α}
    {v w : World} {h : History} {slot : Nat} {left : Option Nat} {next : Option Result → Async α}
    (hRuns : Runs ⟨none, {}⟩ l c) (hTurn : c.Turns k p v c') (hComes : p.Comes v h (.await slot left next) w) :
    Slot.IsOpen w.slots[slot]? ∧ (.call, slot) ∈ w.holds := by
  obtain ⟨⟨own, hSound⟩, -⟩ := hRuns.reaches.sound sound_init
  obtain ⟨own', hPasses, hKeeps⟩ := hComes.passes (hTurn.keepsTo hSound) (hTurn.holds hSound)
  exact (hPasses.holds_own (hTurn.holds hSound)).of_await hKeeps

theorem Scene.Sound.doesWork {c : Scene} {own : Option Nat → Set Nat} {number : Nat} (hSound : c.Sound own)
    (hLe : c.world.nextTask ≤ number) (slot : Nat) (work : Async Result) : c.DoesWork slot number work :=
  fun _ hx => absurd (hSound.tasks _ hx).1 (Nat.not_lt.mpr hLe)

theorem Call.Made.runs {α : Type} {call : Call α} {l : Chronicle} {c : Scene} (hMade : call.Made l c) :
    Scene.Runs ⟨none, {}⟩ l c := by
  obtain ⟨hBefore, hTurn, -, -, -, hAfter⟩ := hMade
  exact (hBefore.trans hTurn.runs).trans hAfter

namespace Call.Made

variable {α : Type} {call : Call α} {l : Chronicle} {c : Scene} (hMade : call.Made l c)

include hMade

/-- Nothing but a signal, the end of the time or a drop ends a wait. -/
theorem waits (hNone : ∀ u r, (u, call.slot, .signalled r true) ∉ l) (hKept : ∀ u, (u, call.slot, .dropped) ∉ l)
    (hEarly : ∀ d ∈ call.due, c.world.now < d) : ¬ l.IsOver call.slot ∧
      ∃ x : Waiting α, c.Has call.caller ⟨α, x⟩ ∧ x.WaitsFor call.slot call.due call.next c.world.now := by
  obtain ⟨⟨own, hSound⟩, hLives, -, hPends | hSettles⟩ := hMade.course
  · exact ⟨hPends.not_isOver hSound hLives, hPends.waits⟩
  · obtain ⟨u, m, hMem, hEnd⟩ := hSettles.ended
    cases hEnd with
    | dropped => exact absurd hMem (hKept u)
    | looked y =>
      cases y with
      | some r => exact absurd (hSettles.returned u r hMem) (hNone u r)
      | none =>
        have hTime : u ≤ c.world.now := hMade.runs.time_le hMem
        have hLate := hEarly u (hSettles.expired u hMem).1
        omega

theorem held (hNotOver : ¬ l.IsOver call.slot) :
    Slot.IsOpen c.world.slots[call.slot]? ∧ (.call, call.slot) ∈ c.world.holds := by
  obtain ⟨⟨own, hSound⟩, -, -, hPends | hSettles⟩ := hMade.course
  · obtain ⟨x, hHas, hWaits⟩ := hPends.waits
    exact hSound.held hHas hWaits.expects
  · exact absurd hSettles.ended hNotOver

theorem vacant (hNotOver : ¬ l.IsOver call.slot) (hNone : ∀ u r, (u, call.slot, .signalled r true) ∉ l) :
    c.world.slots[call.slot]? = some .vacant := by
  refine (hMade.held hNotOver).1.resolve_right ?_
  rintro ⟨r, hSettled⟩
  obtain ⟨-, hLives, -, -⟩ := hMade.course
  rw [hSettled] at hLives
  obtain ⟨u, hMem⟩ := mem_on_history_iff.mp hLives.tells.1
  exact hNone u r hMem

end Call.Made

theorem Scene.Given.of_runs {c₀ c₁ c : Scene} {l₀ l l₁ : Chronicle} {slot number u : Nat} {work : Async Result}
    {r : Result} {a : Bool} (hBefore : Runs ⟨none, {}⟩ l₀ c₀) (hRuns : c₀.Runs l c₁) (hAfter : c₁.Runs l₁ c)
    (hWork : ∀ m m' d, c₀.Runs m d → d.Runs m' c₁ → d.DoesWork slot number work)
    (hMem : (u, slot, .signalled r a) ∈ l) : c.Given slot number work (l₀ ++ l ++ l₁) u r := by
  obtain ⟨m, m', d, d', α, k, p, w, hFirst, hTurn, hLast, rfl, hu, hMark⟩ := hRuns.exists_turn hMem
  have hGives := hTurn.gives (hWork m _ d hFirst (hTurn.runs.trans hLast)) hMark
  refine ⟨l₀ ++ m, m' ++ l₁, d, d', α, k, p, w, hBefore.trans hFirst, hTurn, hLast.trans hAfter, ?_, hu, hGives⟩
  simp only [List.append_assoc]

section

variable {α : Type} {call : Call α} {l₁ l₂ : Chronicle} {c₁ c₂ c : Scene} {func : Nat → Async (Async Result)}
  {work : Async Result} {h : History} {w w₁ : World}

theorem Call.given_of_signalled (hBefore : Scene.Runs ⟨none, {}⟩ l₁ c₁)
    (hTurn : c₁.Turns call.caller call.program call.world c₂)
    (hCall : call.program.Comes call.world h
      (((untilSignal func call.timeout).under call.spans).bind call.rest) w)
    (hSlot : call.slot = w.slots.length)
    (hFunc : ((func w.slots.length).under call.spans).turn (w.perform .openSlot).2 = (.finished work, w₁))
    (hAfter : c₂.Runs l₂ c) {u : Nat} {r : Result} {a : Bool} (hMem : (u, call.slot, .signalled r a) ∈
      l₁ ++ (call.program.marks call.world).stamped call.world.now ++ l₂) :
    c.Given call.slot w₁.nextTask work (l₁ ++ (call.program.marks call.world).stamped call.world.now ++ l₂)
      u r := by
  obtain ⟨⟨own₁, hSound₁⟩, -⟩ := hBefore.reaches.sound Scene.sound_init
  obtain ⟨⟨own₂, hSound₂⟩, -⟩ := hTurn.move.sound hSound₁
  have hFork : Program.Comes (((untilSignal func call.timeout).under call.spans).bind call.rest) w _ _ _ :=
    comes_fork hFunc
  rw [← hSlot] at hFork
  obtain ⟨hWork₂, hLt₂, hLe₁⟩ := hTurn.doesWork hSound₁ (hCall.trans hFork)
  rcases List.mem_append.mp hMem with hMem | hMem
  · rcases List.mem_append.mp hMem with hMem | hMem
    · rw [List.append_assoc]
      refine .of_runs (.refl _) hBefore (hTurn.runs.trans hAfter) (fun m m' d hFirst hLast => ?_) hMem
      obtain ⟨⟨own, hSound⟩, -⟩ := hFirst.reaches.sound Scene.sound_init
      exact hSound.doesWork ((hLast.nextTask_le hSound).trans hLe₁) _ _
    · obtain ⟨rfl, hMark⟩ := mem_stamped_iff.mp hMem
      exact ⟨l₁, l₂, c₁, c₂, α, call.caller, call.program, call.world, hBefore, hTurn, hAfter, rfl, rfl,
        hTurn.gives (hSound₁.doesWork hLe₁ _ _) hMark⟩
  · have hGiven := Scene.Given.of_runs (hBefore.trans hTurn.runs) hAfter (.refl c)
      (fun m m' d hFirst _ => hWork₂.reaches hFirst.reaches hSound₂ hLt₂) hMem
    rwa [List.append_nil] at hGiven

/-- A call returns a failure only if that was rejected with, returned or panicked with. That nobody can call back
any more does not end its wait. -/
theorem until_needs_signal (hBefore : Scene.Runs ⟨none, {}⟩ l₁ c₁)
    (hTurn : c₁.Turns call.caller call.program call.world c₂)
    (hCall : call.program.Comes call.world h
      (((untilSignal func call.timeout).under call.spans).bind call.rest) w)
    (hSlot : call.slot = w.slots.length)
    (hFunc : ((func w.slots.length).under call.spans).turn (w.perform .openSlot).2 = (.finished work, w₁))
    (hAfter : c₂.Runs l₂ c) :
    call.NeedsSignal w₁.nextTask work (l₁ ++ (call.program.marks call.world).stamped call.world.now ++ l₂)
      c := by
  have hMade : call.Made _ c := .intro hBefore hTurn hCall hSlot hFunc hAfter
  obtain ⟨⟨own, hSound⟩, hLives, -, hCourse⟩ := hMade.course
  constructor
  case waits => exact fun hNone hKept hEarly => hMade.waits hNone hKept hEarly
  case held => exact fun hNotOver => hMade.held hNotOver
  case needed =>
    intro hNotOver hNone hLast left
    exact (World.letGo_last (hMade.vacant hNotOver hNone) hLast).2.2 left
  case neverClosed => exact fun slot => (hMade.runs.reaches.lives slot).ne_closed
  case looks =>
    intro l' c' c'' β k p v w' h' slot left next hRuns hTurn' hComes
    exact hRuns.held_of_await hTurn' hComes
  case given => exact fun u r a => Call.given_of_signalled hBefore hTurn hCall hSlot hFunc hAfter
  case failed =>
    intro u f hMem
    obtain hPends | hSettles := hCourse
    · exact absurd ⟨u, _, hMem, .looked _⟩ (hPends.not_isOver hSound hLives)
    · have hAccepted := hSettles.returned u _ hMem
      exact ⟨hAccepted, Call.given_of_signalled hBefore hTurn hCall hSlot hFunc hAfter hAccepted⟩

end

/-- The callee of this call never signals, its task has ended, and no callback is left. The call waits on. -/
theorem until_needs_signal_of_finished_work :
    let marks : Chronicle := [(0, 0, .opened), (0, 0, .looked none)]
    ∃ c, (Call.unanswered 5).NeedsSignal 0 (.pure (.ok ())) marks c ∧ c.world.tasks = [] ∧
      c.world.holds = [(.call, 0)] ∧ ¬ marks.IsOver 0 := by
  intro marks
  let call := Call.unanswered 5
  have hProper : call.program.Proper :=
    (proper_untilSignal fun _ => .pure (.pure trivial)).seq fun _ => .pure trivial
  have hBefore := Scene.Runs.single (.start hProper {}) (.inl rfl)
  have hTurn := Scene.Turns.main (.ready call.program) {}
  let func (_ : Nat) : Async (Async Result) := .pure (.pure (.ok ()))
  have hFunc : ((func ({} : World).slots.length).under []).turn (({} : World).perform .openSlot).2 =
      (.finished (.pure (.ok ())), (({} : World).perform .openSlot).2) := rfl
  obtain ⟨hWaits, hMarks⟩ := @Call.turn_unanswered 5 (by decide)
  simp only [Waiting.resume, call, hWaits] at hTurn
  let waiting : Waiting Result := .awaiting 0 (some (min 5 longestWait)) call.next
  have hWork : Scene.Move ⟨some ⟨Result, waiting⟩, .unanswered⟩ []
      ⟨some ⟨Result, waiting⟩, { World.unanswered with holds := [(.call, 0)], tasks := [] }⟩ :=
    @Scene.Move.turnTask _ .unanswered 0 _ List.mem_cons_self
  have hNeeds := @until_needs_signal _ call _ _ _ _ _ func _ _ _ _ hBefore hTurn (.here _ _) rfl hFunc
    (.single hWork (.inl rfl))
  rw [show call.world = {} from rfl, hMarks] at hNeeds
  have hDue : ∀ d ∈ call.due, 0 < d := by decide
  exact ⟨_, hNeeds, rfl, rfl, (hNeeds.waits (by simp [History.stamped]) (by simp [History.stamped]) hDue).1⟩

/-- A call may be over before the time it was given, though nobody signalled and it was not given up: no wait is
longer than the longest one. -/
theorem exists_end_before_deadline :
    ¬ ∀ (call : Call Result) (l : Chronicle) (c : Scene) (ms u : Nat) (m : Mark), call.Made l c →
      call.timeout = some ms → (∀ u r a, (u, call.slot, .signalled r a) ∉ l) →
      (∀ u, (u, call.slot, .dropped) ∉ l) → (u, call.slot, m) ∈ l → m.IsEnd → call.world.now + ms ≤ u := by
  intro h
  obtain ⟨c, hMade⟩ := @Call.made_unanswered 1000000000000 (by decide)
  have hTime := h _ _ c 1000000000000 (min 1000000000000 longestWait) _ hMade rfl (by simp [Call.unanswered])
    (by simp [Call.unanswered]) (by simp [Call.unanswered]) (.looked none)
  have hEarly : min 1000000000000 longestWait = 946080000000 := by decide
  rw [hEarly] at hTime
  exact absurd hTime (by decide)

end TestBench
