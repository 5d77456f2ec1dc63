import TestBench.SelfTest
import TestBench.Proofs.Signal.Alert
import Mathlib.Algebra.GroupWithZero.Nat

/-! # Chores of the self-check

A run of the suite leaves tasks to the world: the work of its `until` call, which starts the ticker, and the
ticker, which rings when its time has come. A bench is a world with no other tasks (`Bench`). As long as
they take their turns a ticker is pending until it has rung, and the note of a ring stays on the board
(`Passes`).
-/

namespace TestBench

theorem World.length_enqueueAll_le (w : World) (tasks : List Nat) :
    (w.enqueueAll tasks).queue.length ≤ w.queue.length + tasks.length := by
  induction tasks generalizing w with
  | nil => exact Nat.le_refl _
  | cons task tasks ih =>
    have hFirst : (w.enqueue task).queue.length ≤ w.queue.length + 1 := by
      unfold World.enqueue
      split
      · exact Nat.le_succ _
      · simp
    have hRest : (w.enqueueAll (task :: tasks)).queue.length ≤ _ := ih (w.enqueue task)
    rw [List.length_cons]
    omega

namespace SelfTest

def ring (slot : Nat) : Async Unit :=
  .act .now fun now => .act (.put tickKey (.time now)) fun _ => .act (.settle slot (.ok ())) fun _ =>
    .act (.release .callback slot) fun _ => .pure ()

/-- What a task of the self-check has still to do for the call with some slot. -/
inductive Chore
  | work (slot : Nat)
  /-- It is the ticker, which had no turn yet. -/
  | ticker (slot : Nat)
  | ticking (slot due : Nat)

namespace Chore

def slot : Chore → Nat
  | work slot | ticker slot | ticking slot _ => slot

def due (now : Nat) : Chore → Nat
  | work _ | ticker _ => now + tickDelay
  | ticking _ due => due

def waiting : Chore → Waiting Unit
  | work slot =>
      .ready (.act (.hold slot) fun _ => .fork (.mk (.sleep tickDelay (ring slot)))
        (.act (.release .callback slot) fun _ => .pure ()))
  | ticker slot => .ready (.sleep tickDelay (ring slot))
  | ticking slot due => .sleeping due (ring slot)

/-- How many steps it may take up: its turns, and before the last one a move of the clock and a place in the
queue. -/
def effort (now : Nat) : Chore → Nat
  | work _ => 5
  | ticker _ => 4
  | ticking _ due => if now < due then 3 else 1

theorem not_awaits (c : Chore) (slot : Nat) : ¬ c.waiting.awaits slot := by cases c <;> exact nofun

end Chore

/-- A world in which all tasks are chores of the self-check, and no ring is overdue. Calls hold their slots. -/
structure Bench (w : World) (chores : List (Nat × Chore)) : Prop where
  tasks : w.tasks = chores.map fun t => (t.1, t.2.waiting)
  alert : w.Alert
  yielding : w.yielding = []
  opened : ∀ t ∈ chores, t.2.slot < w.slots.length
  punctual : ∀ t ∈ chores, w.now ≤ t.2.due w.now
  noted : ∀ note, w.look tickKey = some note → ∃ ms, note = .time ms
  backed : ∀ slot, w.Backed slot

def Pending (w : World) (chores : List (Nat × Chore)) (slot due : Nat) : Prop :=
  ∃ t ∈ chores, t.2.slot = slot ∧ t.2.due w.now = due

def Ticked (w : World) : Prop := (w.look tickKey).isSome

/-- What comes of the chores as the world goes on: tickers ring at their times, and a ring leaves a tick on the
board and settles its slot if it is still open. -/
structure Passes (w : World) (chores : List (Nat × Chore)) (w' : World) (chores' : List (Nat × Chore)) :
    Prop where
  now : w.now ≤ w'.now
  kept : ∀ slot due, Pending w' chores' slot due → Pending w chores slot due
  gone : ∀ slot due, Pending w chores slot due → Pending w' chores' slot due ∨
    due ≤ w'.now ∧ Ticked w' ∧ w'.slots[slot]? ≠ some .vacant
  rung : Ticked w' → Ticked w ∨ ∃ slot due, Pending w chores slot due ∧ due ≤ w'.now
  stays : Ticked w → Ticked w'
  slots : ∀ slot, w'.slots[slot]? = w.slots[slot]? ∨ w'.slots[slot]? = some (.settled (.ok ())) ∧ Ticked w' ∧
    ∃ due, Pending w chores slot due ∧ due ≤ w'.now

namespace Passes

variable {w w₁ w' : World} {chores chores₁ chores' : List (Nat × Chore)}

theorem of_pending_iff (hNow : w.now ≤ w'.now) (hSlots : w'.slots = w.slots) (hBoard : w'.board = w.board)
    (hPending : ∀ slot due, Pending w' chores' slot due ↔ Pending w chores slot due) :
    Passes w chores w' chores' := by
  have hTicked : Ticked w' ↔ Ticked w := by simp only [Ticked, World.look, hBoard]
  exact ⟨hNow, fun _ _ => (hPending _ _).mp, fun _ _ h => .inl ((hPending _ _).mpr h),
    fun h => .inl (hTicked.mp h), hTicked.mpr, fun _ => .inl (by rw [hSlots])⟩

theorem of_same (hNow : w'.now = w.now) (hSlots : w'.slots = w.slots) (hBoard : w'.board = w.board) :
    Passes w chores w' chores :=
  of_pending_iff hNow.ge hSlots hBoard fun _ _ => by simp only [Pending, hNow]

theorem trans (h : Passes w chores w₁ chores₁) (h' : Passes w₁ chores₁ w' chores') :
    Passes w chores w' chores' where
  now := Nat.le_trans h.now h'.now
  kept slot due hPending := h.kept slot due (h'.kept slot due hPending)
  gone slot due hPending := by
    obtain hStill | ⟨hDue, hTicked, hSlot⟩ := h.gone slot due hPending
    · exact h'.gone slot due hStill
    · refine .inr ⟨Nat.le_trans hDue h'.now, h'.stays hTicked, ?_⟩
      obtain hSame | ⟨hSettled, -⟩ := h'.slots slot
      · rwa [hSame]
      · rw [hSettled]
        exact nofun
  rung hTicked := by
    obtain hBefore | ⟨slot, due, hPending, hDue⟩ := h'.rung hTicked
    · refine (h.rung hBefore).imp id ?_
      rintro ⟨slot, due, hPending, hDue⟩
      exact ⟨slot, due, hPending, Nat.le_trans hDue h'.now⟩
    · exact .inr ⟨slot, due, h.kept slot due hPending, hDue⟩
  stays hTicked := h'.stays (h.stays hTicked)
  slots slot := by
    obtain hSame' | ⟨hSettled, hTicked, due, hPending, hDue⟩ := h'.slots slot
    · rw [hSame']
      refine (h.slots slot).imp id ?_
      rintro ⟨hSettled, hTicked, due, hPending, hDue⟩
      exact ⟨hSettled, h'.stays hTicked, due, hPending, Nat.le_trans hDue h'.now⟩
    · exact .inr ⟨hSettled, hTicked, due, h.kept slot due hPending, hDue⟩

end Passes

/-- What a run of the suite depends on: the time, the times at which tickers are to ring, and whether there is a
tick on the board. -/
structure View where
  now : Nat
  pending : Set Nat
  ticked : Prop

def view (w : World) (chores : List (Nat × Chore)) : View :=
  ⟨w.now, {due | ∃ slot, Pending w chores slot due}, Ticked w⟩

structure View.Rings (v v' : View) : Prop where
  now : v.now ≤ v'.now
  kept : ∀ due ∈ v'.pending, due ∈ v.pending
  gone : ∀ due ∈ v.pending, due ∈ v'.pending ∨ due ≤ v'.now ∧ v'.ticked
  rung : v'.ticked → v.ticked ∨ ∃ due ∈ v.pending, due ≤ v'.now
  stays : v.ticked → v'.ticked

theorem View.Rings.trans {v v₁ v' : View} (h : v.Rings v₁) (h' : v₁.Rings v') : v.Rings v' where
  now := Nat.le_trans h.now h'.now
  kept due hPending := h.kept due (h'.kept due hPending)
  gone due hPending := by
    obtain hStill | ⟨hDue, hTicked⟩ := h.gone due hPending
    · exact h'.gone due hStill
    · exact .inr ⟨Nat.le_trans hDue h'.now, h'.stays hTicked⟩
  rung hTicked := by
    obtain hBefore | ⟨due, hPending, hDue⟩ := h'.rung hTicked
    · refine (h.rung hBefore).imp id ?_
      rintro ⟨due, hPending, hDue⟩
      exact ⟨due, hPending, Nat.le_trans hDue h'.now⟩
    · exact .inr ⟨due, h.kept due hPending, hDue⟩
  stays hTicked := h'.stays (h.stays hTicked)

theorem Passes.rings {w w' : World} {chores chores' : List (Nat × Chore)} (h : Passes w chores w' chores') :
    (view w chores).Rings (view w' chores') where
  now := h.now
  kept due := Exists.imp fun slot hPending => h.kept slot due hPending
  gone due := by
    rintro ⟨slot, hPending⟩
    exact (h.gone slot due hPending).imp (fun hStill => ⟨slot, hStill⟩) fun hGone => ⟨hGone.1, hGone.2.1⟩
  rung hTicked := by
    refine (h.rung hTicked).imp id ?_
    rintro ⟨slot, due, hPending, hDue⟩
    exact ⟨due, ⟨slot, hPending⟩, hDue⟩
  stays := h.stays

/-! ## Turns of chores -/

section

variable {w : World} {task slot due : Nat}

theorem turnTask_work (h : w.tasks.lookup task = some (Chore.work slot).waiting) (hBacked : w.Backed slot) :
    ∃ q, w.turnTask task =
      { w with
        nextTask := w.nextTask + 1, queue := q, budget := turnBudget, nudged := false
        tasks := w.tasks.filter (·.1 != task) ++ [(w.nextTask, (Chore.ticker slot).waiting)] } ∧
      (∀ other, other ∈ q ↔ other ∈ w.queue ∨ other = w.nextTask) ∧ q.length ≤ w.queue.length + 1 := by
  let started : World :=
    { w with
      nextTask := w.nextTask + 1, budget := turnBudget, nudged := false, holds := (.callback, slot) :: w.holds
      tasks := w.tasks.filter (·.1 != task) ++ [(w.nextTask, (Chore.ticker slot).waiting)] }
  obtain ⟨q, hq, hMem⟩ := started.enqueueAll_spec [w.nextTask]
  have hLength := started.length_enqueueAll_le [w.nextTask]
  rw [hq] at hLength
  refine ⟨q, ?_, fun other => (hMem other).trans (by simp [started]), hLength⟩
  have hTurn : w.turnTask task =
      { ((started.enqueueAll [w.nextTask]).perform (.release .callback slot)).2 with reports := w.reports } := by
    simp only [World.turnTask, h]
    rfl
  have hLetGo : ({ started with queue := q } : World).letGo .callback slot =
      { started with queue := q, holds := w.holds } := by
    have hStill : World.Backed { started with queue := q } slot := fun hOpen =>
      List.mem_cons_of_mem _ (hBacked hOpen)
    rw [World.letGo_callback hStill]
    simp only [started, List.erase_cons_head]
  rw [hTurn, hq]
  simp only [World.perform, hLetGo]
  rfl

theorem turnTask_ticker (h : w.tasks.lookup task = some (Chore.ticker slot).waiting) :
    w.turnTask task =
      { w with
        budget := turnBudget, nudged := false
        tasks := w.tasks.filter (·.1 != task) ++
          [(task, (Chore.ticking slot (w.now + tickDelay)).waiting)] } := by
  simp only [World.turnTask, h]
  rfl

theorem turnTask_ticking (h : w.tasks.lookup task = some (Chore.ticking slot due).waiting) (hDue : due ≤ w.now)
    (hAwaits : ∀ t ∈ w.tasks, ¬ t.2.awaits slot) :
    ∃ slots, w.turnTask task =
      { w with
        budget := turnBudget - 1, nudged := false, slots, holds := w.holds.erase (.callback, slot)
        board := (w.put tickKey (.time w.now)).board, tasks := w.tasks.filter (·.1 != task) } ∧
      slots = if w.slots[slot]? = some .vacant then w.slots.set slot (.settled (.ok ())) else w.slots := by
  let put : World :=
    { w with
      budget := turnBudget - 1, nudged := false, board := (w.put tickKey (.time w.now)).board
      tasks := w.tasks.filter (·.1 != task) }
  have hResume : w.canResume (Chore.ticking slot due).waiting := decide_eq_true hDue
  have hLeft : due - w.now = 0 := Nat.sub_eq_zero_of_le hDue
  have hTurn : w.turnTask task =
      { ((put.settle slot (.ok ())).2.perform (.release .callback slot)).2 with reports := w.reports } := by
    simp only [World.turnTask, h, hResume, if_true]
    simp only [Chore.waiting, Waiting.resume, hLeft]
    rfl
  have hNobody : put.tasks.filter (·.2.awaits slot) = [] := by
    refine List.filter_eq_nil_iff.mpr fun t ht => ?_
    exact hAwaits t (List.mem_of_mem_filter ht)
  by_cases hVacant : w.slots[slot]? = some .vacant
  · have hSettle : (put.settle slot (.ok ())).2 = put.setSlot slot (.settled (.ok ())) := by
      have hPut : put.slots[slot]? = some .vacant := hVacant
      have hSame : (put.setSlot slot (.settled (.ok ()))).tasks = put.tasks := rfl
      simp only [World.settle, hPut, World.wake, hSame, hNobody]
      rfl
    have hSettled : (put.setSlot slot (.settled (.ok ()))).slots[slot]? ≠ some .vacant := by
      rw [World.getElem?_setSlot_self (s := .settled (.ok ())) (w := put) hVacant]
      simp
    refine ⟨_, ?_, (if_pos hVacant).symm⟩
    rw [hTurn, hSettle, World.perform, World.letGo_of_ne_vacant .callback hSettled]
    rfl
  · refine ⟨_, ?_, (if_neg hVacant).symm⟩
    rw [hTurn, World.settle_of_ne_vacant (w := put) hVacant, World.perform,
      World.letGo_of_ne_vacant (w := put) .callback hVacant]

theorem slots_of_ring {slots slots' : List Slot}
    (h : slots' = if slots[slot]? = some .vacant then slots.set slot (.settled (.ok ())) else slots) :
    slots'.length = slots.length ∧ slots'[slot]? ≠ some .vacant ∧
      (∀ other : Nat, slots'[other]? = slots[other]? ∨ other = slot ∧ slots'[other]? = some (.settled (.ok ()))) ∧
      ∀ other : Nat, Slot.IsOpen slots'[other]? → Slot.IsOpen slots[other]? := by
  by_cases hVacant : slots[slot]? = some .vacant
  · obtain rfl := h.trans (if_pos hVacant)
    have hSettled := List.getElem?_set_self (a := Slot.settled (.ok ())) (List.getElem?_eq_some_iff.mp hVacant).1
    refine ⟨List.length_set, hSettled ▸ nofun, fun other => ?_, fun other hOpen => ?_⟩
    · by_cases hEq : slot = other
      · exact .inr ⟨hEq.symm, hEq ▸ hSettled⟩
      · exact .inl (List.getElem?_set_ne hEq)
    · by_cases hEq : slot = other
      · exact .inl (hEq ▸ hVacant)
      · have hSame : (slots.set slot (.settled (.ok ())))[other]? = slots[other]? := List.getElem?_set_ne hEq
        exact hSame ▸ hOpen
  · obtain rfl := h.trans (if_neg hVacant)
    exact ⟨rfl, hVacant, fun _ => .inl rfl, fun _ => id⟩

end

/-! ## Turns on a bench -/

def toDo (now : Nat) (chores : List (Nat × Chore)) : Nat := (chores.map (·.2.effort now)).sum

section

variable {w : World} {chores : List (Nat × Chore)} {task slot due : Nat} {c : Chore}

theorem eq_of_mem (hNodup : (chores.map (·.1)).Nodup) (h : (task, c) ∈ chores) {t : Nat × Chore}
    (ht : t ∈ chores) (hTask : t.1 = task) : t = (task, c) :=
  List.inj_on_of_nodup_map hNodup ht h hTask

theorem pending_split (hNodup : (chores.map (·.1)).Nodup) (h : (task, c) ∈ chores) :
    Pending w chores slot due ↔
      Pending w (chores.filter (·.1 != task)) slot due ∨ c.slot = slot ∧ c.due w.now = due := by
  constructor
  · rintro ⟨t, ht, hSlot, hDue⟩
    by_cases hTask : t.1 = task
    · obtain rfl := eq_of_mem hNodup h ht hTask
      exact .inr ⟨hSlot, hDue⟩
    · exact .inl ⟨t, List.mem_filter.mpr ⟨ht, by simpa using hTask⟩, hSlot, hDue⟩
  · rintro (⟨t, ht, hPending⟩ | hPending)
    · exact ⟨t, List.mem_of_mem_filter ht, hPending⟩
    · exact ⟨(task, c), h, hPending⟩

theorem pending_append {t : Nat × Chore} :
    Pending w (chores ++ [t]) slot due ↔
      Pending w chores slot due ∨ t.2.slot = slot ∧ t.2.due w.now = due := by
  simp [Pending, or_and_right, exists_or]

theorem dues_append {t : Nat × Chore} : {due | ∃ slot, Pending w (chores ++ [t]) slot due} =
    insert (t.2.due w.now) {due | ∃ slot, Pending w chores slot due} := by
  ext due
  simp only [Set.mem_ofPred_eq, pending_append, Set.mem_insert_iff]
  constructor
  · rintro ⟨slot, hPending | ⟨-, rfl⟩⟩
    · exact .inr ⟨slot, hPending⟩
    · exact .inl rfl
  · rintro (rfl | ⟨slot, hPending⟩)
    · exact ⟨_, .inr ⟨rfl, rfl⟩⟩
    · exact ⟨slot, .inl hPending⟩

theorem toDo_append (now : Nat) (t : Nat × Chore) :
    toDo now (chores ++ [t]) = toDo now chores + t.2.effort now := by
  simp [toDo]

theorem toDo_split (now : Nat) (hNodup : (chores.map (·.1)).Nodup) (h : (task, c) ∈ chores) :
    toDo now chores = toDo now (chores.filter (·.1 != task)) + c.effort now := by
  induction chores with
  | nil => cases h
  | cons t rest ih =>
    rw [List.map_cons, List.nodup_cons] at hNodup
    by_cases hTask : t.1 = task
    · have hRest : rest.filter (·.1 != task) = rest := by
        refine List.filter_eq_self.mpr fun t' ht' => ?_
        have hne : t'.1 ≠ task := fun hEq => hNodup.1 (List.mem_map.mpr ⟨t', ht', hEq.trans hTask.symm⟩)
        simpa using hne
      have hHead : t = (task, c) := by
        rcases List.mem_cons.mp h with hHead | hRest
        · exact hHead.symm
        · exact absurd (List.mem_map.mpr ⟨_, hRest, hTask.symm⟩) hNodup.1
      subst hHead
      simp [toDo, hRest, Nat.add_comm]
    · have hMem : (task, c) ∈ rest := by
        rcases List.mem_cons.mp h with hHead | hRest
        · exact absurd (congrArg Prod.fst hHead.symm) hTask
        · exact hRest
      have hKept : (t :: rest).filter (·.1 != task) = t :: rest.filter (·.1 != task) :=
        List.filter_cons_of_pos (by simpa using hTask)
      have hRest := ih hNodup.2 hMem
      simp only [toDo, List.map_cons, List.sum_cons] at hRest ⊢
      rw [hKept, List.map_cons, List.sum_cons, hRest, Nat.add_assoc]

end

namespace Bench

variable {w w' : World} {chores : List (Nat × Chore)} {task slot : Nat} {rest : List Nat} {c : Chore}

theorem nodup (h : Bench w chores) : (chores.map (·.1)).Nodup := by
  have hNodup := h.alert.nodup
  rwa [h.tasks, List.map_map] at hNodup

theorem lt (h : Bench w chores) : ∀ t ∈ chores, t.1 < w.nextTask := by
  intro t ht
  refine h.alert.lt (t.1, t.2.waiting) ?_
  rw [h.tasks]
  exact List.mem_map.mpr ⟨t, ht, rfl⟩

theorem not_awaits (h : Bench w chores) : ∀ t ∈ w.tasks, ¬ t.2.awaits slot := by
  intro t ht
  rw [h.tasks] at ht
  obtain ⟨t, -, rfl⟩ := List.mem_map.mp ht
  exact t.2.not_awaits slot

theorem exists_of_lookup {x : Waiting Unit} (h : Bench w chores) (hLookup : w.tasks.lookup task = some x) :
    ∃ c, (task, c) ∈ chores ∧ x = c.waiting := by
  obtain ⟨before, after, hTasks, -⟩ := List.lookup_eq_some_iff.mp hLookup
  have hMem : (task, x) ∈ w.tasks := by simp [hTasks]
  rw [h.tasks] at hMem
  obtain ⟨t, ht, hEq⟩ := List.mem_map.mp hMem
  obtain ⟨rfl, rfl⟩ := Prod.mk.inj hEq
  exact ⟨t.2, ht, rfl⟩

/-- What the main program does to slots is not seen by the chores, since none waits for a slot. -/
theorem idle (h : Bench w chores) (hTasks : w'.tasks = w.tasks) (hNext : w'.nextTask = w.nextTask)
    (hSlots : w.slots.length ≤ w'.slots.length) (hNow : w'.now = w.now) (hQueue : w'.queue = w.queue)
    (hYielding : w'.yielding = w.yielding)
    (hNoted : ∀ note, w'.look tickKey = some note → w.look tickKey = some note)
    (hBacked : ∀ slot, w.Backed slot → w'.Backed slot) : Bench w' chores where
  tasks := hTasks.trans h.tasks
  alert := by
    refine h.alert.mono hTasks hNext (fun t ht hResume => .inl ?_) fun task hTask => ?_
    · refine Eq.trans (Eq.symm ?_) hResume
      exact World.canResume_congr hNow fun slot hAwaits => absurd hAwaits (h.not_awaits t ht)
    · rwa [hQueue, hYielding]
  yielding := hYielding.trans h.yielding
  opened t ht := Nat.lt_of_lt_of_le (h.opened t ht) hSlots
  punctual := hNow ▸ h.punctual
  noted note hNote := h.noted note (hNoted note hNote)
  backed slot := hBacked slot (h.backed slot)

theorem without (h : Bench w chores) (hQueue : w.queue = task :: rest) :
    Bench { w with queue := rest, streak := w.streak + 1, tasks := w.tasks.filter (·.1 != task) }
      (chores.filter (·.1 != task)) where
  tasks := by
    simp only [h.tasks, List.filter_map]
    rfl
  alert := h.alert.pop hQueue List.filter_sublist rfl rfl rfl rfl fun t ht _ => by
    simpa using (List.mem_filter.mp ht).2
  yielding := h.yielding
  opened t ht := h.opened t (List.mem_of_mem_filter ht)
  punctual t ht := h.punctual t (List.mem_of_mem_filter ht)
  noted := h.noted
  backed := h.backed

theorem add {t : Nat × Chore} (h : Bench w chores) (hNew : ∀ t' ∈ chores, t'.1 ≠ t.1)
    (hNext : w.nextTask ≤ w'.nextTask) (hLt : t.1 < w'.nextTask)
    (hTasks : w'.tasks = w.tasks ++ [(t.1, t.2.waiting)]) (hSlots : w'.slots = w.slots)
    (hHolds : w'.holds = w.holds) (hNow : w'.now = w.now)
    (hBoard : w'.board = w.board) (hYielding : w'.yielding = w.yielding)
    (hKept : ∀ task ∈ w.queue, task ∈ w'.queue) (hSlot : t.2.slot < w.slots.length)
    (hDue : w.now ≤ t.2.due w.now) (hHeard : w'.canResume t.2.waiting → t.1 ∈ w'.queue) :
    Bench w' (chores ++ [t]) where
  tasks := by rw [hTasks, h.tasks, List.map_append, List.map_singleton]
  alert := by
    refine h.alert.add (fun t' ht' => ?_) hNext hLt hTasks hSlots hNow (fun task hTask => ?_) fun hResume =>
      .inl (hHeard hResume)
    · rw [h.tasks] at ht'
      obtain ⟨t', ht, rfl⟩ := List.mem_map.mp ht'
      exact hNew t' ht
    · exact hTask.imp (hKept task) fun hTask => hYielding ▸ hTask
  yielding := hYielding.trans h.yielding
  opened t' ht' := by
    rw [hSlots]
    rcases List.mem_append.mp ht' with ht' | ht'
    · exact h.opened t' ht'
    · exact List.mem_singleton.mp ht' ▸ hSlot
  punctual t' ht' := by
    rw [hNow]
    rcases List.mem_append.mp ht' with ht' | ht'
    · exact h.punctual t' ht'
    · exact List.mem_singleton.mp ht' ▸ hDue
  noted := by
    simp only [World.look, hBoard]
    exact h.noted
  backed := by
    simp only [World.Backed, hSlots, hHolds]
    exact h.backed

theorem le_of_pending {due : Nat} (h : Bench w chores) (hDue : due ∈ (view w chores).pending) : w.now ≤ due := by
  obtain ⟨slot, t, ht, -, rfl⟩ := hDue
  exact h.punctual t ht

theorem ne_of_mem_filter {t : Nat × Chore} (ht : t ∈ chores.filter (·.1 != task)) : t.1 ≠ task := by
  simpa using (List.mem_filter.mp ht).2

/-- What the turn of the task at the head of the queue comes to, for its own bench and for all chores. -/
def Turned (w : World) (chores : List (Nat × Chore)) (rest : List Nat) (w' : World) : Prop :=
  ∃ chores', Bench w' chores' ∧ Passes w chores w' chores' ∧ w'.now = w.now ∧
    toDo w'.now chores' + w'.queue.length ≤ toDo w.now chores + rest.length

theorem turned_work (h : Bench w chores) (hQueue : w.queue = task :: rest)
    (hLookup : w.tasks.lookup task = some (Chore.work slot).waiting) (hMem : (task, .work slot) ∈ chores) :
    Turned w chores rest (World.turnTask { w with queue := rest, streak := w.streak + 1 } task) := by
  obtain ⟨q, hTurn, hMem', hLength⟩ :=
    turnTask_work (w := { w with queue := rest, streak := w.streak + 1 }) hLookup (h.backed slot)
  have hOthers := h.without hQueue
  let t : Nat × Chore := (w.nextTask, .ticker slot)
  refine ⟨chores.filter (·.1 != task) ++ [t], ?_, ?_, ?_, ?_⟩
  · rw [hTurn]
    refine hOthers.add (fun t' ht' => ?_) (Nat.le_succ _) (Nat.lt_succ_self _) rfl rfl rfl rfl rfl rfl
      (fun other hOther => (hMem' other).mpr (.inl hOther)) (h.opened (task, .work slot) hMem) (Nat.le_add_right _ _)
      fun _ => (hMem' _).mpr (.inr rfl)
    exact Nat.ne_of_lt (h.lt t' (List.mem_of_mem_filter ht'))
  · rw [hTurn]
    refine .of_pending_iff (Nat.le_refl _) rfl rfl fun slot' due => ?_
    exact (pending_append (w := w) (t := t)).trans (pending_split h.nodup hMem).symm
  · rw [hTurn]
  · rw [hTurn]
    change toDo w.now _ + q.length ≤ _
    have hLength : q.length ≤ rest.length + 1 := hLength
    rw [toDo_append, toDo_split w.now h.nodup hMem]
    simp only [t, Chore.effort]
    omega

theorem turned_ticker (h : Bench w chores) (hQueue : w.queue = task :: rest)
    (hLookup : w.tasks.lookup task = some (Chore.ticker slot).waiting) (hMem : (task, .ticker slot) ∈ chores) :
    Turned w chores rest (World.turnTask { w with queue := rest, streak := w.streak + 1 } task) := by
  have hTurn := turnTask_ticker (w := { w with queue := rest, streak := w.streak + 1 }) hLookup
  have hOthers := h.without hQueue
  let t : Nat × Chore := (task, .ticking slot (w.now + tickDelay))
  refine ⟨chores.filter (·.1 != task) ++ [t], ?_, ?_, ?_, ?_⟩
  · rw [hTurn]
    refine hOthers.add (fun t' ht' => ne_of_mem_filter ht') (Nat.le_refl _) (h.lt (task, .ticker slot) hMem)
      rfl rfl rfl rfl rfl rfl (fun other hOther => hOther) (h.opened (task, .ticker slot) hMem)
      (Nat.le_add_right _ _) fun hResume => ?_
    exact absurd (of_decide_eq_true hResume) (by simp [tickDelay])
  · rw [hTurn]
    refine .of_pending_iff (Nat.le_refl _) rfl rfl fun slot' due => ?_
    exact (pending_append (w := w) (t := t)).trans (pending_split h.nodup hMem).symm
  · rw [hTurn]
  · rw [hTurn]
    change toDo w.now _ + rest.length ≤ _
    have hEffort : t.2.effort w.now = 3 := if_pos (Nat.lt_add_of_pos_right (by decide))
    rw [toDo_append, toDo_split w.now h.nodup hMem, hEffort]
    simp only [Chore.effort]
    omega

theorem turned_ticking {due : Nat} (h : Bench w chores) (hQueue : w.queue = task :: rest)
    (hLookup : w.tasks.lookup task = some (Chore.ticking slot due).waiting)
    (hMem : (task, .ticking slot due) ∈ chores) (hDue : due ≤ w.now) :
    Turned w chores rest (World.turnTask { w with queue := rest, streak := w.streak + 1 } task) := by
  obtain ⟨slots, hTurn, hSlots⟩ :=
    turnTask_ticking (w := { w with queue := rest, streak := w.streak + 1 }) hLookup hDue h.not_awaits
  have hOthers := h.without hQueue
  have hPending : Pending w chores slot due := ⟨(task, .ticking slot due), hMem, rfl, rfl⟩
  -- the slot is closed after the ring, whether the ring closed it or the wait had run out of time before
  obtain ⟨hLength, hClosed, hOnly, hStillOpen⟩ := slots_of_ring hSlots
  have hPut (note : Note) : (w.put tickKey note).look tickKey = some note := List.lookup_cons_self
  refine ⟨chores.filter (·.1 != task), ?_, ?_, ?_, ?_⟩
  · rw [hTurn]
    refine ⟨hOthers.tasks, ?_, hOthers.yielding, fun t ht => ?_, hOthers.punctual, fun note hNote => ?_,
      fun other hOpen => ?_⟩
    · refine hOthers.alert.mono rfl rfl (fun t ht hResume => .inl ?_) fun _ hTask => hTask
      refine Eq.trans (Eq.symm ?_) hResume
      exact World.canResume_congr rfl fun other hAwaits => absurd hAwaits (hOthers.not_awaits t ht)
    · exact hLength ▸ h.opened t (List.mem_of_mem_filter ht)
    · exact ⟨w.now, (Option.some.inj ((hPut _).symm.trans hNote)).symm⟩
    · exact (List.mem_erase_of_ne (by simp)).mpr (h.backed other (hStillOpen other hOpen))
  · rw [hTurn]
    have hTicked : Ticked { w with board := (w.put tickKey (.time w.now)).board } := by
      have hLook : World.look { w with board := (w.put tickKey (.time w.now)).board } tickKey =
        some (.time w.now) := hPut _
      rw [Ticked, hLook]
      rfl
    refine ⟨Nat.le_refl _, fun slot' due' hLeft => ?_, fun slot' due' hBefore => ?_,
      fun _ => .inr ⟨slot, due, hPending, hDue⟩, fun _ => hTicked, fun slot' => ?_⟩
    · exact (pending_split h.nodup hMem).mpr (.inl hLeft)
    · obtain hLeft | ⟨rfl, rfl⟩ := (pending_split h.nodup hMem).mp hBefore
      · exact .inl hLeft
      · exact .inr ⟨hDue, hTicked, hClosed⟩
    · refine (hOnly slot').imp id ?_
      rintro ⟨rfl, hSettled⟩
      exact ⟨hSettled, hTicked, due, hPending, hDue⟩
  · rw [hTurn]
  · rw [hTurn]
    change toDo w.now _ + rest.length ≤ _
    rw [toDo_split w.now h.nodup hMem]
    omega

theorem turned (h : Bench w chores) (hQueue : w.queue = task :: rest) :
    Turned w chores rest (World.turnTask { w with queue := rest, streak := w.streak + 1 } task) := by
  have hPopped (hTurn : World.turnTask { w with queue := rest, streak := w.streak + 1 } task =
      { w with queue := rest, streak := w.streak + 1 })
      (hOther : ∀ t ∈ w.tasks, w.canResume t.2 → t.1 ≠ task) :
      Turned w chores rest (World.turnTask { w with queue := rest, streak := w.streak + 1 } task) := by
    rw [hTurn]
    have hAlert : World.Alert { w with queue := rest, streak := w.streak + 1 } :=
      h.alert.pop hQueue (List.Sublist.refl _) rfl rfl rfl rfl hOther
    exact ⟨chores, ⟨h.tasks, hAlert, h.yielding, h.opened, h.punctual, h.noted, h.backed⟩, .of_same rfl rfl rfl, rfl,
      Nat.le_refl _⟩
  cases hLookup : w.tasks.lookup task with
  | none =>
    refine hPopped (by simp only [World.turnTask, hLookup]) fun t ht _ hEq => ?_
    exact absurd (List.lookup_eq_none_iff.mp hLookup t ht) (by simp [hEq])
  | some x =>
    obtain ⟨c, hMem, rfl⟩ := h.exists_of_lookup hLookup
    by_cases hResume : w.canResume c.waiting
    · cases c with
      | work slot => exact h.turned_work hQueue hLookup hMem
      | ticker slot => exact h.turned_ticker hQueue hLookup hMem
      | ticking slot due => exact h.turned_ticking hQueue hLookup hMem (of_decide_eq_true hResume)
    · have hSame : World.canResume { w with queue := rest, streak := w.streak + 1 } c.waiting =
        w.canResume c.waiting := rfl
      refine hPopped (by simp only [World.turnTask, hLookup, hSame, hResume]; rfl) fun t ht hOther hEq => ?_
      rw [h.tasks] at ht
      obtain ⟨t', ht', rfl⟩ := List.mem_map.mp ht
      obtain rfl := eq_of_mem h.nodup hMem ht' hEq
      exact hResume hOther

end Bench

end SelfTest

end TestBench
