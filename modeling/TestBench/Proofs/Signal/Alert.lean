import TestBench.Proofs.Signal.Record
import Mathlib.Data.List.Nodup

/-! # Nobody who can go on is left waiting

A world is alert if every task that could go on is among those that will get a turn. Turns keep a world
alert, since whatever makes a task able to go on also puts it into the queue. So the clock moves only when
nobody can go on, and every run of a world is at the pace of the clock (`Scene.runsTo_run`).
-/

namespace TestBench

namespace World

/-- Every task that could go on will get a turn, and no two tasks have the same number. -/
structure Alert (w : World) : Prop where
  nodup : (w.tasks.map (·.1)).Nodup
  lt : ∀ t ∈ w.tasks, t.1 < w.nextTask
  heard : ∀ t ∈ w.tasks, w.canResume t.2 → t.1 ∈ w.queue ∨ t.1 ∈ w.yielding

/-- No task waits for a slot that a program owns, or for one that was not opened. -/
def Clear (w : World) (own : Set Nat) : Prop :=
  ∀ t ∈ w.tasks, ∀ slot, t.2.awaits slot → slot ∉ own ∧ slot < w.slots.length

structure Heeds (w : World) (own : Set Nat) : Prop where
  alert : w.Alert
  clear : w.Clear own
  opened : ∀ slot ∈ own, slot < w.slots.length

variable {α : Type} {w w' : World} {own own' : Set Nat} {slot task : Nat} {x : Waiting Unit}

theorem enqueueAll_spec (w : World) (tasks : List Nat) : ∃ q, w.enqueueAll tasks = { w with queue := q } ∧
    ∀ task, task ∈ q ↔ task ∈ w.queue ∨ task ∈ tasks := by
  induction tasks generalizing w with
  | nil => exact ⟨w.queue, rfl, by simp⟩
  | cons first tasks ih =>
    obtain ⟨q, hq⟩ := w.enqueue_eq first
    have hMem (task : Nat) : task ∈ (w.enqueue first).queue ↔ task ∈ w.queue ∨ task = first := by
      unfold enqueue
      split
      · constructor
        · exact .inl
        · rintro (hTask | rfl)
          · exact hTask
          · assumption
      · simp
    obtain ⟨q', hAll, hMem'⟩ := ih (w.enqueue first)
    refine ⟨q', ?_, fun task => ?_⟩
    · change (w.enqueue first).enqueueAll tasks = _
      rw [hAll, hq]
    · rw [hMem', hMem, List.mem_cons, or_assoc]

theorem canResume_congr {x : Waiting α} (hNow : w'.now = w.now)
    (hSlot : ∀ slot, x.awaits slot → w'.slots[slot]? = w.slots[slot]?) : w'.canResume x = w.canResume x := by
  cases x with
  | ready _ => rfl
  | postponed _ _ _ => rfl
  | sleeping due _ => simp only [canResume, hNow]
  | awaiting slot due _ => simp only [canResume, hNow, hSlot slot (beq_self_eq_true slot)]

theorem isDue_of_canResume {x : Waiting α} (hSlots : w'.slots = w.slots) (hResume : w'.canResume x) :
    x.isDue w'.now ∨ w.canResume x := by
  cases x with
  | ready _ => exact .inr rfl
  | postponed _ _ _ => exact .inr rfl
  | sleeping due _ =>
    left
    simpa [canResume, Waiting.isDue, Waiting.due?] using hResume
  | awaiting slot due _ =>
    simp only [canResume, Bool.or_eq_true, hSlots] at hResume ⊢
    obtain hSlot | hDue := hResume
    · exact .inr (.inl hSlot)
    · exact .inl hDue

theorem lt_due_of_not_canResume {x : Waiting α} (hResume : ¬ w.canResume x) : ∀ due ∈ x.due?, w.now < due := by
  intro due hDue
  cases x with
  | ready _ => cases hDue
  | postponed _ _ _ => cases hDue
  | sleeping due' _ =>
    obtain rfl := Option.some.inj hDue
    simpa [canResume] using hResume
  | awaiting slot due' _ =>
    obtain rfl : due' = some due := hDue
    simp only [canResume, Waiting.isDue, Waiting.due?, Bool.or_eq_true, not_or] at hResume
    simpa using hResume.2

/-! ## Changes that leave a world alert -/

theorem Alert.mono (hAlert : w.Alert) (hTasks : w'.tasks = w.tasks) (hNext : w'.nextTask = w.nextTask)
    (hHeard : ∀ t ∈ w.tasks, w'.canResume t.2 → w.canResume t.2 ∨ t.1 ∈ w'.queue)
    (hKept : ∀ task, task ∈ w.queue ∨ task ∈ w.yielding → task ∈ w'.queue ∨ task ∈ w'.yielding) :
    w'.Alert where
  nodup := hTasks ▸ hAlert.nodup
  lt := hTasks ▸ hNext ▸ hAlert.lt
  heard t ht hResume := by
    rw [hTasks] at ht
    obtain hBefore | hQueued := hHeard t ht hResume
    · exact hKept t.1 (hAlert.heard t ht hBefore)
    · exact .inl hQueued

theorem Alert.idle (hAlert : w.Alert) (hTasks : w'.tasks = w.tasks) (hNext : w'.nextTask = w.nextTask)
    (hSlots : w'.slots = w.slots) (hNow : w'.now = w.now) (hQueue : w'.queue = w.queue)
    (hYielding : w'.yielding = w.yielding) : w'.Alert := by
  refine hAlert.mono hTasks hNext (fun t _ hResume => ?_) fun task hTask => ?_
  · exact .inl (canResume_congr hNow (fun _ _ => by rw [hSlots]) ▸ hResume)
  · rwa [hQueue, hYielding]

theorem Alert.add (hAlert : w.Alert) (hNew : ∀ t ∈ w.tasks, t.1 ≠ task) (hNext : w.nextTask ≤ w'.nextTask)
    (hLt : task < w'.nextTask) (hTasks : w'.tasks = w.tasks ++ [(task, x)]) (hSlots : w'.slots = w.slots)
    (hNow : w'.now = w.now)
    (hKept : ∀ task, task ∈ w.queue ∨ task ∈ w.yielding → task ∈ w'.queue ∨ task ∈ w'.yielding)
    (hHeard : w'.canResume x → task ∈ w'.queue ∨ task ∈ w'.yielding) : w'.Alert where
  nodup := by
    rw [hTasks, List.map_append, List.nodup_append]
    refine ⟨hAlert.nodup, by simp, ?_⟩
    rintro _ hOld _ hSelf rfl
    obtain ⟨t, ht, rfl⟩ := List.mem_map.mp hOld
    exact hNew t ht (by simpa using hSelf)
  lt t ht := by
    rw [hTasks] at ht
    rcases List.mem_append.mp ht with ht | ht
    · exact Nat.lt_of_lt_of_le (hAlert.lt t ht) hNext
    · obtain rfl := List.mem_singleton.mp ht
      exact hLt
  heard t ht hResume := by
    rw [hTasks] at ht
    rcases List.mem_append.mp ht with ht | ht
    · rw [canResume_congr hNow fun _ _ => by rw [hSlots]] at hResume
      exact hKept t.1 (hAlert.heard t ht hResume)
    · obtain rfl := List.mem_singleton.mp ht
      exact hHeard hResume

theorem Alert.pop (hAlert : w.Alert) (hQueue : w.queue = task :: w'.queue) (hTasks : w'.tasks.Sublist w.tasks)
    (hNext : w'.nextTask = w.nextTask) (hSlots : w'.slots = w.slots) (hNow : w'.now = w.now)
    (hYielding : w'.yielding = w.yielding) (hOther : ∀ t ∈ w'.tasks, w'.canResume t.2 → t.1 ≠ task) :
    w'.Alert where
  nodup := (hTasks.map _).nodup hAlert.nodup
  lt t ht := hNext ▸ hAlert.lt t (hTasks.subset ht)
  heard t ht hResume := by
    have hne := hOther t ht hResume
    rw [canResume_congr hNow fun _ _ => by rw [hSlots]] at hResume
    have hHeard := hAlert.heard t (hTasks.subset ht) hResume
    rw [hQueue, ← hYielding, List.mem_cons] at hHeard
    exact hHeard.imp (fun hMem => hMem.resolve_left hne) id

theorem Alert.wake {p : Waiting Unit → Bool} (hAlert : w.Alert) (hTasks : w'.tasks = w.tasks)
    (hNext : w'.nextTask = w.nextTask) (hQueue : w'.queue = w.queue) (hYielding : w'.yielding = w.yielding)
    (hHeard : ∀ t ∈ w.tasks, w'.canResume t.2 → w.canResume t.2 ∨ p t.2) : (w'.wake p).Alert := by
  obtain ⟨q, hq, hMem⟩ := w'.enqueueAll_spec ((w'.tasks.filter (p ·.2)).map (·.1))
  rw [World.wake, hq]
  refine hAlert.mono hTasks hNext (fun t ht hResume => ?_) fun task hTask => ?_
  · refine (hHeard t ht hResume).imp id fun hp => (hMem t.1).mpr (.inr ?_)
    exact List.mem_map.mpr ⟨t, List.mem_filter.mpr ⟨hTasks ▸ ht, hp⟩, rfl⟩
  · exact hTask.imp (fun hTask => (hMem task).mpr (.inl (hQueue ▸ hTask))) fun hTask => hYielding ▸ hTask

theorem Alert.wakeYielding (hAlert : w.Alert) : w.wakeYielding.Alert := by
  obtain ⟨q, hq, hMem⟩ := enqueueAll_spec { w with yielding := [] } (w.yielding.filter w.isLive)
  rw [World.wakeYielding, hq]
  refine ⟨hAlert.nodup, hAlert.lt, fun t ht hResume => .inl ((hMem t.1).mpr ?_)⟩
  refine (hAlert.heard t ht hResume).imp id fun hYields => List.mem_filter.mpr ⟨hYields, ?_⟩
  exact List.lookup_isSome_iff.mpr ⟨t, ht, by simp⟩

theorem advance_eq (w : World) (time : Nat) :
    ∃ q, w.advance time = { w with now := max w.now time, queue := q } := enqueueAll_eq _ _

theorem Alert.advance (hAlert : w.Alert) (time : Nat) : (w.advance time).Alert := by
  let later : World := { w with now := max w.now time }
  have hSlots : later.slots = w.slots := rfl
  have hWoken (t : Nat × Waiting Unit) (_ : t ∈ w.tasks) (hResume : later.canResume t.2) :
      w.canResume t.2 ∨ t.2.isDue later.now :=
    (isDue_of_canResume hSlots hResume).symm
  exact hAlert.wake rfl rfl rfl rfl hWoken

theorem Alert.not_canResume (hAlert : w.Alert) (hQueue : w.queue = []) (hYielding : w.yielding = []) :
    ∀ t ∈ w.tasks, ¬ w.canResume t.2 := by
  intro t ht hResume
  have hHeard := hAlert.heard t ht hResume
  simp [hQueue, hYielding] at hHeard

theorem le_due_of_min {main : Waiting α} {limit : Option Nat} {time : Nat}
    (hMin : (w.dues main limit).min? = some time) :
    (∀ due ∈ main.due?, time ≤ due) ∧ ∀ t ∈ w.tasks, ∀ due ∈ t.2.due?, time ≤ due := by
  have hLeast : ∀ due ∈ w.dues main limit, time ≤ due := (List.min?_eq_some_iff.mp hMin).2
  constructor
  · intro due hDue
    exact hLeast due (List.mem_append_left _ (List.mem_append_left _ (Option.mem_toList.mpr hDue)))
  · intro t ht due hDue
    exact hLeast due (List.mem_append_right _ (List.mem_filterMap.mpr ⟨t, ht, hDue⟩))

/-! ## Turns -/

namespace Heeds

theorem idle (h : w.Heeds own) (hTasks : w'.tasks = w.tasks) (hNext : w'.nextTask = w.nextTask)
    (hSlots : w'.slots = w.slots) (hNow : w'.now = w.now) (hQueue : w'.queue = w.queue)
    (hYielding : w'.yielding = w.yielding) : w'.Heeds own where
  alert := h.alert.idle hTasks hNext hSlots hNow hQueue hYielding
  clear t ht := by
    rw [hSlots]
    exact h.clear t (hTasks ▸ ht)
  opened := by
    rw [hSlots]
    exact h.opened

theorem start (h : w.Heeds own) (t : Task) : (w.start t).Heeds own := by
  obtain ⟨q, hq, hMem⟩ := enqueueAll_spec { w with
    nextTask := w.nextTask + 1, tasks := w.tasks ++ [(w.nextTask, .ready t.body)] } [w.nextTask]
  change (enqueueAll _ [w.nextTask]).Heeds own
  rw [hq]
  refine ⟨?_, ?_, h.opened⟩
  · refine h.alert.add (fun t ht => ?_) (Nat.le_succ _) (Nat.lt_succ_self _) rfl rfl rfl (fun task hTask => ?_)
      fun _ => .inl ((hMem w.nextTask).mpr (.inr List.mem_cons_self))
    · have hLt := h.alert.lt t ht
      omega
    · exact hTask.imp (fun hTask => (hMem task).mpr (.inl hTask)) id
  · intro t' ht' slot hAwaits
    rcases List.mem_append.mp ht' with ht' | ht'
    · exact h.clear t' ht' slot hAwaits
    · obtain rfl := List.mem_singleton.mp ht'
      cases hAwaits

theorem openSlot (h : w.Heeds own) : (w.perform .openSlot).2.Heeds (insert w.slots.length own) := by
  have hLength : (w.perform .openSlot).2.slots.length = w.slots.length + 1 := by simp [perform]
  refine ⟨?_, ?_, ?_⟩
  · refine h.alert.mono rfl rfl (fun t ht hResume => .inl ?_) fun _ hTask => hTask
    have hSame : (w.perform .openSlot).2.canResume t.2 = w.canResume t.2 :=
      canResume_congr rfl fun slot hAwaits => List.getElem?_append_left (h.clear t ht slot hAwaits).2
    rwa [hSame] at hResume
  · intro t ht slot hAwaits
    obtain ⟨hNot, hLt⟩ := h.clear t ht slot hAwaits
    refine ⟨?_, by omega⟩
    rintro (rfl | hOwn)
    · exact Nat.lt_irrefl _ hLt
    · exact hNot hOwn
  · rintro slot (rfl | hOwn)
    · omega
    · have hLt := h.opened slot hOwn
      omega

theorem sdiff (h : w.Heeds own) (slot : Nat) : w.Heeds (own \ {slot}) where
  alert := h.alert
  clear t ht slot' hAwaits := by
    obtain ⟨hNot, hLt⟩ := h.clear t ht slot' hAwaits
    exact ⟨fun hOwn => hNot hOwn.1, hLt⟩
  opened slot' hOwn := h.opened slot' hOwn.1

theorem setSlot (h : w.Heeds own) (hSlot : slot ∈ own) (s : Slot) : (w.setSlot slot s).Heeds own := by
  have hLength : (w.setSlot slot s).slots.length = w.slots.length := List.length_set
  refine ⟨?_, ?_, by rw [hLength]; exact h.opened⟩
  · refine h.alert.mono rfl rfl (fun t ht hResume => .inl ?_) fun _ hTask => hTask
    have hSame : (w.setSlot slot s).canResume t.2 = w.canResume t.2 := by
      refine canResume_congr rfl fun other hAwaits => getElem?_setSlot_of_ne fun hEq => ?_
      exact (h.clear t ht other hAwaits).1 (hEq ▸ hSlot)
    rwa [hSame] at hResume
  · intro t ht other hAwaits
    rw [hLength]
    exact h.clear t ht other hAwaits

theorem finish (h : w.Heeds own) (hSlot : slot ∈ own) (s : Slot) : (w.finish slot s).Heeds own :=
  (h.setSlot hSlot s).idle rfl rfl rfl rfl rfl rfl

theorem abandon (h : w.Heeds own) (hSlot : slot ∈ own) : (w.abandon slot).Heeds own := by
  unfold World.abandon
  split
  · exact h.finish hSlot _
  · exact h.finish hSlot _
  · exact h

theorem drop {x : Waiting α} (h : w.Heeds own) (hKeeps : x.KeepsTo own) : (w.drop x).Alert := by
  have hResume := hKeeps 0
  cases x with
  | ready _ => exact h.alert
  | sleeping _ _ => exact h.alert
  | awaiting slot _ _ =>
    cases hResume with
    | await hSlot _ => exact (h.abandon hSlot).alert
  | postponed slot _ _ =>
    cases hResume with
    | await hSlot _ => exact (h.abandon hSlot).alert

theorem signal (h : w.Heeds own) (slot : Nat) (s : Slot) :
    ((w.setSlot slot s).wake (·.awaits slot)).Heeds own := by
  obtain ⟨q, hq⟩ := (w.setSlot slot s).enqueueAll_eq
    (((w.setSlot slot s).tasks.filter (·.2.awaits slot)).map (·.1))
  have hLength : (w.setSlot slot s).slots.length = w.slots.length := List.length_set
  refine ⟨?_, ?_, ?_⟩
  · refine h.alert.wake rfl rfl rfl rfl fun t ht hResume => ?_
    by_cases hAwaits : t.2.awaits slot
    · exact .inr hAwaits
    · have hSame : (w.setSlot slot s).canResume t.2 = w.canResume t.2 :=
        canResume_congr rfl fun other hOther => getElem?_setSlot_of_ne fun hEq => hAwaits (hEq ▸ hOther)
      exact .inl (hSame ▸ hResume)
  · intro t ht other hAwaits
    rw [World.wake, hq] at ht ⊢
    rw [hLength]
    exact h.clear t ht other hAwaits
  · rw [World.wake, hq, hLength]
    exact h.opened

theorem settle (h : w.Heeds own) (slot : Nat) (r : Result) : (w.settle slot r).2.Heeds own := by
  unfold World.settle
  split
  · exact h.signal slot _
  · exact h

theorem letGo (h : w.Heeds own) (holder : Holder) (slot : Nat) : (w.letGo holder slot).Heeds own := by
  have hLeft : World.Heeds { w with holds := w.holds.erase (holder, slot) } own :=
    h.idle rfl rfl rfl rfl rfl rfl
  unfold World.letGo World.close
  dsimp only
  split
  · exact hLeft
  · split
    · exact hLeft.signal slot .closed
    · exact hLeft

theorem collectSlot? {timeout : Option Nat} {y : Option Result} (h : w.Heeds own) (hSlot : slot ∈ own)
    (hCollect : w.collectSlot? slot timeout = some (y, w')) : w'.Heeds own := by
  unfold World.collectSlot? at hCollect
  split at hCollect
  · cases hCollect
    exact h.finish hSlot _
  · split at hCollect
    · cases hCollect
      exact (h.finish hSlot .expired).idle rfl rfl rfl rfl rfl rfl
    · cases hCollect
  · cases hCollect
    exact h

end Heeds

theorem lt_dueAfter (w : World) {ms : Nat} (hms : ms ≠ 0) : w.now < w.dueAfter ms := by
  unfold dueAfter longestWait
  omega

theorem not_canResume_awaiting {timeout : Option Nat} {next : Option Result → Async α}
    (hCollect : w.collectSlot? slot timeout = none) :
    ¬ w.canResume (.awaiting slot (timeout.map w.dueAfter) next) := by
  unfold collectSlot? at hCollect
  split at hCollect
  · cases hCollect
  · rename_i hVacant
    split at hCollect
    · cases hCollect
    · rename_i hLeft
      cases timeout with
      | none => simp [canResume, hVacant, Waiting.isDue, Waiting.due?]
      | some ms =>
        have hLt : w.now < w.dueAfter ms := w.lt_dueAfter fun hEq => hLeft (congrArg some hEq)
        simpa [canResume, hVacant, Waiting.isDue, Waiting.due?] using hLt
  · cases hCollect

theorem Alert.settleTask (hAlert : w.Alert) (hNew : ∀ t ∈ w.tasks, t.1 ≠ task) (hLt : task < w.nextTask)
    {t : Turn Unit} (hWaits : ∀ x, t = .waits x → ¬ w.canResume x) : (w.settleTask task t).Alert := by
  have hFollow {w : World} (hAlert : w.Alert) : (w.followUp task).Alert := by
    unfold followUp
    split
    · obtain ⟨q, hq, hMem⟩ := w.enqueueAll_spec [task]
      change (w.enqueueAll [task]).Alert
      rw [hq]
      refine hAlert.mono rfl rfl (fun t _ hResume => .inl hResume) fun other hOther => ?_
      exact hOther.imp (fun hOther => (hMem other).mpr (.inl hOther)) id
    · exact hAlert
  cases t with
  | finished _ => exact hAlert
  | panicked _ => exact hAlert
  | waits x =>
    refine hFollow (hAlert.add hNew (Nat.le_refl _) hLt rfl rfl rfl (fun _ hOther => hOther) fun hResume => ?_)
    exact absurd hResume (hWaits x rfl)
  | yields x =>
    refine hFollow (hAlert.add hNew (Nat.le_refl _) hLt rfl rfl rfl (fun other hOther => ?_) fun _ => ?_)
    · exact hOther.imp id (List.mem_cons_of_mem task)
    · exact .inr List.mem_cons_self

end World

/-- The turn of a program keeps a world alert, and if it ends in a wait the program cannot go on for now. -/
theorem Program.KeepsTo.turn_heeds {α : Type} {p : Async α} {own : Set Nat} {post : α → Prop}
    (h : p.KeepsTo own post) {w : World} (hHeeds : w.Heeds own) :
    (p.turn w).2.Alert ∧ ∀ x, (p.turn w).1 = .waits x → ¬ (p.turn w).2.canResume x := by
  induction h generalizing w with
  | pure _ => exact ⟨hHeeds.alert, nofun⟩
  | panic _ => exact ⟨hHeeds.alert, nofun⟩
  | yield _ _ => exact ⟨hHeeds.alert, nofun⟩
  | fork _ _ _ ih => exact ih (hHeeds.start _)
  | openSlot _ ih =>
    have hFresh := fun hOwn => Nat.lt_irrefl _ (hHeeds.opened w.slots.length hOwn)
    exact ih _ hFresh hHeeds.openSlot
  | abandon hSlot _ ih => exact ih () ((hHeeds.abandon hSlot).sdiff _)
  | @act _ own _ a next ha h ih =>
    cases a with
    | settle slot r => exact ih _ (hHeeds.settle slot r)
    | openSlot => exact ha.elim
    | abandon slot => exact ha.elim
    | release holder slot => exact ih _ (hHeeds.letGo holder slot)
    | _ => exact ih _ (hHeeds.idle rfl rfl rfl rfl rfl rfl)
  | report _ ih => exact ih (hHeeds.idle rfl rfl rfl rfl rfl rfl)
  | notice _ ih => exact ih (hHeeds.idle rfl rfl rfl rfl rfl rfl)
  | @sleep _ own _ ms next h ih =>
    unfold turn
    split
    · exact ⟨hHeeds.alert, fun _ hWaits => by cases hWaits⟩
    · split
      · exact ih (hHeeds.idle rfl rfl rfl rfl rfl rfl)
      · rename_i hms
        refine ⟨hHeeds.alert, ?_⟩
        rintro x ⟨⟩
        have hLt : w.now < w.dueAfter ms := w.lt_dueAfter hms
        exact fun hResume => absurd (of_decide_eq_true hResume) (Nat.not_le.mpr hLt)
  | @await _ own _ slot timeout next hSlot h ih =>
    unfold turn
    split
    · exact ⟨hHeeds.alert, fun _ hWaits => by cases hWaits⟩
    · split
      · rename_i hCollect
        have hTaken := (hHeeds.collectSlot? hSlot hCollect).sdiff slot
        exact ih _ (hTaken.idle rfl rfl rfl rfl rfl rfl)
      · rename_i hCollect
        refine ⟨hHeeds.alert, ?_⟩
        rintro x ⟨⟩
        exact World.not_canResume_awaiting hCollect

def Progress.scene {α : Type} : Progress α → Scene
  | ended _ w => ⟨none, w⟩
  | waits main w => ⟨some ⟨α, main⟩, w⟩

theorem Progress.world_scene {α : Type} (progress : Progress α) : progress.scene.world = progress.world := by
  cases progress <;> rfl

namespace Scene

variable {α : Type} {main : Option ((α : Type) × Waiting α)} {c c₁ c' : Scene} {w w' : World}
  {own : Option Nat → Set Nat} {h : History} {limit : Option Nat}

structure Ready (c : Scene) : Prop where
  sound : ∃ own, c.Sound own
  alert : c.world.Alert

/-- From a scene that is in order the pace of the clock leads to another one, and leaves these marks. -/
def RunsTo (c : Scene) (l : Chronicle) (c' : Scene) : Prop := c.Ready → c'.Ready ∧ c.Runs l c'

theorem ready_init : Ready ⟨none, {}⟩ := ⟨⟨_, sound_init⟩, List.nodup_nil, nofun, nofun⟩

theorem Runs.ready {l : Chronicle} (hRuns : c.Runs l c') (hReady : c.Ready) (hAlert : c'.world.Alert) :
    c'.Ready := by
  obtain ⟨own, hSound⟩ := hReady.sound
  exact ⟨(hRuns.reaches.sound hSound).1, hAlert⟩

namespace RunsTo

protected theorem refl (c : Scene) : c.RunsTo [] c := fun hReady => ⟨hReady, .refl c⟩

theorem trans {l l' : Chronicle} (first : c.RunsTo l c₁) (second : c₁.RunsTo l' c') : c.RunsTo (l ++ l') c' := by
  intro hReady
  obtain ⟨hReady₁, hFirst⟩ := first hReady
  obtain ⟨hReady', hSecond⟩ := second hReady₁
  exact ⟨hReady', hFirst.trans hSecond⟩

theorem move (hMove : c.Move h c') (hNow : c'.world.now = c.world.now)
    (hAlert : ∀ own, c.Sound own → c.world.Alert → c'.world.Alert) :
    c.RunsTo (h.stamped c.world.now) c' := by
  intro hReady
  obtain ⟨own, hSound⟩ := hReady.sound
  have hRuns := Runs.single hMove (.inl hNow)
  exact ⟨hRuns.ready hReady (hAlert own hSound hReady.alert), hRuns⟩

theorem pass (hSlots : w'.slots = w.slots) (hRefs : w'.holds = w.holds) (hTasks : w'.tasks = w.tasks)
    (hNext : w'.nextTask = w.nextTask) (hNow : w'.now = w.now) (hAlert : w.Alert → w'.Alert) :
    RunsTo ⟨main, w⟩ [] ⟨main, w'⟩ :=
  move (.pass hSlots hRefs hTasks hNext) hNow fun _ _ => hAlert

theorem idle (hSlots : w'.slots = w.slots) (hRefs : w'.holds = w.holds) (hTasks : w'.tasks = w.tasks)
    (hNext : w'.nextTask = w.nextTask) (hNow : w'.now = w.now) (hQueue : w'.queue = w.queue)
    (hYielding : w'.yielding = w.yielding) : RunsTo ⟨main, w⟩ [] ⟨main, w'⟩ :=
  pass hSlots hRefs hTasks hNext hNow fun hAlert => hAlert.idle hTasks hNext hSlots hNow hQueue hYielding

end RunsTo

theorem mem_of_awaits {x : Waiting α} {slot : Nat} {own : Set Nat} (hAwaits : x.awaits slot)
    (hKeeps : x.KeepsTo own) : slot ∈ own := by
  have hResume := hKeeps 0
  cases x with
  | ready _ => cases hAwaits
  | sleeping _ _ => cases hAwaits
  | postponed _ _ _ => cases hAwaits
  | awaiting slot' due next =>
    obtain rfl := beq_iff_eq.mp hAwaits
    cases hResume with
    | await hSlot _ => exact hSlot

theorem Sound.heeds (hSound : c.Sound own) (k : Option Nat) (hAlert : w.Alert)
    (hTasks : ∀ t ∈ w.tasks, t ∈ c.world.tasks ∧ some t.1 ≠ k) (hSlots : w.slots = c.world.slots) :
    w.Heeds (own k) where
  alert := hAlert
  clear t ht slot hAwaits := by
    obtain ⟨hOld, hne⟩ := hTasks t ht
    have hMem := mem_of_awaits hAwaits (hSound.tasks t hOld).2
    refine ⟨fun hOwn => Set.disjoint_left.mp (hSound.apart _ _ hne) hMem hOwn, ?_⟩
    rw [hSlots]
    exact World.lt_length_of_isOpen (hSound.holds _ slot hMem).1
  opened slot hOwn := by
    rw [hSlots]
    exact World.lt_length_of_isOpen (hSound.holds k slot hOwn).1

theorem runsTo_dropMain (w : World) (x : Waiting α) :
    RunsTo ⟨some ⟨α, x⟩, w⟩ (x.dropMarks.stamped w.now) ⟨none, w.drop x⟩ := by
  refine .move (.dropMain x w) (World.now_drop w x) fun own hSound hAlert => ?_
  have hHeeds : w.Heeds (own none) := hSound.heeds none hAlert (fun t ht => ⟨ht, nofun⟩) rfl
  exact hHeeds.drop (hSound.main ⟨α, x⟩ rfl)

theorem runsTo_wait (w : World) (limit : Option Nat) (x : Waiting α) :
    RunsTo ⟨some ⟨α, x⟩, w⟩ ((w.waitMarks limit x).stamped w.now) (w.wait limit x).scene := by
  unfold World.wait World.waitMarks
  split
  · exact runsTo_dropMain w x
  · exact .refl _

theorem runsTo_turnMain (w : World) (limit : Option Nat) (x : Waiting α) :
    RunsTo ⟨some ⟨α, x⟩, w⟩ ((w.turnMainMarks limit (x.resume w.now)).stamped w.now)
      (w.turnMain limit (x.resume w.now)).scene := by
  have hTurn : RunsTo ⟨some ⟨α, x⟩, w⟩ (((x.resume w.now).marks w).stamped w.now)
      ⟨((x.resume w.now).turn w).1.rest.map (⟨α, ·⟩), ((x.resume w.now).turn w).2⟩ := by
    refine .move (.turnMain x w) (World.now_turn _ w) fun own hSound hAlert => ?_
    have hHeeds : w.Heeds (own none) := hSound.heeds none hAlert (fun t ht => ⟨ht, nofun⟩) rfl
    exact (Program.KeepsTo.turn_heeds (hSound.main ⟨α, x⟩ rfl w.now) hHeeds).1
  have hNow := World.now_turn (x.resume w.now) w
  unfold World.turnMain
  split <;> rename_i h <;> rw [h] at hTurn hNow <;>
    simp only [World.turnMainMarks, h, Turn.rest, List.append_nil, History.stamped_append]
  · exact hTurn
  · exact hTurn
  · exact hTurn.trans (hNow ▸ runsTo_wait _ _ _)
  · exact hTurn.trans (hNow ▸ runsTo_wait _ _ _)

theorem Sound.alert_turnTask {task : Nat} {x : Waiting Unit} (hSound : Sound ⟨main, w⟩ own)
    (hTask : (task, x) ∈ w.tasks) (hAlert : (w.without task).Alert) :
    (((x.resume w.now).turn (w.without task)).2.settleTask task
      ((x.resume w.now).turn (w.without task)).1).Alert := by
  obtain ⟨hLt, hKeeps⟩ := hSound.tasks (task, x) hTask
  have hHolds : (w.without task).Holds (own (some task)) := hSound.holds (some task)
  have hHeeds : (w.without task).Heeds (own (some task)) :=
    hSound.heeds (some task) hAlert (fun _ => mem_without) rfl
  obtain ⟨hAlert', hWaits⟩ := (hKeeps w.now).turn_heeds hHeeds
  obtain ⟨own', hPasses, -⟩ := (hKeeps w.now).turnPasses hHolds
  refine hAlert'.settleTask (fun t ht hEq => ?_) (Nat.lt_of_lt_of_le hLt hPasses.nextTask) hWaits
  obtain ⟨new, hTasks, hNew⟩ := hPasses.tasks
  rw [hTasks] at ht
  rcases List.mem_append.mp ht with ht | ht
  · exact (mem_without ht).2 (congrArg some hEq)
  · have hGe : w.nextTask ≤ t.1 := (hNew t ht).1
    have hLt : task < w.nextTask := hLt
    omega

/-- The task at the head of the queue leaves it for its turn. In between the world is not alert. -/
theorem runsTo_turnHead (w' : World) {task : Nat} {x : Waiting Unit} (hQueue : w.queue = task :: w'.queue)
    (hSlots : w'.slots = w.slots) (hRefs : w'.holds = w.holds) (hTasks : w'.tasks = w.tasks)
    (hNext : w'.nextTask = w.nextTask) (hNow : w'.now = w.now) (hYielding : w'.yielding = w.yielding)
    (hTask : (task, x) ∈ w'.tasks) :
    RunsTo ⟨main, w⟩ (((x.resume w'.now).marks (w'.without task)).stamped w'.now)
      ⟨main, ((x.resume w'.now).turn (w'.without task)).2.settleTask task
        ((x.resume w'.now).turn (w'.without task)).1⟩ := by
  intro hReady
  obtain ⟨own, hSound⟩ := hReady.sound
  have hBegin : Move ⟨main, w⟩ [] ⟨main, w'⟩ := .pass hSlots hRefs hTasks hNext
  obtain ⟨⟨own', hSound'⟩, -⟩ := hBegin.sound hSound
  have hRest : (w'.without task).tasks.Sublist w.tasks := hTasks ▸ List.filter_sublist
  have hOthers : (w'.without task).Alert :=
    hReady.alert.pop hQueue hRest hNext hSlots hNow hYielding fun t ht _ hEq =>
      (mem_without ht).2 (congrArg some hEq)
  let t := (x.resume w'.now).turn (w'.without task)
  have hStill : (t.2.settleTask task t.1).now = w'.now :=
    (World.now_settleTask _ task _).trans (World.now_turn _ (w'.without task))
  have hRuns := (Runs.single hBegin (.inl hNow)).trans (Runs.single (.turnTask hTask) (.inl hStill))
  exact ⟨hRuns.ready hReady (hSound'.alert_turnTask hTask hOthers), hRuns⟩

theorem runsTo_turnTask {task : Nat} {rest : List Nat} (hQueue : w.queue = task :: rest) :
    RunsTo ⟨main, w⟩
      ((World.turnTaskMarks { w with queue := rest, streak := w.streak + 1 } task).stamped w.now)
      ⟨main, World.turnTask { w with queue := rest, streak := w.streak + 1 } task⟩ := by
  intro hReady
  let popped : World := { w with queue := rest, streak := w.streak + 1 }
  have hPopped (hOther : ∀ t ∈ w.tasks, w.canResume t.2 → t.1 ≠ task) :
      RunsTo ⟨main, w⟩ [] ⟨main, popped⟩ := by
    refine .pass rfl rfl rfl rfl rfl fun hAlert => ?_
    exact hAlert.pop hQueue (List.Sublist.refl _) rfl rfl rfl rfl hOther
  cases hLookup : w.tasks.lookup task with
  | none =>
    simp only [World.turnTask, World.turnTaskMarks, hLookup]
    refine hPopped (fun t ht _ hEq => ?_) hReady
    exact absurd (List.lookup_eq_none_iff.mp hLookup t ht) (by simp [hEq])
  | some x =>
    obtain ⟨before, after, hTasks, -⟩ := List.lookup_eq_some_iff.mp hLookup
    have hMem : (task, x) ∈ w.tasks := by simp [hTasks]
    simp only [World.turnTask, World.turnTaskMarks, hLookup]
    split
    · have hTurn : RunsTo ⟨main, w⟩ _ _ := runsTo_turnHead popped.beginTurn hQueue rfl rfl rfl rfl rfl rfl hMem
      rw [← List.append_nil (History.stamped _ _)]
      exact hTurn.trans (.idle rfl rfl rfl rfl rfl rfl rfl) hReady
    · rename_i hResume
      refine hPopped (fun t ht hOther hEq => hResume ?_) hReady
      have hSame : t = (task, x) := List.inj_on_of_nodup_map hReady.alert.nodup ht hMem hEq
      rw [hSame] at hOther
      exact hOther

theorem paced_advance {x : Waiting α} {time : Nat} (hMain : ¬ w.canResume x)
    (hTasks : ∀ t ∈ w.tasks, ¬ w.canResume t.2) (hDue : ∀ due ∈ x.due?, time ≤ due)
    (hDues : ∀ t ∈ w.tasks, ∀ due ∈ t.2.due?, time ≤ due) :
    Paced ⟨some ⟨α, x⟩, w⟩ ⟨some ⟨α, x⟩, w.advance time⟩ := by
  have hNow : (w.advance time).now = max w.now time := by
    obtain ⟨q, hq⟩ := w.advance_eq time
    rw [hq]
  have hLe {due : Nat} (hBefore : w.now < due) (hTime : time ≤ due) : (w.advance time).now ≤ due :=
    hNow ▸ Nat.max_le.mpr ⟨Nat.le_of_lt hBefore, hTime⟩
  have hNobody : ¬ CanGoOn ⟨some ⟨α, x⟩, w⟩ := by
    rintro (⟨m, ⟨⟩, hResume⟩ | ⟨t, ht, hResume⟩)
    · exact hMain hResume
    · exact hTasks t ht hResume
  refine .inr ⟨hNow ▸ Nat.le_max_left _ _, hNobody, ?_, fun t ht due hd => ?_⟩
  · rintro m ⟨⟩ due hd
    exact hLe (World.lt_due_of_not_canResume hMain due hd) (hDue due hd)
  · exact hLe (World.lt_due_of_not_canResume (hTasks t ht) due hd) (hDues t ht due hd)

theorem runsTo_advance {x : Waiting α} {time : Nat} (hMain : ¬ w.canResume x) (hQueue : w.queue = [])
    (hYielding : w.yielding = []) (hMin : (w.dues x limit).min? = some time) :
    RunsTo ⟨some ⟨α, x⟩, w⟩ [] ⟨some ⟨α, x⟩, w.advance time⟩ := by
  intro hReady
  have hMove : Move ⟨some ⟨α, x⟩, w⟩ [] ⟨some ⟨α, x⟩, w.advance time⟩ := by
    obtain ⟨q, hq⟩ := w.advance_eq time
    rw [hq]
    exact .pass rfl rfl rfl rfl
  obtain ⟨hDue, hDues⟩ := World.le_due_of_min hMin
  have hTasks := hReady.alert.not_canResume hQueue hYielding
  have hRuns := Runs.single hMove (paced_advance hMain hTasks hDue hDues)
  exact ⟨hRuns.ready hReady (hReady.alert.advance time), hRuns⟩

theorem runsTo_rested (main : Option ((α : Type) × Waiting α)) (w : World) :
    RunsTo ⟨main, w⟩ [] ⟨main, w.rested⟩ := by
  have hStreak : RunsTo ⟨main, w⟩ [] ⟨main, { w with streak := 0 }⟩ := .idle rfl rfl rfl rfl rfl rfl rfl
  obtain ⟨q, hq⟩ := w.rested_eq
  have hWoken : RunsTo ⟨main, { w with streak := 0 }⟩ [] ⟨main, w.rested⟩ := by
    refine .pass ?_ ?_ ?_ ?_ ?_ World.Alert.wakeYielding <;> rw [hq]
  exact hStreak.trans hWoken

theorem runsTo_look (w : World) (limit : Option Nat) (x : Waiting α) :
    RunsTo ⟨some ⟨α, x⟩, w⟩ ((w.beginTurn.turnMainMarks limit (x.resume w.now)).stamped w.now)
      (w.beginTurn.turnMain limit (x.resume w.now)).scene := by
  have hBegin : RunsTo ⟨some ⟨α, x⟩, w⟩ [] ⟨some ⟨α, x⟩, w.beginTurn⟩ := .idle rfl rfl rfl rfl rfl rfl rfl
  exact hBegin.trans (runsTo_turnMain w.beginTurn limit x)

theorem runsTo_lookAt (limit : Option Nat) (x : Waiting α) (hYielding : w.yielding = []) :
    RunsTo ⟨some ⟨α, x⟩, w⟩ (w.lookChronicle limit x) (w.lookAt limit x).scene := by
  unfold World.lookAt World.lookChronicle
  split
  · exact runsTo_look w limit x
  · rename_i hMain
    split
    · exact .refl _
    · rename_i hEmpty
      split
      · exact runsTo_dropMain w x
      · rename_i hMin
        have hLater := runsTo_advance hMain (by simpa using hEmpty) hYielding hMin
        split
        · exact hLater.trans (runsTo_look _ limit x)
        · exact hLater.trans (runsTo_wait _ limit x)

theorem runsTo_attend (w : World) (limit : Option Nat) (x : Waiting α) :
    RunsTo ⟨some ⟨α, x⟩, w⟩ (w.attendChronicle limit x) (w.attend limit x).scene := by
  have hYielding : w.rested.yielding = [] := by
    obtain ⟨q, hq⟩ := w.rested_eq
    rw [hq]
  rw [World.attend_eq]
  exact (runsTo_rested _ w).trans (runsTo_lookAt limit x hYielding)

theorem runsTo_step (w : World) (limit : Option Nat) (x : Waiting α) :
    RunsTo ⟨some ⟨α, x⟩, w⟩ (w.stepChronicle limit x) (w.step limit x).scene := by
  cases hQueue : w.queue with
  | nil =>
    simp only [World.step, World.stepChronicle, hQueue]
    exact runsTo_attend w limit x
  | cons task rest =>
    simp only [World.step, World.stepChronicle, hQueue]
    split
    · exact runsTo_turnTask hQueue
    · exact runsTo_attend w limit x

theorem runsTo_drive (limit : Option Nat) (turns : Nat) (x : Waiting α) (w : World) :
    ∃ main, RunsTo ⟨some ⟨α, x⟩, w⟩ (World.driveChronicle limit turns x w)
      ⟨main, (World.drive limit turns x w).2⟩ := by
  induction turns generalizing x w with
  | zero => exact ⟨_, .refl _⟩
  | succ turns ih =>
    have hStep := runsTo_step w limit x
    rw [World.drive, World.driveChronicle]
    cases hEq : w.step limit x with
    | ended e w₁ =>
      rw [hEq] at hStep
      exact ⟨none, hStep.trans (.refl _)⟩
    | waits x₁ w₁ =>
      rw [hEq] at hStep
      obtain ⟨main, hRest⟩ := ih x₁ w₁
      exact ⟨main, hStep.trans hRest⟩

theorem runsTo_begin {p : Async α} (h : p.Proper) (limit : Option Nat) (w : World) :
    RunsTo ⟨none, w⟩ ((w.turnMainMarks limit p).stamped w.now) (w.turnMain limit p).scene := by
  have hStart : RunsTo ⟨none, w⟩ [] ⟨some ⟨α, .ready p⟩, w⟩ := .move (.start h w) rfl fun _ _ hAlert => hAlert
  exact hStart.trans (runsTo_turnMain w limit (.ready p))

/-- Every run of a world keeps pace with the clock. -/
theorem runsTo_run {p : Async α} (h : p.Proper) (turns : Nat) (limit : Option Nat) (w : World) :
    ∃ main, RunsTo ⟨none, w⟩ (w.chronicle turns limit p) ⟨main, (World.run turns limit p w).2⟩ := by
  have hBegin := runsTo_begin h (limit.map (w.now + ·)) w
  simp only [World.run, World.chronicle]
  cases hEq : w.turnMain (limit.map (w.now + ·)) p with
  | ended e w₁ =>
    rw [hEq] at hBegin
    exact ⟨none, hBegin.trans (.refl _)⟩
  | waits x w₁ =>
    rw [hEq] at hBegin
    obtain ⟨main, hRest⟩ := runsTo_drive (limit.map (w.now + ·)) turns x w₁
    exact ⟨main, hBegin.trans hRest⟩

end Scene

end TestBench
