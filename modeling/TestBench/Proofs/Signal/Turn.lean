import TestBench.Proofs.Signal.History
import TestBench.Proofs.Signal.Discipline
import TestBench.Proofs.World.Growth

/-! # The marks of a turn

Which marks a program leaves on the slots in one of its turns. Main statement: in the turn of a program
that keeps to its slots every slot lives on by these marks, and the slots of other programs stay open
(`Program.KeepsTo.turnPasses`).
-/

namespace TestBench

def World.marks (w : World) : Action → History
  | .openSlot => [(w.slots.length, .opened)]
  | .settle slot result => [(slot, .signalled result (w.settle slot result).1)]
  | .abandon slot => [(slot, .dropped)]
  | _ => []

/-- The marks that a program leaves in a turn that begins in a world. -/
def Program.marks {α : Type} : Async α → World → History
  | .pure _, _ | .panic _, _ | .yield _, _ => []
  | .fork task next, w => next.marks (w.start task)
  | .act a next, w => w.marks a ++ (next (w.perform a).1).marks (w.perform a).2
  | .report r next, w => next.marks { w with reports := w.reports ++ [r] }
  | .notice e next, w => next.marks { w with events := w.events ++ [e] }
  | .sleep ms next, w => if w.budget = 0 then [] else if ms = 0 then next.marks w.spend else []
  | .await slot timeout next, w =>
      if w.budget = 0 then []
      else match w.collectSlot? slot timeout with
        | some (result, w') => (slot, .looked (some result)) :: (next result).marks w'.spend
        | none => [(slot, .looked none)]

/-- A waiting program keeps to some slots, whatever the time is when it goes on. -/
def Waiting.KeepsTo {α : Type} (own : Set Nat) (x : Waiting α) : Prop :=
  ∀ now, (x.resume now).KeepsTo own fun _ => True

def Waiting.dropMarks {α : Type} : Waiting α → History
  | .awaiting slot _ _ | .postponed slot _ _ => [(slot, .dropped)]
  | _ => []

def Turn.rest {α : Type} : Turn α → Option (Waiting α)
  | .finished _ | .panicked _ => none
  | .waits x | .yields x => some x

namespace World

/-- While a slot is open its call holds it. -/
def Backed (w : World) (slot : Nat) : Prop := Slot.IsOpen w.slots[slot]? → (.call, slot) ∈ w.holds

theorem backed_init (slot : Nat) : ({} : World).Backed slot := by simp [Backed, Slot.IsOpen]

/-- The slots are open, and their calls hold them. -/
def Holds (w : World) (own : Set Nat) : Prop :=
  ∀ slot ∈ own, Slot.IsOpen w.slots[slot]? ∧ (.call, slot) ∈ w.holds

/-- Marks take one world to another, and the slots that a program owns to those that it then owns. The
slots that others own stay open and theirs, and no call loses its reference while its slot is open. Tasks are
added only, each with a new number and no slot. -/
structure Passes (w : World) (own : Set Nat) (h : History) (w' : World) (own' : Set Nat) : Prop where
  lives : ∀ slot, w.Backed slot → Slot.Lives w.slots[slot]? (h.on slot) w'.slots[slot]?
  backed : ∀ slot, w.Backed slot → w'.Backed slot
  holds : ∀ others, Disjoint own others → w.Holds (own ∪ others) →
    Disjoint own' others ∧ w'.Holds (own' ∪ others)
  nextTask : w.nextTask ≤ w'.nextTask
  tasks : ∃ new, w'.tasks = w.tasks ++ new ∧
    ∀ t ∈ new, w.nextTask ≤ t.1 ∧ t.1 < w'.nextTask ∧ t.2.KeepsTo ∅

namespace Passes

variable {w w₁ w₂ : World} {own own₁ own₂ : Set Nat} {h h' : History}

theorem trans (first : w.Passes own h w₁ own₁) (second : w₁.Passes own₁ h' w₂ own₂) :
    w.Passes own (h ++ h') w₂ own₂ where
  lives slot hBacked := by
    rw [History.on_append]
    exact (first.lives slot hBacked).append (second.lives slot (first.backed slot hBacked))
  backed slot hBacked := second.backed slot (first.backed slot hBacked)
  holds others hApart hHolds := by
    obtain ⟨hApart₁, hHolds₁⟩ := first.holds others hApart hHolds
    exact second.holds others hApart₁ hHolds₁
  nextTask := Nat.le_trans first.nextTask second.nextTask
  tasks := by
    obtain ⟨new, hTasks, hNew⟩ := first.tasks
    obtain ⟨new', hTasks', hNew'⟩ := second.tasks
    refine ⟨new ++ new', by rw [hTasks', hTasks, List.append_assoc], fun t ht => ?_⟩
    have hFirst := first.nextTask
    have hSecond := second.nextTask
    rcases List.mem_append.mp ht with ht | ht
    · obtain ⟨hLow, hHigh, hKeeps⟩ := hNew t ht
      exact ⟨hLow, by omega, hKeeps⟩
    · obtain ⟨hLow, hHigh, hKeeps⟩ := hNew' t ht
      exact ⟨by omega, hHigh, hKeeps⟩

theorem holds_own (h' : w.Passes own h w₁ own₁) (hHolds : w.Holds own) : w₁.Holds own₁ := by
  have hBoth := (h'.holds ∅ (Set.disjoint_empty own) (by rwa [Set.union_empty])).2
  rwa [Set.union_empty] at hBoth

theorem still (hSlots : ∀ slot, w.Backed slot → w₁.slots[slot]? = w.slots[slot]?)
    (hRefs : ∀ slot, (.call, slot) ∈ w.holds → (.call, slot) ∈ w₁.holds) (hTasks : w₁.tasks = w.tasks)
    (hNext : w₁.nextTask = w.nextTask) : w.Passes own [] w₁ own where
  lives slot hBacked := hSlots slot hBacked ▸ .nil _
  backed slot hBacked hOpen := hRefs slot (hBacked (hSlots slot hBacked ▸ hOpen))
  holds others hApart hHolds := by
    refine ⟨hApart, fun slot hSlot => ?_⟩
    obtain ⟨hOpen, hRef⟩ := hHolds slot hSlot
    exact ⟨(hSlots slot fun _ => hRef) ▸ hOpen, hRefs slot hRef⟩
  nextTask := Nat.le_of_eq hNext.symm
  tasks := ⟨[], by simpa using hTasks, nofun⟩

theorem idle (hSlots : w₁.slots = w.slots) (hRefs : w₁.holds = w.holds) (hTasks : w₁.tasks = w.tasks)
    (hNext : w₁.nextTask = w.nextTask) : w.Passes own [] w₁ own :=
  .still (fun _ _ => by rw [hSlots]) (fun _ hRef => hRefs ▸ hRef) hTasks hNext

theorem mark {slot : Nat} {m : Mark} (hMark : Slot.Next w.slots[slot]? m w₁.slots[slot]?)
    (hSame : ∀ other, other ≠ slot → w₁.slots[other]? = w.slots[other]? ∧
      ((.call, other) ∈ w.holds → (.call, other) ∈ w₁.holds))
    (hBacked : w.Backed slot → w₁.Backed slot)
    (hOpen : ∀ others, Disjoint own others → w.Holds (own ∪ others) →
      Disjoint own₁ others ∧ (own₁ ⊆ insert slot own) ∧
        (slot ∈ own₁ ∪ others → Slot.IsOpen w₁.slots[slot]? ∧ (.call, slot) ∈ w₁.holds))
    (hTasks : w₁.tasks = w.tasks) (hNext : w₁.nextTask = w.nextTask) :
    w.Passes own [(slot, m)] w₁ own₁ where
  lives other _ := by
    by_cases hEq : slot = other
    · subst hEq
      exact (History.on_cons_self m []) ▸ .single hMark
    · rw [History.on_cons_of_ne hEq, (hSame other (Ne.symm hEq)).1]
      exact .nil _
  backed other hOther := by
    by_cases hEq : other = slot
    · subst hEq
      exact hBacked hOther
    · obtain ⟨hSlots, hRefs⟩ := hSame other hEq
      exact fun hOpen => hRefs (hOther (hSlots ▸ hOpen))
  holds others hApart hHolds := by
    obtain ⟨hApart₁, hSub, hOpen⟩ := hOpen others hApart hHolds
    refine ⟨hApart₁, fun other hOther => ?_⟩
    by_cases hEq : other = slot
    · subst hEq
      exact hOpen hOther
    · obtain ⟨hSlots, hRefs⟩ := hSame other hEq
      obtain ⟨hStays, hRef⟩ := hHolds other (hOther.imp (fun hOwn => (hSub hOwn).resolve_left hEq) id)
      exact ⟨hSlots ▸ hStays, hRefs hRef⟩
  nextTask := Nat.le_of_eq hNext.symm
  tasks := ⟨[], by simpa using hTasks, nofun⟩

end Passes

variable {w : World} {own : Set Nat} {slot : Nat}

theorem getElem?_setSlot_self {s s' : Slot} (h : w.slots[slot]? = some s') :
    (w.setSlot slot s).slots[slot]? = some s := by
  have hLt := (List.getElem?_eq_some_iff.mp h).1
  simp [setSlot, List.getElem?_set_self hLt]

theorem getElem?_setSlot_of_ne {other : Nat} {s : Slot} (h : other ≠ slot) :
    (w.setSlot slot s).slots[other]? = w.slots[other]? := by
  simp [setSlot, List.getElem?_set_ne (Ne.symm h)]

theorem lt_length_of_isOpen (h : Slot.IsOpen w.slots[slot]?) : slot < w.slots.length := by
  rcases h with h | ⟨r, h⟩ <;> exact (List.getElem?_eq_some_iff.mp h).1

theorem getElem?_openSlot_of_ne {other : Nat} (h : other ≠ w.slots.length) :
    (w.perform .openSlot).2.slots[other]? = w.slots[other]? := by
  simp only [perform, List.getElem?_append]
  grind

theorem passes_openSlot (w : World) (own : Set Nat) :
    w.Passes own (w.marks .openSlot) (w.perform .openSlot).2 (insert w.slots.length own) := by
  have hRef : (Holder.call, w.slots.length) ∈ (w.perform .openSlot).2.holds := List.mem_cons_self
  refine .mark ?_ (fun other hOther => ⟨getElem?_openSlot_of_ne hOther, List.mem_cons_of_mem _⟩)
    (fun _ _ => hRef) (fun others hApart hHolds => ?_) rfl rfl
  · simpa [perform] using .opened
  · have hFresh : w.slots.length ∉ others := fun hMem =>
      Nat.lt_irrefl _ (lt_length_of_isOpen (hHolds _ (.inr hMem)).1)
    exact ⟨Set.disjoint_insert_left.mpr ⟨hFresh, hApart⟩, subset_rfl,
      fun _ => ⟨.inl (by simp [perform]), hRef⟩⟩

theorem settle_of_vacant {r : Result} (h : w.slots[slot]? = some .vacant) :
    ∃ q, w.settle slot r = (true, { w.setSlot slot (.settled r) with queue := q }) := by
  obtain ⟨q, hq⟩ := enqueueAll_eq (w.setSlot slot (.settled r))
    (((w.setSlot slot (.settled r)).tasks.filter (·.2.awaits slot)).map (·.1))
  refine ⟨q, ?_⟩
  rw [← hq]
  simp only [settle, h, wake]

theorem settle_of_ne_vacant {r : Result} (h : w.slots[slot]? ≠ some .vacant) :
    w.settle slot r = (false, w) := by
  unfold settle
  split
  · exact absurd ‹_› h
  · rfl

theorem passes_settle {r : Result} :
    w.Passes own (w.marks (.settle slot r)) (w.settle slot r).2 own := by
  by_cases hVacant : w.slots[slot]? = some .vacant
  · obtain ⟨q, hSettle⟩ := settle_of_vacant (r := r) hVacant
    simp only [marks, hSettle]
    have hSettled := getElem?_setSlot_self (s := .settled r) hVacant
    refine .mark ?_ (fun other hOther => ⟨getElem?_setSlot_of_ne hOther, id⟩)
      (fun hBacked _ => hBacked (.inl hVacant)) (fun others hApart hHolds => ?_) rfl rfl
    · change Slot.Next _ _ (w.setSlot slot (.settled r)).slots[slot]?
      rw [hVacant, hSettled]
      exact .accepted r
    · exact ⟨hApart, Set.subset_insert _ _, fun hSlot => ⟨.inr ⟨r, hSettled⟩, (hHolds slot hSlot).2⟩⟩
  · simp only [marks, settle_of_ne_vacant hVacant]
    refine .mark (.refused r hVacant) (fun _ _ => ⟨rfl, id⟩) id (fun others hApart hHolds => ?_) rfl rfl
    exact ⟨hApart, Set.subset_insert _ _, hHolds slot⟩

theorem mem_holds_finish {other : Nat} (s : Slot) (h : other ≠ slot) :
    (.call, other) ∈ (w.finish slot s).holds ↔ (.call, other) ∈ w.holds :=
  List.mem_erase_of_ne (by simpa using h)

theorem Backed.finish {other : Nat} {s : Slot} (h : w.Backed other) (hs : ¬ Slot.IsOpen (some s)) :
    (w.finish slot s).Backed other := by
  intro hOpen
  by_cases hEq : other = slot
  · subst hEq
    have hLt : other < w.slots.length := by simpa [World.finish, setSlot] using lt_length_of_isOpen hOpen
    have hSelf : (w.finish other s).slots[other]? = some s := List.getElem?_set_self hLt
    exact absurd (hSelf ▸ hOpen) hs
  · have hSame : (w.finish slot s).slots[other]? = w.slots[other]? := getElem?_setSlot_of_ne hEq
    exact (mem_holds_finish s hEq).mpr (h (hSame ▸ hOpen))

theorem passes_finish {m : Mark} {s : Slot} (hSlot : slot ∈ own) (hHolds : w.Holds own)
    (h : Slot.Next w.slots[slot]? m (some s)) (hs : ¬ Slot.IsOpen (some s)) :
    w.Passes own [(slot, m)] (w.finish slot s) (own \ {slot}) := by
  have hSelf : (w.finish slot s).slots[slot]? = some s :=
    List.getElem?_set_self (lt_length_of_isOpen (hHolds slot hSlot).1)
  refine .mark (hSelf ▸ h) (fun other hOther => ⟨getElem?_setSlot_of_ne hOther, (mem_holds_finish s hOther).mpr⟩)
    (fun hBacked => hBacked.finish hs) (fun others hApart _ => ?_) rfl rfl
  refine ⟨hApart.mono_left Set.sdiff_subset, Set.sdiff_subset.trans (Set.subset_insert _ _), ?_⟩
  rintro (hOwn | hOther)
  · exact absurd rfl hOwn.2
  · exact absurd hOther (Set.disjoint_left.mp hApart hSlot)

theorem passes_abandon (hSlot : slot ∈ own) (hHolds : w.Holds own) :
    w.Passes own [(slot, .dropped)] (w.abandon slot) (own \ {slot}) := by
  have hOpen := (hHolds slot hSlot).1
  have hEq : w.abandon slot = w.finish slot .abandoned := by
    rcases hOpen with h | ⟨r, h⟩ <;> simp only [abandon, h]
  exact hEq ▸ passes_finish hSlot hHolds (.dropped hOpen) (by simp [Slot.IsOpen])

theorem passes_collectSlot? {timeout : Option Nat} {x : Option Result} {w' : World} (hSlot : slot ∈ own)
    (hHolds : w.Holds own) (h : w.collectSlot? slot timeout = some (x, w')) :
    w.Passes own [(slot, .looked (some x))] w' (own \ {slot}) := by
  rcases (hHolds slot hSlot).1 with hVacant | ⟨r, hSettled⟩
  · simp only [collectSlot?, hVacant] at h
    split at h
    · obtain ⟨rfl, rfl⟩ : none = x ∧ w.expire slot = w' := by simpa using h
      -- the end of the time moves no slot but this one
      have hFinish := passes_finish hSlot hHolds (hVacant ▸ Slot.Next.expired) (by simp [Slot.IsOpen])
      exact ⟨hFinish.lives, hFinish.backed, hFinish.holds, hFinish.nextTask, hFinish.tasks⟩
    · cases h
  · simp only [collectSlot?, hSettled] at h
    obtain ⟨rfl, rfl⟩ : some r = x ∧ w.finish slot (.taken r) = w' := by simpa using h
    exact passes_finish hSlot hHolds (hSettled ▸ .taken r) (by simp [Slot.IsOpen])

theorem passes_wait {timeout : Option Nat} (hSlot : slot ∈ own) (hHolds : w.Holds own)
    (h : w.collectSlot? slot timeout = none) : w.Passes own [(slot, .looked none)] w own := by
  have hVacant : w.slots[slot]? = some .vacant := by
    rcases (hHolds slot hSlot).1 with hVacant | ⟨r, hSettled⟩
    · exact hVacant
    · simp [collectSlot?, hSettled] at h
  have hNext : Slot.Next w.slots[slot]? (.looked none) w.slots[slot]? := by
    rw [hVacant]
    exact .notYet
  refine .mark hNext (fun _ _ => ⟨rfl, id⟩) id (fun others hApart hHolds => ?_) rfl rfl
  exact ⟨hApart, Set.subset_insert _ _, hHolds slot⟩

theorem isHeld_of_mem {holder : Holder} (h : (holder, slot) ∈ w.holds) : w.isHeld slot :=
  List.any_eq_true.mpr ⟨_, h, beq_self_eq_true slot⟩

theorem close_of_ne_vacant (h : w.slots[slot]? ≠ some .vacant) : w.close slot = w := by
  unfold close
  split
  · exact absurd ‹_› h
  · rfl

theorem letGo_of_ne_vacant (holder : Holder) (h : w.slots[slot]? ≠ some .vacant) :
    w.letGo holder slot = { w with holds := w.holds.erase (holder, slot) } := by
  have hClose := close_of_ne_vacant (w := { w with holds := w.holds.erase (holder, slot) }) h
  unfold letGo
  dsimp only
  rw [hClose, ite_self]

/-- A callback that is let go was not the last reference, since the call holds its slot while that is open. -/
theorem letGo_callback (hBacked : w.Backed slot) :
    w.letGo .callback slot = { w with holds := w.holds.erase (.callback, slot) } := by
  by_cases hVacant : w.slots[slot]? = some .vacant
  · have hRef : (Holder.call, slot) ∈ w.holds.erase (.callback, slot) :=
      (List.mem_erase_of_ne (by simp)).mpr (hBacked (.inl hVacant))
    exact if_pos (isHeld_of_mem hRef)
  · exact letGo_of_ne_vacant .callback hVacant

theorem getElem?_close_of_ne {other : Nat} (h : other ≠ slot) : (w.close slot).slots[other]? = w.slots[other]? := by
  unfold close
  split
  · obtain ⟨q, hq⟩ := enqueueAll_eq (w.setSlot slot .closed)
      (((w.setSlot slot .closed).tasks.filter (·.2.awaits slot)).map (·.1))
    rw [wake, hq]
    exact getElem?_setSlot_of_ne h
  · rfl

theorem passes_release : w.Passes own [] (w.letGo .callback slot) own := by
  obtain ⟨slots, queue, -, hEq⟩ := w.letGo_eq .callback slot
  refine .still (fun other hBacked => ?_) (fun other hRef => ?_) (by rw [hEq]) (by rw [hEq])
  · by_cases hOther : other = slot
    · subst hOther
      rw [letGo_callback hBacked]
    · unfold letGo
      dsimp only
      split
      · rfl
      · exact getElem?_close_of_ne hOther
  · rw [hEq]
    exact (List.mem_erase_of_ne (by simp)).mpr hRef

theorem passes_perform (w : World) (own : Set Nat) {a : Action} (ha : a.IsFree) :
    w.Passes own (w.marks a) (w.perform a).2 own := by
  cases a with
  | settle slot r => exact passes_settle
  | openSlot => exact ha.elim
  | abandon slot => exact ha.elim
  | hold slot => exact .still (fun _ _ => rfl) (fun _ => List.mem_cons_of_mem _) rfl rfl
  | release holder slot =>
    cases holder with
    | call => exact ha.elim
    | callback => exact passes_release
  | _ => exact .idle rfl rfl rfl rfl

theorem start_eq (w : World) (t : Task) : ∃ q, w.start t = { w with
    nextTask := w.nextTask + 1, tasks := w.tasks ++ [(w.nextTask, .ready t.body)], queue := q } :=
  enqueue_eq _ _

theorem passes_start {t : Task} (h : t.body.Proper) : w.Passes own [] (w.start t) own := by
  obtain ⟨q, hq⟩ := w.start_eq t
  rw [hq]
  refine ⟨fun slot _ => .nil _, fun _ => id, fun others hApart hHolds => ⟨hApart, hHolds⟩, Nat.le_succ _, _,
    rfl, ?_⟩
  intro t' ht'
  obtain rfl := List.mem_singleton.mp ht'
  exact ⟨Nat.le_refl _, Nat.lt_succ_self _, fun _ => h⟩

theorem settleTask_eq (w : World) (task : Nat) (t : Turn Unit) :
    (w.settleTask task t).slots = w.slots ∧ (w.settleTask task t).holds = w.holds ∧
      (w.settleTask task t).nextTask = w.nextTask ∧
      (w.settleTask task t).tasks = w.tasks ++ t.rest.toList.map (task, ·) := by
  have hFollow (w : World) : ∃ q, w.followUp task = { w with queue := q } := by
    unfold followUp
    split
    · exact w.enqueue_eq task
    · exact ⟨w.queue, rfl⟩
  cases t with
  | finished _ => simp [settleTask, Turn.rest]
  | panicked _ => simp [settleTask, Turn.rest]
  | waits x =>
    obtain ⟨q, hq⟩ := hFollow (w.keep task x)
    rw [settleTask, hq]
    exact ⟨rfl, rfl, rfl, rfl⟩
  | yields x =>
    obtain ⟨q, hq⟩ := hFollow { w.keep task x with yielding := task :: w.yielding }
    rw [settleTask, hq]
    exact ⟨rfl, rfl, rfl, rfl⟩

theorem passes_drop {α : Type} {x : Waiting α} (hKeeps : x.KeepsTo own) (hHolds : w.Holds own) :
    ∃ own', w.Passes own x.dropMarks (w.drop x) own' := by
  have hNow := hKeeps 0
  cases x with
  | ready next => exact ⟨own, .idle rfl rfl rfl rfl⟩
  | sleeping due next => exact ⟨own, .idle rfl rfl rfl rfl⟩
  | awaiting slot due next =>
    cases hNow with
    | await hSlot _ => exact ⟨_, passes_abandon hSlot hHolds⟩
  | postponed slot timeout next =>
    cases hNow with
    | await hSlot _ => exact ⟨_, passes_abandon hSlot hHolds⟩

end World

namespace Program

variable {α : Type} {own : Set Nat} {post : α → Prop} {p : Async α}

/-- In a turn that begins in a world the program passes from the slots `own` to what is left of it. -/
def TurnPasses (own : Set Nat) (p : Async α) (w : World) : Prop :=
  ∃ own', w.Passes own (p.marks w) (p.turn w).2 own' ∧ ∀ x ∈ (p.turn w).1.rest, x.KeepsTo own'

theorem TurnPasses.after {next : Async α} {w w₁ : World} {own₁ : Set Nat} {l : History}
    (h : next.TurnPasses own₁ w₁) (hFirst : w.Passes own l w₁ own₁) :
    ∃ own', w.Passes own (l ++ next.marks w₁) (next.turn w₁).2 own' ∧
      ∀ x ∈ (next.turn w₁).1.rest, x.KeepsTo own' := by
  obtain ⟨own', hPasses, hRest⟩ := h
  exact ⟨own', hFirst.trans hPasses, hRest⟩

theorem KeepsTo.turnPasses (h : p.KeepsTo own post) {w : World} (hHolds : w.Holds own) :
    p.TurnPasses own w := by
  induction h generalizing w with
  | pure _ => exact ⟨_, .idle rfl rfl rfl rfl, nofun⟩
  | panic _ => exact ⟨_, .idle rfl rfl rfl rfl, nofun⟩
  | @fork _ own _ task next hTask h _ ih =>
    have hFirst : w.Passes own [] (w.start task) own := World.passes_start hTask
    exact (ih (hFirst.holds_own hHolds)).after hFirst
  | @openSlot _ own _ next h ih =>
    have hFresh : w.slots.length ∉ own := fun hMem =>
      Nat.lt_irrefl _ (World.lt_length_of_isOpen (hHolds _ hMem).1)
    have hFirst := w.passes_openSlot own
    exact (ih _ hFresh (hFirst.holds_own hHolds)).after hFirst
  | abandon hSlot _ ih =>
    have hFirst := World.passes_abandon hSlot hHolds
    exact (ih () (hFirst.holds_own hHolds)).after hFirst
  | @act _ own _ a next ha h ih =>
    have hFirst := w.passes_perform own ha
    exact (ih _ (hFirst.holds_own hHolds)).after hFirst
  | @report _ own _ r next h ih =>
    let w₁ : World := { w with reports := w.reports ++ [r] }
    have hFirst : w.Passes own [] w₁ own := .idle rfl rfl rfl rfl
    exact (ih (w := w₁) hHolds).after hFirst
  | @notice _ own _ n next h ih =>
    let w₁ : World := { w with events := w.events ++ [n] }
    have hFirst : w.Passes own [] w₁ own := .idle rfl rfl rfl rfl
    exact (ih (w := w₁) hHolds).after hFirst
  | @sleep _ own _ ms next h ih =>
    have hSleep (ms : Nat) : (Program.sleep ms next).KeepsTo own fun _ => True :=
      .sleep (h.mono subset_rfl fun _ _ => trivial)
    unfold TurnPasses marks turn
    split
    · exact ⟨own, .idle rfl rfl rfl rfl, fun x hx => Option.some.inj hx ▸ fun _ => hSleep ms⟩
    · split
      · have hFirst : w.Passes own [] w.spend own := .idle rfl rfl rfl rfl
        exact (ih (w := w.spend) hHolds).after hFirst
      · exact ⟨own, .idle rfl rfl rfl rfl, fun x hx => Option.some.inj hx ▸ fun now => hSleep _⟩
  | @yield _ own _ next h ih =>
    have hNext := h.mono subset_rfl fun _ _ => trivial
    exact ⟨own, .idle rfl rfl rfl rfl, fun x hx => Option.some.inj hx ▸ fun _ => hNext⟩
  | @await _ own _ slot timeout next hSlot h ih =>
    have hAwait (timeout : Option Nat) : (Program.await slot timeout next).KeepsTo own fun _ => True :=
      .await hSlot fun x => (h x).mono subset_rfl fun _ _ => trivial
    by_cases hBudget : w.budget = 0
    · simp only [TurnPasses, marks, turn, hBudget, if_true]
      exact ⟨own, .idle rfl rfl rfl rfl, fun x hx => Option.some.inj hx ▸ fun _ => hAwait timeout⟩
    · cases hCollect : w.collectSlot? slot timeout with
      | some found =>
        obtain ⟨x, w'⟩ := found
        simp only [TurnPasses, marks, turn, hBudget, hCollect, if_false]
        have hFirst := World.passes_collectSlot? hSlot hHolds hCollect
        have hSpent := hFirst.trans (.idle rfl rfl rfl rfl : w'.Passes _ [] w'.spend _)
        exact (ih x (hSpent.holds_own hHolds)).after hSpent
      | none =>
        simp only [TurnPasses, marks, turn, hBudget, hCollect, if_false]
        exact ⟨own, World.passes_wait hSlot hHolds hCollect,
          fun x hx => Option.some.inj hx ▸ fun now => hAwait _⟩

theorem marks_andThen {β : Type} (p : Async α) (f : Except Payload α → Async β) (w : World) :
    (p.attempt.bind f).marks w = p.marks w ++ match p.turn w with
      | (.finished a, w) => (f (.ok a)).marks w
      | (.panicked q, w) => (f (.error q)).marks w
      | (.waits _, _) | (.yields _, _) => [] := by
  induction p generalizing w with
  | pure a => rfl
  | panic q => rfl
  | yield next ih => rfl
  | fork task next ih => exact ih _
  | report r next ih => exact ih _
  | notice n next ih => exact ih _
  | act a next ih =>
    simp only [attempt, bind, marks, turn, ih, List.append_assoc]
  | sleep ms next ih =>
    simp only [attempt, bind, marks, turn]
    split
    · rfl
    · split
      · exact ih _
      · rfl
  | await slot timeout next ih =>
    simp only [attempt, bind, marks, turn]
    split
    · rfl
    · cases w.collectSlot? slot timeout with
      | none => rfl
      | some found => exact congrArg (List.cons _) (ih _ _)

end Program

end TestBench
