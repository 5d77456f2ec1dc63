import TestBench.Proofs.Signal.Alert
import TestBench.Proofs.Signal.Retiming

/-! # Twin worlds

Twin worlds are equal but for the programs of their tasks, which are retimed (`World.Twin`). If the retimed wait
has begun, its time is not over at some time `u`, with the one timeout or the other. Up to `u` nobody can tell
the twins apart: the same tasks wait for a slot, are due and can go on.
-/

namespace TestBench

/-- Programs between two turns that differ in the timeout of the wait for a slot. If that wait has begun it
is not over at the time `u`, with the one timeout or the other. -/
inductive Waiting.Retimed (slot ms u : Nat) {α : Type} (R : α → α → Prop) : Waiting α → Waiting α → Prop
  | ready {next next' : Async α} (h : next.Retimed slot ms R next') :
      Retimed slot ms u R (.ready next) (.ready next')
  | sleeping {due : Nat} {next next' : Async α} (h : next.Retimed slot ms R next') :
      Retimed slot ms u R (.sleeping due next) (.sleeping due next')
  | awaiting {other : Nat} {due : Option Nat} {next next' : Option Result → Async α}
      (h : ∀ x, (next x).Retimed slot ms R (next' x)) :
      Retimed slot ms u R (.awaiting other due next) (.awaiting other due next')
  | postponed {other : Nat} {timeout : Option Nat} {next next' : Option Result → Async α}
      (h : ∀ x, (next x).Retimed slot ms R (next' x)) :
      Retimed slot ms u R (.postponed other timeout next) (.postponed other timeout next')
  | pending {due : Nat} {later : Option Nat} {next next' : Option Result → Async α} (hDue : u < due)
      (hLater : ∀ d ∈ later, u < d) (h : ∀ r, (next (some r)).Retimed slot ms R (next' (some r))) :
      Retimed slot ms u R (.awaiting slot (some due) next) (.awaiting slot later next')
  | delayed {later : Option Nat} {next next' : Option Result → Async α} (hLater : ∀ l ∈ later, ms ≤ l)
      (h : ∀ r, (next (some r)).Retimed slot ms R (next' (some r))) :
      Retimed slot ms u R (.postponed slot (some ms) next) (.postponed slot later next')

inductive Turn.Retimed (slot ms u : Nat) {α : Type} (R : α → α → Prop) : Turn α → Turn α → Prop
  | finished {a b : α} (h : R a b) : Retimed slot ms u R (.finished a) (.finished b)
  | panicked (q : Payload) : Retimed slot ms u R (.panicked q) (.panicked q)
  | waits {x x' : Waiting α} (h : x.Retimed slot ms u R x') : Retimed slot ms u R (.waits x) (.waits x')
  | yields {x x' : Waiting α} (h : x.Retimed slot ms u R x') : Retimed slot ms u R (.yields x) (.yields x')

def SameTask (slot ms u : Nat) (t t' : Nat × Waiting Unit) : Prop :=
  t.1 = t'.1 ∧ t.2.Retimed slot ms u Eq t'.2

namespace World

/-- Worlds that differ in the timeout of one wait of their tasks, and in nothing else. -/
def Twin (slot ms u : Nat) (w w' : World) : Prop :=
  ∃ tasks, List.Forall₂ (SameTask slot ms u) w.tasks tasks ∧ w' = { w with tasks }

end World

namespace Waiting.Retimed

variable {α : Type} {slot ms u : Nat} {R : α → α → Prop} {x x' : Waiting α} {w w' : World}

protected theorem refl (x : Waiting α) : x.Retimed slot ms u Eq x := by
  cases x with
  | ready next => exact .ready (.refl next)
  | sleeping due next => exact .sleeping (.refl next)
  | awaiting other due next => exact .awaiting fun y => .refl (next y)
  | postponed other timeout next => exact .postponed fun y => .refl (next y)

theorem awaits_eq (h : x.Retimed slot ms u R x') (other : Nat) : x'.awaits other = x.awaits other := by
  cases h <;> rfl

theorem dropMarks_eq (h : x.Retimed slot ms u R x') : x'.dropMarks = x.dropMarks := by
  cases h <;> rfl

/-- Both wait for the same time, or both for a time after `u`. -/
theorem due?_eq (h : x.Retimed slot ms u R x') :
    x'.due? = x.due? ∨ x.awaits slot ∧ (∃ due ∈ x.due?, u < due) ∧ ∀ due ∈ x'.due?, u < due := by
  cases h with
  | pending hDue hLater _ => exact .inr ⟨beq_self_eq_true slot, ⟨_, rfl, hDue⟩, hLater⟩
  | _ => exact .inl rfl

theorem isDue_eq {now : Nat} (h : x.Retimed slot ms u R x') (hNow : x.awaits slot → now ≤ u) :
    x'.isDue now = x.isDue now := by
  unfold Waiting.isDue
  obtain hSame | ⟨hAwaits, ⟨due, hDue, hLt⟩, hLater⟩ := h.due?_eq
  · rw [hSame]
  · have hNow := hNow hAwaits
    obtain hDue : x.due? = some due := hDue
    rw [hDue]
    cases hDue' : x'.due? with
    | none => simpa using (by omega : now < due)
    | some due' =>
      have hLt' := hLater due' hDue'
      simp only [Option.any_some]
      rw [decide_eq_false (by omega), decide_eq_false (by omega)]

theorem canResume_eq (h : x.Retimed slot ms u R x') (hNow : w'.now = w.now) (hSlots : w'.slots = w.slots)
    (hTime : x.awaits slot → w.now ≤ u) : w'.canResume x' = w.canResume x := by
  have hDue := h.isDue_eq hTime
  cases h with
  | ready _ => rfl
  | postponed _ => rfl
  | delayed _ _ => rfl
  | sleeping _ => simp only [World.canResume, hNow]
  | awaiting _ => simp only [World.canResume, hNow, hSlots, hDue]
  | pending _ _ _ => simp only [World.canResume, hNow, hSlots, hDue]

end Waiting.Retimed

namespace World.Twin

variable {α : Type} {slot ms u : Nat} {R : α → α → Prop} {w w' : World} {x x' : Waiting Unit}

protected theorem refl (w : World) : w.Twin slot ms u w :=
  ⟨w.tasks, List.forall₂_same.mpr fun t _ => ⟨rfl, .refl t.2⟩, rfl⟩

theorem now_eq (h : w.Twin slot ms u w') : w'.now = w.now := by
  obtain ⟨tasks, -, rfl⟩ := h
  rfl

theorem slots_eq (h : w.Twin slot ms u w') : w'.slots = w.slots := by
  obtain ⟨tasks, -, rfl⟩ := h
  rfl

theorem queue_eq (h : w.Twin slot ms u w') : w'.queue = w.queue := by
  obtain ⟨tasks, -, rfl⟩ := h
  rfl

theorem streak_eq (h : w.Twin slot ms u w') : w'.streak = w.streak := by
  obtain ⟨tasks, -, rfl⟩ := h
  rfl

theorem budget_eq (h : w.Twin slot ms u w') : w'.budget = w.budget := by
  obtain ⟨tasks, -, rfl⟩ := h
  rfl

theorem dueAfter_eq (h : w.Twin slot ms u w') : w'.dueAfter = w.dueAfter := by
  obtain ⟨tasks, -, rfl⟩ := h
  rfl

theorem reports_eq (h : w.Twin slot ms u w') : w'.reports = w.reports := by
  obtain ⟨tasks, -, rfl⟩ := h
  rfl

theorem setReports {reports reports' : List Report} (h : w.Twin slot ms u w') (hSame : reports' = reports) :
    Twin slot ms u { w with reports } { w' with reports := reports' } := by
  obtain ⟨tasks, hTasks, rfl⟩ := h
  exact ⟨tasks, hTasks, hSame ▸ rfl⟩

theorem enqueue (h : w.Twin slot ms u w') (task : Nat) : (w.enqueue task).Twin slot ms u (w'.enqueue task) := by
  obtain ⟨tasks, hTasks, rfl⟩ := h
  unfold World.enqueue
  split
  · exact ⟨tasks, hTasks, rfl⟩
  · exact ⟨tasks, hTasks, rfl⟩

theorem enqueueAll (h : w.Twin slot ms u w') (all : List Nat) :
    (w.enqueueAll all).Twin slot ms u (w'.enqueueAll all) := by
  induction all generalizing w w' with
  | nil => exact h
  | cons task all ih => exact ih (h.enqueue task)

theorem keep (h : w.Twin slot ms u w') (task : Nat) (hx : x.Retimed slot ms u Eq x') :
    (w.keep task x).Twin slot ms u (w'.keep task x') := by
  obtain ⟨tasks, hTasks, rfl⟩ := h
  have hTask : SameTask slot ms u (task, x) (task, x') := ⟨rfl, hx⟩
  exact ⟨_, List.rel_append hTasks (.cons hTask .nil), rfl⟩

theorem start {t t' : Task} (h : w.Twin slot ms u w') (hBody : t.body.Retimed slot ms Eq t'.body) :
    (w.start t).Twin slot ms u (w'.start t') := by
  obtain ⟨tasks, hTasks, rfl⟩ := h
  have hNumbered : Twin slot ms u { w with nextTask := w.nextTask + 1 }
      { w with tasks, nextTask := w.nextTask + 1 } := ⟨tasks, hTasks, rfl⟩
  exact (hNumbered.keep w.nextTask (.ready hBody)).enqueue w.nextTask

theorem wake {p : Waiting Unit → Bool} (h : w.Twin slot ms u w')
    (hp : ∀ t ∈ w.tasks, ∀ x', t.2.Retimed slot ms u Eq x' → p x' = p t.2) :
    (w.wake p).Twin slot ms u (w'.wake p) := by
  have hSame {l l' : List (Nat × Waiting Unit)} (hl : List.Forall₂ (SameTask slot ms u) l l')
      (hp : ∀ t ∈ l, ∀ x', t.2.Retimed slot ms u Eq x' → p x' = p t.2) :
      (l'.filter (p ·.2)).map (·.1) = (l.filter (p ·.2)).map (·.1) := by
    induction hl with
    | nil => rfl
    | @cons t t' l l' hTask _ ih =>
      have hFirst := hp t List.mem_cons_self t'.2 hTask.2
      have hRest := ih fun t ht => hp t (List.mem_cons_of_mem _ ht)
      simp only [List.filter_cons, hFirst]
      split
      · simp only [List.map_cons, hRest, hTask.1]
      · exact hRest
  unfold World.wake
  obtain ⟨tasks, hTasks, rfl⟩ := h
  rw [hSame hTasks hp]
  exact enqueueAll ⟨tasks, hTasks, rfl⟩ _

theorem lookup (h : w.Twin slot ms u w') (task : Nat) :
    w.tasks.lookup task = none ∧ w'.tasks.lookup task = none ∨
      ∃ x x', w.tasks.lookup task = some x ∧ w'.tasks.lookup task = some x' ∧ x.Retimed slot ms u Eq x' := by
  obtain ⟨tasks, hTasks, rfl⟩ := h
  change _ ∧ tasks.lookup task = none ∨ ∃ x x', _ ∧ tasks.lookup task = some x' ∧ _
  generalize w.tasks = all at hTasks
  induction hTasks with
  | nil => exact .inl ⟨rfl, rfl⟩
  | @cons t t' l l' hTask _ ih =>
    obtain ⟨other, x⟩ := t
    obtain ⟨_, x'⟩ := t'
    obtain ⟨rfl, hx⟩ := hTask
    simp only [List.lookup_cons]
    split
    · exact .inr ⟨x, x', rfl, rfl, hx⟩
    · exact ih

theorem isLive_eq (h : w.Twin slot ms u w') : w'.isLive = w.isLive := by
  funext task
  unfold isLive
  obtain ⟨hNone, hNone'⟩ | ⟨x, x', hSome, hSome', -⟩ := h.lookup task
  · rw [hNone, hNone']
  · rw [hSome, hSome']
    rfl

theorem without (h : w.Twin slot ms u w') (task : Nat) : (w.without task).Twin slot ms u (w'.without task) := by
  obtain ⟨tasks, hTasks, rfl⟩ := h
  have hSame : ∀ t t', SameTask slot ms u t t' → (t.1 != task ↔ t'.1 != task) := fun t t' hTask => by rw [hTask.1]
  exact ⟨_, List.rel_filter (fun t t' hTask => hSame t t' hTask) hTasks, rfl⟩

theorem wakeYielding (h : w.Twin slot ms u w') : w.wakeYielding.Twin slot ms u w'.wakeYielding := by
  have hLive := h.isLive_eq
  unfold World.wakeYielding
  rw [hLive]
  obtain ⟨tasks, hTasks, rfl⟩ := h
  have hNone : Twin slot ms u { w with yielding := [] } { w with tasks, yielding := [] } := ⟨tasks, hTasks, rfl⟩
  exact hNone.enqueueAll _

theorem abandon (h : w.Twin slot ms u w') (other : Nat) : (w.abandon other).Twin slot ms u (w'.abandon other) := by
  obtain ⟨tasks, hTasks, rfl⟩ := h
  rcases hSlot : w.slots[other]? with _ | (_ | r | r | _ | _ | _) <;> simp only [World.abandon, hSlot]
  all_goals exact ⟨tasks, hTasks, rfl⟩

theorem settle (h : w.Twin slot ms u w') (other : Nat) (r : Result) :
    (w'.settle other r).1 = (w.settle other r).1 ∧ (w.settle other r).2.Twin slot ms u (w'.settle other r).2 := by
  obtain ⟨tasks, hTasks, rfl⟩ := h
  rcases hSlot : w.slots[other]? with _ | (_ | r' | r' | _ | _ | _) <;> simp only [World.settle, hSlot]
  case some.vacant => exact ⟨trivial, wake ⟨tasks, hTasks, rfl⟩ fun t _ x' hx => hx.awaits_eq other⟩
  all_goals exact ⟨trivial, tasks, hTasks, rfl⟩

theorem letGo (h : w.Twin slot ms u w') (holder : Holder) (other : Nat) :
    (w.letGo holder other).Twin slot ms u (w'.letGo holder other) := by
  obtain ⟨tasks, hTasks, rfl⟩ := h
  unfold World.letGo World.isHeld World.close
  dsimp only
  split
  · exact ⟨tasks, hTasks, rfl⟩
  · split
    · exact wake ⟨tasks, hTasks, rfl⟩ fun t _ x' hx => hx.awaits_eq other
    · exact ⟨tasks, hTasks, rfl⟩

theorem perform (h : w.Twin slot ms u w') (a : Action) :
    (w'.perform a).1 = (w.perform a).1 ∧ (w.perform a).2.Twin slot ms u (w'.perform a).2 := by
  cases a with
  | settle other r => exact h.settle other r
  | abandon other => exact ⟨rfl, h.abandon other⟩
  | release holder other => exact ⟨rfl, h.letGo holder other⟩
  | _ =>
    obtain ⟨tasks, hTasks, rfl⟩ := h
    exact ⟨rfl, tasks, hTasks, rfl⟩

theorem marks_eq (h : w.Twin slot ms u w') (a : Action) : w'.marks a = w.marks a := by
  obtain ⟨tasks, hTasks, rfl⟩ := h
  cases a with
  | settle other r =>
    have hAnswer := (settle ⟨tasks, hTasks, rfl⟩ other r).1
    simp only [World.marks, hAnswer]
  | _ => rfl

/-- A wait for a slot that comes to something at once comes to the same in both worlds. -/
theorem collect (h : w.Twin slot ms u w') (other : Nat) (timeout : Option Nat) :
    w.collectSlot? other timeout = none ∧ w'.collectSlot? other timeout = none ∨
      ∃ x w₁ w₁', w.collectSlot? other timeout = some (x, w₁) ∧ w'.collectSlot? other timeout = some (x, w₁') ∧
        w₁.Twin slot ms u w₁' := by
  obtain ⟨tasks, hTasks, rfl⟩ := h
  rcases hSlot : w.slots[other]? with _ | (_ | r | r | _ | _ | _) <;> simp only [World.collectSlot?, hSlot]
  case some.vacant =>
    split
    · exact .inr ⟨_, _, _, rfl, rfl, tasks, hTasks, rfl⟩
    · exact .inl ⟨rfl, rfl⟩
  all_goals exact .inr ⟨_, _, _, rfl, rfl, tasks, hTasks, rfl⟩

theorem collect_of_ne_vacant {other : Nat} (h : w.Twin slot ms u w') (hSlot : w.slots[other]? ≠ some .vacant) :
    ∃ r w₁ w₁', (∀ timeout, w.collectSlot? other timeout = some (some r, w₁)) ∧
      (∀ timeout, w'.collectSlot? other timeout = some (some r, w₁')) ∧ w₁.Twin slot ms u w₁' := by
  obtain ⟨tasks, hTasks, rfl⟩ := h
  rcases hState : w.slots[other]? with _ | (_ | r | r | _ | _ | _) <;> simp only [World.collectSlot?, hState]
  case some.vacant => exact absurd hState hSlot
  all_goals exact ⟨_, _, _, fun _ => rfl, fun _ => rfl, tasks, hTasks, rfl⟩

theorem spend (h : w.Twin slot ms u w') : w.spend.Twin slot ms u w'.spend := by
  obtain ⟨tasks, hTasks, rfl⟩ := h
  exact ⟨tasks, hTasks, rfl⟩

theorem beginTurn (h : w.Twin slot ms u w') : w.beginTurn.Twin slot ms u w'.beginTurn := by
  obtain ⟨tasks, hTasks, rfl⟩ := h
  exact ⟨tasks, hTasks, rfl⟩

end World.Twin

end TestBench
