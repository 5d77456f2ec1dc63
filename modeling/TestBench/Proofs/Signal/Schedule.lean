import TestBench.Proofs.Signal.Turn
import Mathlib.Logic.Function.Basic

/-! # Any order of events

The moves that programs in a world can make, with no order prescribed among them: any program may get
its turn at any time, any wait may end by the clock at any time, and waiting programs may be given up.
Main statement: along all moves every slot lives by the marks that it got (`Scene.Reaches.lives`).
-/

namespace TestBench

/-- A main program, if there is one that is not over, and the world with the tasks. -/
structure Scene where
  main : Option ((α : Type) × Waiting α)
  world : World

def World.without (w : World) (task : Nat) : World :=
  { w with tasks := w.tasks.filter (·.1 != task) }

namespace Scene

/-- A move, with the marks that it leaves. -/
inductive Move : Scene → History → Scene → Prop
  | start {α : Type} {p : Async α} (h : p.Proper) (w : World) : Move ⟨none, w⟩ [] ⟨some ⟨α, .ready p⟩, w⟩
  | turnMain {α : Type} (x : Waiting α) (w : World) :
      Move ⟨some ⟨α, x⟩, w⟩ ((x.resume w.now).marks w)
        ⟨((x.resume w.now).turn w).1.rest.map (⟨α, ·⟩), ((x.resume w.now).turn w).2⟩
  | dropMain {α : Type} (x : Waiting α) (w : World) : Move ⟨some ⟨α, x⟩, w⟩ x.dropMarks ⟨none, w.drop x⟩
  | turnTask {main : Option ((α : Type) × Waiting α)} {w : World} {task : Nat} {x : Waiting Unit}
      (h : (task, x) ∈ w.tasks) :
      Move ⟨main, w⟩ ((x.resume w.now).marks (w.without task))
        ⟨main, ((x.resume w.now).turn (w.without task)).2.settleTask task
          ((x.resume w.now).turn (w.without task)).1⟩
  | dropTask {main : Option ((α : Type) × Waiting α)} {w : World} {task : Nat} {x : Waiting Unit}
      (h : (task, x) ∈ w.tasks) : Move ⟨main, w⟩ x.dropMarks ⟨main, (w.without task).drop x⟩
  /-- A callback is dropped, by a task that was given up or by whatever else kept it. -/
  | lose {main : Option ((α : Type) × Waiting α)} (w : World) (slot : Nat) :
      Move ⟨main, w⟩ [] ⟨main, w.letGo .callback slot⟩
  /-- The clock, the queue and the budget change in any way. -/
  | pass {main : Option ((α : Type) × Waiting α)} {w w' : World} (hSlots : w'.slots = w.slots)
      (hRefs : w'.holds = w.holds) (hTasks : w'.tasks = w.tasks) (hNext : w'.nextTask = w.nextTask) :
      Move ⟨main, w⟩ [] ⟨main, w'⟩

inductive Reaches : Scene → History → Scene → Prop
  | refl (c : Scene) : Reaches c [] c
  | step {c c₁ c' : Scene} {h h' : History} (hMove : c.Move h c₁) (hRest : Reaches c₁ h' c') :
      Reaches c (h ++ h') c'

namespace Reaches

variable {c c₁ c' : Scene} {h h' : History}

theorem trans (first : c.Reaches h c₁) (second : c₁.Reaches h' c') : c.Reaches (h ++ h') c' := by
  induction first with
  | refl => exact second
  | step hMove _ ih => exact List.append_assoc .. ▸ .step hMove (ih second)

theorem single (hMove : c.Move h c') : c.Reaches h c' := List.append_nil h ▸ .step hMove (.refl c')

end Reaches

/-! ## What all moves keep -/

/-- Every slot that a program owns is open and has no other owner. The main program owns `own none`, a
task owns the slots under its number. The call of an open slot holds it. -/
structure Sound (c : Scene) (own : Option Nat → Set Nat) : Prop where
  main : ∀ m ∈ c.main, m.2.KeepsTo (own none)
  tasks : ∀ t ∈ c.world.tasks, t.1 < c.world.nextTask ∧ t.2.KeepsTo (own (some t.1))
  fresh : ∀ task, c.world.nextTask ≤ task → own (some task) = ∅
  apart : ∀ k k', k ≠ k' → Disjoint (own k) (own k')
  holds : ∀ k, c.world.Holds (own k)
  backed : ∀ slot, c.world.Backed slot

open Function (update update_self update_of_ne)

variable {c c' : Scene} {w w' : World} {own : Option Nat → Set Nat} {own' : Set Nat} {h : History}

theorem Sound.owners (hSound : c.Sound own) {k : Option Nat} (hPasses : w.Passes (own k) h w' own')
    (hSlots : w.slots = c.world.slots) (hRefs : w.holds = c.world.holds) :
    (∀ i j, i ≠ j → Disjoint (update own k own' i) (update own k own' j)) ∧
      ∀ i, w'.Holds (update own k own' i) := by
  let others : Set Nat := {slot | ∃ j, j ≠ k ∧ slot ∈ own j}
  have hApart : Disjoint (own k) others := by
    refine Set.disjoint_left.mpr fun slot hSlot hOther => ?_
    obtain ⟨j, hj, hMem⟩ := hOther
    exact Set.disjoint_left.mp (hSound.apart j k hj) hMem hSlot
  have hHolds : w.Holds (own k ∪ others) := by
    unfold World.Holds
    rw [hSlots, hRefs]
    rintro slot (hSlot | ⟨j, -, hSlot⟩)
    · exact hSound.holds k slot hSlot
    · exact hSound.holds j slot hSlot
  obtain ⟨hApart', hHolds'⟩ := hPasses.holds others hApart hHolds
  have hOther {j : Option Nat} (hj : j ≠ k) : own j ⊆ others := fun slot hSlot => ⟨j, hj, hSlot⟩
  constructor
  · intro i j hij
    by_cases hi : i = k
    · subst hi
      rw [update_self, update_of_ne (Ne.symm hij)]
      exact hApart'.mono_right (hOther (Ne.symm hij))
    · by_cases hj : j = k
      · subst hj
        rw [update_self, update_of_ne hi]
        exact (hApart'.mono_right (hOther hi)).symm
      · rw [update_of_ne hi, update_of_ne hj]
        exact hSound.apart i j hij
  · intro i slot hSlot
    by_cases hi : i = k
    · subst hi
      rw [update_self] at hSlot
      exact hHolds' slot (.inl hSlot)
    · rw [update_of_ne hi] at hSlot
      exact hHolds' slot (.inr (hOther hi hSlot))

/-- One owner passes to other slots, and the tasks that it starts own nothing. -/
theorem Sound.advance (hSound : c.Sound own) {k : Option Nat} (hPasses : w.Passes (own k) h w' own')
    (hSlots : w.slots = c.world.slots) (hRefs : w.holds = c.world.holds) (hNext : w.nextTask = c.world.nextTask)
    (hTasks : ∀ t ∈ w.tasks, t ∈ c.world.tasks ∧ some t.1 ≠ k)
    (hOwner : ∀ task, k = some task → task < c.world.nextTask) {main : Option ((α : Type) × Waiting α)}
    (hMain : ∀ m ∈ main, m.2.KeepsTo (update own k own' none)) :
    Sound ⟨main, w'⟩ (update own k own') where
  main := hMain
  tasks t ht := by
    obtain ⟨new, hEq, hNew⟩ := hPasses.tasks
    have hLe := hPasses.nextTask
    rw [hEq] at ht
    rcases List.mem_append.mp ht with ht | ht
    · obtain ⟨hOld, hNe⟩ := hTasks t ht
      obtain ⟨hLt, hKeeps⟩ := hSound.tasks t hOld
      rw [update_of_ne hNe]
      exact ⟨Nat.lt_of_lt_of_le hLt (hNext ▸ hLe), hKeeps⟩
    · obtain ⟨hGe, hLt, hKeeps⟩ := hNew t ht
      have hNe : some t.1 ≠ k := fun hEq => by have := hOwner t.1 hEq.symm; omega
      rw [update_of_ne hNe, hSound.fresh t.1 (hNext ▸ hGe)]
      exact ⟨hLt, hKeeps⟩
  fresh task hTask := by
    have hGe : c.world.nextTask ≤ task := Nat.le_trans (hNext ▸ hPasses.nextTask) hTask
    have hNe : some task ≠ k := fun hEq => by have := hOwner task hEq.symm; omega
    rw [update_of_ne hNe, hSound.fresh task hGe]
  apart := (hSound.owners hPasses hSlots hRefs).1
  holds := (hSound.owners hPasses hSlots hRefs).2
  backed slot := hPasses.backed slot (by rw [World.Backed, hSlots, hRefs]; exact hSound.backed slot)

theorem Sound.settleTask {main : Option ((α : Type) × Waiting α)} (hSound : Sound ⟨main, w⟩ own)
    {task : Nat} (hTask : task < w.nextTask) {t : Turn Unit}
    (hRest : ∀ x ∈ t.rest, x.KeepsTo (own (some task))) : Sound ⟨main, w.settleTask task t⟩ own := by
  obtain ⟨hSlots, hRefs, hNext, hTasks⟩ := w.settleTask_eq task t
  refine ⟨hSound.main, fun t' ht' => ?_, fun i hi => hSound.fresh i (hNext ▸ hi), hSound.apart, ?_, ?_⟩
  case refine_2 =>
    unfold World.Holds
    rw [hSlots, hRefs]
    exact hSound.holds
  case refine_3 =>
    unfold World.Backed
    rw [hSlots, hRefs]
    exact hSound.backed
  rw [hTasks] at ht'
  rw [hNext]
  rcases List.mem_append.mp ht' with ht' | ht'
  · exact hSound.tasks t' ht'
  · obtain ⟨x, hx, rfl⟩ := List.mem_map.mp ht'
    exact ⟨hTask, hRest x (Option.mem_toList.mp hx)⟩

theorem mem_without {task : Nat} {t : Nat × Waiting Unit} (ht : t ∈ (w.without task).tasks) :
    t ∈ w.tasks ∧ some t.1 ≠ some task := by
  simpa [World.without] using ht

theorem Sound.advanceTask {main : Option ((α : Type) × Waiting α)} (hSound : Sound ⟨main, w⟩ own)
    {task : Nat} (hTask : task < w.nextTask)
    (hPasses : (w.without task).Passes (own (some task)) h w' own') :
    Sound ⟨main, w'⟩ (update own (some task) own') := by
  have hOwner (i : Nat) (hi : some task = some i) : i < w.nextTask := Option.some.inj hi ▸ hTask
  have hMain : ∀ m ∈ main, m.2.KeepsTo (update own (some task) own' none) := by
    rw [update_of_ne (by simp)]
    exact hSound.main
  exact hSound.advance hPasses rfl rfl rfl (fun _ => mem_without) hOwner hMain

/-- A move keeps every open slot with its owner, and every slot lives on by the marks of the move. -/
theorem Move.sound (hMove : c.Move h c') (hSound : c.Sound own) :
    (∃ own', c'.Sound own') ∧
      ∀ slot, Slot.Lives c.world.slots[slot]? (h.on slot) c'.world.slots[slot]? := by
  cases hMove with
  | @start α p hProper w =>
    have hMain : (Waiting.ready p).KeepsTo (own none) := fun _ =>
      hProper.mono (Set.empty_subset _) fun _ => id
    refine ⟨⟨own, ?_, hSound.tasks, hSound.fresh, hSound.apart, hSound.holds, hSound.backed⟩,
      fun slot => .nil _⟩
    rintro m ⟨⟩
    exact hMain
  | @turnMain α x w =>
    have hKeeps : x.KeepsTo (own none) := hSound.main ⟨α, x⟩ rfl
    obtain ⟨own', hPasses, hRest⟩ := (hKeeps w.now).turnPasses (hSound.holds none)
    have hTasks : ∀ t ∈ w.tasks, t ∈ w.tasks ∧ some t.1 ≠ none := fun t ht => ⟨ht, nofun⟩
    refine ⟨⟨_, hSound.advance hPasses rfl rfl rfl hTasks nofun fun m hm => ?_⟩,
      fun slot => hPasses.lives slot (hSound.backed slot)⟩
    obtain ⟨x', hx', rfl⟩ := Option.map_eq_some_iff.mp hm
    rw [update_self]
    exact hRest x' hx'
  | @dropMain α x w =>
    have hKeeps : x.KeepsTo (own none) := hSound.main ⟨α, x⟩ rfl
    obtain ⟨own', hPasses⟩ := World.passes_drop hKeeps (hSound.holds none)
    exact ⟨⟨_, hSound.advance hPasses rfl rfl rfl (fun t ht => ⟨ht, nofun⟩) nofun nofun⟩,
      fun slot => hPasses.lives slot (hSound.backed slot)⟩
  | @turnTask main w task x hTask =>
    obtain ⟨hLt, hKeeps⟩ := hSound.tasks (task, x) hTask
    have hHolds : (w.without task).Holds (own (some task)) := hSound.holds (some task)
    obtain ⟨own', hPasses, hRest⟩ := (hKeeps w.now).turnPasses hHolds
    have hAdvance := hSound.advanceTask hLt hPasses
    have hLt' := Nat.lt_of_lt_of_le hLt hPasses.nextTask
    refine ⟨⟨_, hAdvance.settleTask hLt' fun x' hx' => ?_⟩, fun slot => ?_⟩
    · rw [update_self]
      exact hRest x' hx'
    · rw [(World.settleTask_eq _ task _).1]
      exact hPasses.lives slot (hSound.backed slot)
  | @dropTask main w task x hTask =>
    obtain ⟨hLt, hKeeps⟩ := hSound.tasks (task, x) hTask
    have hHolds : (w.without task).Holds (own (some task)) := hSound.holds (some task)
    obtain ⟨own', hPasses⟩ := World.passes_drop hKeeps hHolds
    exact ⟨⟨_, hSound.advanceTask hLt hPasses⟩, fun slot => hPasses.lives slot (hSound.backed slot)⟩
  | @lose main w slot =>
    have hTasks : ∀ t ∈ w.tasks, t ∈ w.tasks ∧ some t.1 ≠ none := fun t ht => ⟨ht, nofun⟩
    have hPasses : w.Passes (own none) [] (w.letGo .callback slot) (own none) := World.passes_release
    refine ⟨⟨_, hSound.advance hPasses rfl rfl rfl hTasks nofun ?_⟩,
      fun slot => hPasses.lives slot (hSound.backed slot)⟩
    rw [update_self]
    exact hSound.main
  | @pass main w w' hSlots hRefs hTasks hNext =>
    refine ⟨⟨own, hSound.main, ?_, ?_, hSound.apart, ?_, ?_⟩, fun slot => hSlots ▸ .nil _⟩
    · exact fun t ht => hNext ▸ hSound.tasks t (hTasks ▸ ht)
    · exact fun task hTask => hSound.fresh task (hNext ▸ hTask)
    · exact fun k slot hSlot => hRefs ▸ hSlots ▸ hSound.holds k slot hSlot
    · exact fun slot hOpen => hRefs ▸ hSound.backed slot (hSlots ▸ hOpen)

theorem Reaches.sound (hReaches : c.Reaches h c') (hSound : c.Sound own) :
    (∃ own', c'.Sound own') ∧
      ∀ slot, Slot.Lives c.world.slots[slot]? (h.on slot) c'.world.slots[slot]? := by
  induction hReaches generalizing own with
  | refl c => exact ⟨⟨own, hSound⟩, fun slot => .nil _⟩
  | step hMove _ ih =>
    obtain ⟨⟨own₁, hSound₁⟩, hLives⟩ := hMove.sound hSound
    obtain ⟨hLast, hRest⟩ := ih hSound₁
    refine ⟨hLast, fun slot => ?_⟩
    rw [History.on_append]
    exact (hLives slot).append (hRest slot)

theorem sound_init : Sound ⟨none, {}⟩ fun _ => ∅ where
  main := nofun
  tasks := nofun
  fresh _ _ := rfl
  apart _ _ _ := Set.disjoint_empty _
  holds _ := nofun
  backed := World.backed_init

theorem Reaches.lives (hReaches : Reaches ⟨none, {}⟩ h c) (slot : Nat) :
    Slot.Lives none (h.on slot) c.world.slots[slot]? :=
  (hReaches.sound sound_init).2 slot

end Scene

end TestBench
