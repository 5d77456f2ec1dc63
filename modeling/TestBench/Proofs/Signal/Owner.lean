import TestBench.Proofs.Signal.Pace
import TestBench.Proofs.Signal.Point

/-! # Whose move it is

A move leaves a program that waits as it is, or it is the turn of that program, or it drops it
(`Scene.Move.of_has`). Programs are told apart by the numbers of their tasks, which are not given twice.
-/

namespace TestBench

namespace World

variable {α : Type} {w w' : World} {task task' : Nat} {x : Waiting Unit} {own own' : Set Nat} {h : History}

def Only (w : World) (task : Nat) (x : Waiting Unit) : Prop :=
  (task, x) ∈ w.tasks ∧ ∀ t ∈ w.tasks, t.1 = task → t.2 = x

theorem Passes.only (hPasses : w.Passes own h w' own') (hLt : task < w.nextTask) (hOnly : w.Only task x) :
    w'.Only task x := by
  obtain ⟨new, hTasks, hNew⟩ := hPasses.tasks
  obtain ⟨hMem, hUnique⟩ := hOnly
  refine ⟨hTasks ▸ List.mem_append_left new hMem, fun t ht hEq => ?_⟩
  rw [hTasks] at ht
  rcases List.mem_append.mp ht with ht | ht
  · exact hUnique t ht hEq
  · have hGe := (hNew t ht).1
    omega

theorem Only.without (hOnly : w.Only task x) (hne : task ≠ task') : (w.without task').Only task x := by
  refine ⟨?_, fun t ht => hOnly.2 t (Scene.mem_without ht).1⟩
  simpa [World.without, hne] using hOnly.1

theorem Only.settleTask (hOnly : w.Only task x) (hne : task ≠ task') (t : Turn Unit) :
    (w.settleTask task' t).Only task x := by
  have hTasks := (w.settleTask_eq task' t).2.2.2
  refine ⟨hTasks ▸ List.mem_append_left _ hOnly.1, fun t ht hEq => ?_⟩
  rw [hTasks] at ht
  rcases List.mem_append.mp ht with ht | ht
  · exact hOnly.2 t ht hEq
  · obtain ⟨_, -, rfl⟩ := List.mem_map.mp ht
    exact absurd hEq.symm hne

theorem only_of_rest {t : Turn Unit} (hPasses : (w.without task).Passes own h w' own')
    (hLt : task < w.nextTask) (hRest : t.rest = some x) : (w'.settleTask task t).Only task x := by
  obtain ⟨new, hTasks, hNew⟩ := hPasses.tasks
  have hAll := (w'.settleTask_eq task t).2.2.2
  rw [hTasks, hRest] at hAll
  refine ⟨hAll ▸ by simp, fun t' ht' hEq => ?_⟩
  rw [hAll] at ht'
  rcases List.mem_append.mp ht' with ht' | ht'
  · rcases List.mem_append.mp ht' with ht' | ht'
    · exact absurd (congrArg some hEq) (Scene.mem_without ht').2
    · have hGe : w.nextTask ≤ t'.1 := (hNew t' ht').1
      omega
  · obtain ⟨x', hx', rfl⟩ := List.mem_map.mp ht'
    simpa using hx'

end World

namespace Scene

open Chronicle

variable {α : Type} {c c' : Scene} {k : Option Nat} {x : Waiting α} {p : Async α} {w : World}
  {own : Option Nat → Set Nat} {h : History} {slot : Nat} {due : Option Nat}
  {next : Option Result → Async α} {l l' : Chronicle}

/-- The main program, or the task with a number, waits. -/
def Has (c : Scene) : Option Nat → ((α : Type) × Waiting α) → Prop
  | none, m => c.main = some m
  | some task, m => ∃ x, m = ⟨Unit, x⟩ ∧ c.world.Only task x

/-- The main program, or a task, gets its turn: it runs as a program in a world. -/
inductive Turns : {α : Type} → Scene → Option Nat → Async α → World → Scene → Prop
  | main {α : Type} (x : Waiting α) (w : World) :
      Turns ⟨some ⟨α, x⟩, w⟩ none (x.resume w.now) w
        ⟨((x.resume w.now).turn w).1.rest.map (⟨α, ·⟩), ((x.resume w.now).turn w).2⟩
  | task {main : Option ((α : Type) × Waiting α)} {w : World} {task : Nat} {x : Waiting Unit}
      (h : (task, x) ∈ w.tasks) :
      Turns ⟨main, w⟩ (some task) (x.resume w.now) (w.without task)
        ⟨main, ((x.resume w.now).turn (w.without task)).2.settleTask task
          ((x.resume w.now).turn (w.without task)).1⟩

namespace Turns

theorem move (hTurn : c.Turns k p w c') : c.Move (p.marks w) c' := by
  cases hTurn with
  | main x w => exact .turnMain x w
  | task hTask => exact .turnTask hTask

theorem now_eq (hTurn : c.Turns k p w c') : w.now = c.world.now ∧ c'.world.now = c.world.now := by
  cases hTurn with
  | main x w => exact ⟨rfl, World.now_turn _ w⟩
  | @task main w task x hTask =>
    refine ⟨rfl, ?_⟩
    rw [World.now_settleTask, World.now_turn]
    rfl

theorem runs (hTurn : c.Turns k p w c') : c.Runs ((p.marks w).stamped w.now) c' := by
  rw [hTurn.now_eq.1]
  exact .single hTurn.move (.inl hTurn.now_eq.2)

theorem reaches (hTurn : c.Turns k p w c') : c.Reaches (p.marks w) c' := .single hTurn.move

theorem slots_eq (hTurn : c.Turns k p w c') : w.slots = c.world.slots ∧ w.holds = c.world.holds := by
  cases hTurn <;> exact ⟨rfl, rfl⟩

theorem keepsTo (hTurn : c.Turns k p w c') (hSound : c.Sound own) : p.KeepsTo (own k) fun _ => True := by
  cases hTurn with
  | main x w => exact hSound.main ⟨α, x⟩ rfl w.now
  | @task main w task x hTask => exact (hSound.tasks (task, x) hTask).2 w.now

theorem holds (hTurn : c.Turns k p w c') (hSound : c.Sound own) : w.Holds (own k) := by
  obtain ⟨hSlots, hRefs⟩ := hTurn.slots_eq
  unfold World.Holds
  rw [hSlots, hRefs]
  exact hSound.holds k

theorem backed (hTurn : c.Turns k p w c') (hSound : c.Sound own) : w.Backed slot := by
  obtain ⟨hSlots, hRefs⟩ := hTurn.slots_eq
  unfold World.Backed
  rw [hSlots, hRefs]
  exact hSound.backed slot

theorem of_has (hTurn : c.Turns k p w c') (hHas : c.Has k ⟨α, x⟩) : p = x.resume c.world.now := by
  cases hTurn with
  | main x' w =>
    cases hHas
    rfl
  | @task main w task x' hTask =>
    obtain ⟨_, ⟨⟩, hOnly⟩ := hHas
    obtain rfl := hOnly.2 (task, x') hTask rfl
    rfl

theorem has (hTurn : c.Turns k p w c') (hSound : c.Sound own) (hRest : (p.turn w).1.rest = some x) :
    c'.Has k ⟨α, x⟩ := by
  obtain ⟨own', hPasses, -⟩ := (hTurn.keepsTo hSound).turnPasses (hTurn.holds hSound)
  cases hTurn with
  | main x' w => exact congrArg (Option.map (Sigma.mk α)) hRest
  | @task main w task x' hTask =>
    exact ⟨x, rfl, World.only_of_rest hPasses (hSound.tasks (task, x') hTask).1 hRest⟩

theorem lives {q : Async α} {w' : World} {l : List Mark} (hTurn : c.Turns k p w c') (hSound : c.Sound own)
    (hComes : p.Comes w h q w') (hBefore : Slot.Lives none l c.world.slots[slot]?) :
    Slot.Lives none (l ++ h.on slot) w'.slots[slot]? := by
  obtain ⟨own', hPasses, -⟩ := hComes.passes (hTurn.keepsTo hSound) (hTurn.holds hSound)
  rw [← hTurn.slots_eq.1] at hBefore
  exact hBefore.append (hPasses.lives slot (hTurn.backed hSound))

theorem mem_forked {q : Async α} {w' : World} {t : Task} (hTurn : c.Turns k p w c') (hSound : c.Sound own)
    (hFork : p.Comes w h (.fork t q) w') : (w'.nextTask, .ready t.body) ∈ c'.world.tasks := by
  have hMem := hFork.mem_forked (hTurn.keepsTo hSound) (hTurn.holds hSound)
  cases hTurn with
  | main x w => exact hMem
  | @task main w task x hTask =>
    rw [(World.settleTask_eq _ task _).2.2.2]
    exact List.mem_append_left _ hMem

end Turns

theorem Move.now_eq (hMove : c.Move h c') : c'.world.now = c.world.now ∨ h = [] := by
  cases hMove with
  | start _ w => exact .inl rfl
  | turnMain x w => exact .inl (World.now_turn _ w)
  | dropMain x w => exact .inl (World.now_drop w x)
  | turnTask hTask =>
    left
    rw [World.now_settleTask, World.now_turn]
    rfl
  | @dropTask main w task x hTask => exact .inl (World.now_drop (w.without task) x)
  | lose w slot => exact .inr rfl
  | pass _ _ _ _ => exact .inr rfl

theorem Move.of_main (hMove : c.Move h c') (hMain : c.main = some ⟨α, x⟩) :
    c'.main = some ⟨α, x⟩ ∨
      (∃ w, c.Turns none (x.resume c.world.now) w c' ∧ h = (x.resume c.world.now).marks w) ∨
      h = x.dropMarks := by
  cases hMove with
  | start _ w => cases hMain
  | turnMain _ w =>
    cases hMain
    exact .inr (.inl ⟨w, .main x w, rfl⟩)
  | dropMain _ w =>
    cases hMain
    exact .inr (.inr rfl)
  | turnTask _ => exact .inl hMain
  | dropTask _ => exact .inl hMain
  | lose _ _ => exact .inl hMain
  | pass _ _ _ _ => exact .inl hMain

theorem Move.of_only {task : Nat} {x : Waiting Unit} (hMove : c.Move h c') (hSound : c.Sound own)
    (hOnly : c.world.Only task x) :
    c'.world.Only task x ∨
      (∃ w, c.Turns (some task) (x.resume c.world.now) w c' ∧ h = (x.resume c.world.now).marks w) ∨
      h = x.dropMarks := by
  have hLt := (hSound.tasks (task, x) hOnly.1).1
  cases hMove with
  | start _ w => exact .inl hOnly
  | @turnMain β y w =>
    have hKeeps : y.KeepsTo (own none) := hSound.main ⟨β, y⟩ rfl
    obtain ⟨own', hPasses, -⟩ := (hKeeps w.now).turnPasses (hSound.holds none)
    exact .inl (hPasses.only hLt hOnly)
  | @dropMain β y w =>
    have hKeeps : y.KeepsTo (own none) := hSound.main ⟨β, y⟩ rfl
    obtain ⟨own', hPasses⟩ := World.passes_drop hKeeps (hSound.holds none)
    exact .inl (hPasses.only hLt hOnly)
  | @turnTask main w task' y hTask =>
    by_cases hEq : task = task'
    · subst hEq
      obtain rfl := hOnly.2 (task, y) hTask rfl
      exact .inr (.inl ⟨_, .task hTask, rfl⟩)
    · have hKeeps := (hSound.tasks (task', y) hTask).2
      have hHolds : (w.without task').Holds (own (some task')) := hSound.holds (some task')
      obtain ⟨own', hPasses, -⟩ := (hKeeps w.now).turnPasses hHolds
      exact .inl ((hPasses.only hLt (hOnly.without hEq)).settleTask hEq _)
  | @dropTask main w task' y hTask =>
    by_cases hEq : task = task'
    · subst hEq
      obtain rfl := hOnly.2 (task, y) hTask rfl
      exact .inr (.inr rfl)
    · have hKeeps := (hSound.tasks (task', y) hTask).2
      have hHolds : (w.without task').Holds (own (some task')) := hSound.holds (some task')
      obtain ⟨own', hPasses⟩ := World.passes_drop hKeeps hHolds
      exact .inl (hPasses.only hLt (hOnly.without hEq))
  | lose w slot =>
    have hPasses : w.Passes ∅ [] (w.letGo .callback slot) ∅ := World.passes_release
    exact .inl (hPasses.only hLt hOnly)
  | pass _ _ hTasks _ =>
    left
    simpa only [World.Only, hTasks] using hOnly

theorem Move.of_has (hMove : c.Move h c') (hSound : c.Sound own) (hHas : c.Has k ⟨α, x⟩) :
    c'.Has k ⟨α, x⟩ ∨
      (∃ w, c.Turns k (x.resume c.world.now) w c' ∧ h = (x.resume c.world.now).marks w) ∨
      h = x.dropMarks := by
  cases k with
  | none => exact hMove.of_main hHas
  | some task =>
    obtain ⟨x, ⟨⟩, hOnly⟩ := hHas
    exact (hMove.of_only hSound hOnly).imp (fun hOnly' => ⟨x, rfl, hOnly'⟩) id

end Scene

end TestBench
