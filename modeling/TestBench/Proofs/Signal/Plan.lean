import TestBench.Proofs.Signal.Alert

/-! # What a step is for

Every step while a main program waits is for one turn at most: that of the task at the head of the queue, or
that of the main program. `World.plan` says whose turn it is and in which world, before anybody gets it, and
`World.step_eq_carryOut` that this is what the step does.
-/

namespace TestBench

/-- What a step is for, with the world in which that takes place. -/
inductive Plan
  | task (task : Nat) (x : Waiting Unit) (w : World)
  | main (w : World)
  | pause (w : World)
  /-- The clock has moved, perhaps to the limit of the main program. -/
  | wait (w : World)
  | giveUp (w : World)

namespace Plan

def world : Plan → World
  | task _ _ w | main w | pause w | wait w | giveUp w => w

def others (plan : Plan) (tasks : List (Nat × Waiting Unit)) : List (Nat × Waiting Unit) :=
  match plan with
  | task t _ _ => tasks.filter (·.1 != t)
  | _ => tasks

def carryOut {α : Type} (limit : Option Nat) (x : Waiting α) : Plan → Progress α
  | task t y w =>
      .waits x { ((y.resume w.now).turn w).2.settleTask t ((y.resume w.now).turn w).1 with reports := w.reports }
  | main w => w.turnMain limit (x.resume w.now)
  | pause w => .waits x w
  | wait w => w.wait limit x
  | giveUp w => .ended .pending (w.drop x)

/-- The plan is made for a world: nothing has happened in it but that the clock and the queue moved on. -/
structure Fits (plan : Plan) (w : World) : Prop where
  slots : plan.world.slots = w.slots
  holds : plan.world.holds = w.holds
  nextTask : plan.world.nextTask = w.nextTask
  reports : plan.world.reports = w.reports
  tasks : plan.world.tasks = plan.others w.tasks
  chosen : ∀ t x v, plan = .task t x v → w.tasks.lookup t = some x

end Plan

namespace World

variable {α : Type}

def planTask (w : World) (task : Nat) : Plan :=
  match w.tasks.lookup task with
  | none => .pause w
  | some x => if w.canResume x then .task task x (w.without task).beginTurn else .pause w

def planLook (w : World) (limit : Option Nat) (x : Waiting α) : Plan :=
  if w.canResume x then .main w.beginTurn
  else if !w.queue.isEmpty then .pause w
  else match (w.dues x limit).min? with
    | none => .giveUp w
    | some time =>
        if (w.advance time).canResume x then .main (w.advance time).beginTurn else .wait (w.advance time)

def plan (w : World) (limit : Option Nat) (x : Waiting α) : Plan :=
  match w.queue with
  | [] => w.rested.planLook limit x
  | task :: rest =>
      if w.streak < longestStreak then planTask { w with queue := rest, streak := w.streak + 1 } task
      else w.rested.planLook limit x

theorem turnTask_eq_carryOut (w : World) (limit : Option Nat) (x : Waiting α) (task : Nat) :
    .waits x (w.turnTask task) = (w.planTask task).carryOut limit x := by
  cases hLookup : w.tasks.lookup task with
  | none => simp only [turnTask, planTask, hLookup, Plan.carryOut]
  | some y =>
    simp only [turnTask, planTask, hLookup]
    split <;> rfl

theorem lookAt_eq_carryOut (w : World) (limit : Option Nat) (x : Waiting α) :
    w.lookAt limit x = (w.planLook limit x).carryOut limit x := by
  unfold lookAt planLook
  split
  · rfl
  · split
    · rfl
    · cases (w.dues x limit).min? with
      | none => rfl
      | some time =>
        simp only
        split <;> rfl

theorem step_eq_carryOut (w : World) (limit : Option Nat) (x : Waiting α) :
    w.step limit x = (w.plan limit x).carryOut limit x := by
  have hAttend : w.attend limit x = (w.rested.planLook limit x).carryOut limit x := by
    rw [attend_eq, lookAt_eq_carryOut]
  cases hQueue : w.queue with
  | nil =>
    simp only [step, plan, hQueue]
    exact hAttend
  | cons task rest =>
    simp only [step, plan, hQueue]
    split
    · exact turnTask_eq_carryOut _ limit x task
    · exact hAttend

/-! ## Plans fit -/

theorem fits_planTask (w : World) (task : Nat) : (w.planTask task).Fits w := by
  unfold planTask
  split
  · exact ⟨rfl, rfl, rfl, rfl, rfl, nofun⟩
  · rename_i hLookup
    split
    · refine ⟨rfl, rfl, rfl, rfl, rfl, ?_⟩
      rintro t y v ⟨⟩
      exact hLookup
    · exact ⟨rfl, rfl, rfl, rfl, rfl, nofun⟩

theorem fits_planLook (w : World) (limit : Option Nat) (x : Waiting α) : (w.planLook limit x).Fits w := by
  unfold planLook
  split
  · exact ⟨rfl, rfl, rfl, rfl, rfl, nofun⟩
  · split
    · exact ⟨rfl, rfl, rfl, rfl, rfl, nofun⟩
    · split
      · exact ⟨rfl, rfl, rfl, rfl, rfl, nofun⟩
      · rename_i time _
        obtain ⟨q, hq⟩ := w.advance_eq time
        split <;> rw [hq]
        · exact ⟨rfl, rfl, rfl, rfl, rfl, nofun⟩
        · exact ⟨rfl, rfl, rfl, rfl, rfl, nofun⟩

theorem fits_plan (w : World) (limit : Option Nat) (x : Waiting α) : (w.plan limit x).Fits w := by
  have hLook : (w.rested.planLook limit x).Fits w := by
    obtain ⟨q, hq⟩ := w.rested_eq
    have hFits := w.rested.fits_planLook limit x
    rw [hq] at hFits ⊢
    exact ⟨hFits.slots, hFits.holds, hFits.nextTask, hFits.reports, hFits.tasks, hFits.chosen⟩
  unfold plan
  split
  · exact hLook
  · split
    · rename_i task rest _ _
      have hFits := fits_planTask { w with queue := rest, streak := w.streak + 1 } task
      exact ⟨hFits.slots, hFits.holds, hFits.nextTask, hFits.reports, hFits.tasks, hFits.chosen⟩
    · exact hLook

end World

end TestBench
