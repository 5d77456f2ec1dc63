import TestBench.World.Run
import TestBench.Proofs.Signal.Pace
import TestBench.Proofs.Signal.Point

/-! # The record of a run

The marks that a run of a world leaves, step by step, with their times (`World.chronicle`). The clock never
goes back, so nothing is recorded under an earlier time than that at which the record begins.
-/

namespace TestBench

namespace World

variable {α : Type}

def waitMarks (w : World) (limit : Option Nat) (main : Waiting α) : History :=
  if w.isPast limit then main.dropMarks else []

def turnMainMarks (w : World) (limit : Option Nat) (p : Async α) : History :=
  p.marks w ++ match (p.turn w).1.rest with
    | none => []
    | some main => (p.turn w).2.waitMarks limit main

def turnTaskMarks (w : World) (task : Nat) : History :=
  match w.tasks.lookup task with
  | none => []
  | some x => if w.canResume x then (x.resume w.now).marks (w.without task).beginTurn else []

def rested (w : World) : World := wakeYielding { w with streak := 0 }

def lookAt (w : World) (limit : Option Nat) (main : Waiting α) : Progress α :=
  if w.canResume main then w.beginTurn.turnMain limit (main.resume w.now)
  else if !w.queue.isEmpty then .waits main w
  else match (w.dues main limit).min? with
    | none => .ended .pending (w.drop main)
    | some time =>
        if (w.advance time).canResume main then
          (w.advance time).beginTurn.turnMain limit (main.resume (w.advance time).now)
        else (w.advance time).wait limit main

def lookChronicle (w : World) (limit : Option Nat) (main : Waiting α) : Chronicle :=
  if w.canResume main then (w.beginTurn.turnMainMarks limit (main.resume w.now)).stamped w.now
  else if !w.queue.isEmpty then []
  else match (w.dues main limit).min? with
    | none => main.dropMarks.stamped w.now
    | some time =>
        if (w.advance time).canResume main then
          ((w.advance time).beginTurn.turnMainMarks limit (main.resume (w.advance time).now)).stamped
            (w.advance time).now
        else ((w.advance time).waitMarks limit main).stamped (w.advance time).now

def attendChronicle (w : World) (limit : Option Nat) (main : Waiting α) : Chronicle :=
  w.rested.lookChronicle limit main

def stepChronicle (w : World) (limit : Option Nat) (main : Waiting α) : Chronicle :=
  match w.queue with
  | [] => w.attendChronicle limit main
  | task :: rest =>
      if w.streak < longestStreak then
        (turnTaskMarks { w with queue := rest, streak := w.streak + 1 } task).stamped w.now
      else w.attendChronicle limit main

def driveChronicle (limit : Option Nat) : Nat → Waiting α → World → Chronicle
  | 0, _, _ => []
  | turns + 1, main, w => w.stepChronicle limit main ++
      match w.step limit main with
      | .ended _ _ => []
      | .waits main w => driveChronicle limit turns main w

def chronicle (w : World) (turns : Nat) (limit : Option Nat) (p : Async α) : Chronicle :=
  let limit := limit.map (w.now + ·)
  (w.turnMainMarks limit p).stamped w.now ++
    match w.turnMain limit p with
    | .ended _ _ => []
    | .waits main w => driveChronicle limit turns main w

/-! ## Times -/

theorem now_wait (w : World) (limit : Option Nat) (main : Waiting α) : (w.wait limit main).world.now = w.now := by
  unfold wait
  split
  · exact w.now_drop main
  · rfl

theorem now_turnMain (w : World) (limit : Option Nat) (p : Async α) : (w.turnMain limit p).world.now = w.now := by
  have hTurn := now_turn p w
  unfold turnMain
  split <;> rename_i hEq <;> rw [hEq] at hTurn
  · exact hTurn
  · exact hTurn
  · exact (now_wait _ _ _).trans hTurn
  · exact (now_wait _ _ _).trans hTurn

theorem now_turnTask (w : World) (task : Nat) : (w.turnTask task).now = w.now := by
  unfold turnTask
  split
  · rfl
  · split
    · exact (now_settleTask _ task _).trans (now_turn _ _)
    · rfl

theorem rested_eq (w : World) : ∃ q, w.rested = { w with streak := 0, yielding := [], queue := q } :=
  enqueueAll_eq _ _

theorem attend_eq (w : World) (limit : Option Nat) (main : Waiting α) :
    w.attend limit main = w.rested.lookAt limit main := by
  obtain ⟨q, hq⟩ := w.rested_eq
  unfold attend lookAt
  rw [← rested, hq]
  rfl

theorem time_of_mem_stepChronicle {w : World} {limit : Option Nat} {main : Waiting α} {e : Nat × Nat × Mark}
    (h : e ∈ w.stepChronicle limit main) : e.1 = (w.step limit main).world.now := by
  have hStamped {time : Nat} {marks : History} (h : e ∈ marks.stamped time) : e.1 = time := by
    obtain ⟨_, -, rfl⟩ := List.mem_map.mp h
    rfl
  have hAttend (h : e ∈ w.attendChronicle limit main) : e.1 = (w.attend limit main).world.now := by
    rw [attend_eq]
    unfold attendChronicle lookChronicle at h
    unfold lookAt
    split at h
    · rename_i hResume
      rw [if_pos hResume, now_turnMain, hStamped h]
      rfl
    · rename_i hResume
      rw [if_neg hResume]
      split at h
      · cases h
      · rename_i hQueue
        rw [if_neg hQueue]
        split at h
        · rw [hStamped h]
          exact (now_drop _ _).symm
        · split at h
          · rename_i hLater
            rw [if_pos hLater, now_turnMain, hStamped h]
            rfl
          · rename_i hLater
            rw [if_neg hLater, now_wait, hStamped h]
  cases hQueue : w.queue with
  | nil =>
    simp only [stepChronicle, hQueue] at h
    simp only [step, hQueue]
    exact hAttend h
  | cons task rest =>
    simp only [stepChronicle, hQueue] at h
    simp only [step, hQueue]
    split at h
    · rename_i hStreak
      rw [if_pos hStreak, hStamped h]
      exact (now_turnTask { w with queue := rest, streak := w.streak + 1 } task).symm
    · rename_i hStreak
      rw [if_neg hStreak]
      exact hAttend h

theorem le_time_of_mem_driveChronicle {limit : Option Nat} {turns : Nat} {main : Waiting α} {w : World}
    {e : Nat × Nat × Mark} (h : e ∈ driveChronicle limit turns main w) : w.now ≤ e.1 := by
  induction turns generalizing main w with
  | zero => cases h
  | succ turns ih =>
    have hStep := (w.grows_step limit main).now
    rcases List.mem_append.mp h with h | h
    · exact time_of_mem_stepChronicle h ▸ hStep
    · cases hEq : w.step limit main with
      | ended e w₁ =>
        rw [hEq] at h
        cases h
      | waits main' w₁ =>
        rw [hEq] at h hStep
        exact Nat.le_trans hStep (ih h)

end World

end TestBench
