import TestBench.World.Turn

/-! # Running a program in the world

A main program runs beside the tasks it started. Tasks take turns in the order of the queue, and the
main program is looked at when the queue is empty, or after a long streak of turns. When nothing at all
can go on, the clock moves straight to the next time that somebody waits for, and then the main program
comes first if that time is its own.
-/

namespace TestBench

inductive Ending (α : Type)
  | finished (a : α)
  | panicked (p : Payload)
  /-- It waited past its limit, or for something that cannot come, and was dropped. -/
  | pending
  | unfinished

inductive Progress (α : Type)
  | ended (e : Ending α) (w : World)
  | waits (main : Waiting α) (w : World)

/-- The main program is looked at after that many turns of tasks. -/
def longestStreak : Nat := 61

namespace World

variable {α : Type}

def dues (w : World) (main : Waiting α) (limit : Option Nat) : List Nat :=
  main.due?.toList ++ limit.toList ++ w.tasks.filterMap (·.2.due?)

def advance (w : World) (time : Nat) : World :=
  wake { w with now := max w.now time } (·.isDue (max w.now time))

/-- Gives up a waiting program, and with it the slot that it waits for or was about to wait for. -/
def drop (w : World) : Waiting α → World
  | .awaiting slot _ _ | .postponed slot _ _ => w.abandon slot
  | _ => w

def isPast (w : World) (limit : Option Nat) : Bool := limit.any (· ≤ w.now)

def wait (w : World) (limit : Option Nat) (main : Waiting α) : Progress α :=
  if w.isPast limit then .ended .pending (w.drop main) else .waits main w

def turnMain (w : World) (limit : Option Nat) (p : Async α) : Progress α :=
  match p.turn w with
  | (.finished a, w) => .ended (.finished a) w
  | (.panicked p, w) => .ended (.panicked p) w
  | (.waits main, w) => w.wait limit main
  | (.yields main, w) => w.wait limit main

/-- Looks at the main program and, if it can go on, gives it its turn. Tasks that gave way are
behind it. If nobody can go on the clock moves. -/
def attend (w : World) (limit : Option Nat) (main : Waiting α) : Progress α :=
  let rested := wakeYielding { w with streak := 0 }
  if w.canResume main then rested.beginTurn.turnMain limit (main.resume w.now)
  else if !rested.queue.isEmpty then .waits main rested
  else match (w.dues main limit).min? with
    | none => .ended .pending (rested.drop main)
    | some time =>
        let later := rested.advance time
        if later.canResume main then later.beginTurn.turnMain limit (main.resume later.now)
        else later.wait limit main

def step (w : World) (limit : Option Nat) (main : Waiting α) : Progress α :=
  match w.queue with
  | [] => w.attend limit main
  | task :: rest =>
      if w.streak < longestStreak then
        .waits main (turnTask { w with queue := rest, streak := w.streak + 1 } task)
      else w.attend limit main

def drive (limit : Option Nat) : Nat → Waiting α → World → Ending α × World
  | 0, _, w => (.unfinished, w)
  | turns + 1, main, w =>
      match w.step limit main with
      | .ended e w => (e, w)
      | .waits main w => drive limit turns main w

/-- Runs a main program until it ends, with at most `turns` steps while it waits. With a limit it is
dropped if it still waits when that many milliseconds have passed. -/
def run (turns : Nat) (limit : Option Nat) (p : Async α) (w : World) : Ending α × World :=
  let limit := limit.map (w.now + ·)
  match w.turnMain limit p with
  | .ended e w => (e, w)
  | .waits main w => drive limit turns main w

end World

end TestBench
