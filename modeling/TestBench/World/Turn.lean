import TestBench.World.Basic

/-! # Turns

A program that gets its turn runs until it ends or has to wait. The turn is one recursion over the
program, so it always ends. Waits that need no time do not end the turn, but a turn has a budget of
them: a program that has used it up gives way before its next wait.
-/

namespace TestBench

inductive Turn (α : Type)
  | finished (a : α)
  | panicked (p : Payload)
  | waits (x : Waiting α)
  | yields (x : Waiting α)

/-- No wait is longer than thirty years of 365 days. -/
def longestWait : Nat := 30 * 365 * 24 * 60 * 60 * 1000

namespace World

def dueAfter (w : World) (ms : Nat) : Nat := w.now + min ms longestWait

def spend (w : World) : World := { w with budget := w.budget - 1 }

/-- What a wait for a slot comes to at once, if it does: the result in the slot, or nothing when no
time is left. A closed slot will never take a result, which is an unknown failure. -/
def collectSlot? (w : World) (slot : Nat) (timeout : Option Nat) : Option (Option Result × World) :=
  match w.slots[slot]? with
  | some (.settled result) => some (some result, w.finish slot (.taken result))
  | some .vacant => if timeout = some 0 then some (none, w.expire slot) else none
  | _ => some (some (.error .unknown), w)

end World

def Program.turn {α : Type} : Async α → World → Turn α × World
  | .pure a, w => (.finished a, w)
  | .panic p, w => (.panicked p, w)
  | .fork task next, w => next.turn (w.start task)
  | .act a next, w => (next (w.perform a).1).turn (w.perform a).2
  | .report r next, w => next.turn { w with reports := w.reports ++ [r] }
  | .notice e next, w => next.turn { w with events := w.events ++ [e] }
  | .yield next, w => (.yields (.ready next), w)
  | .sleep ms next, w =>
      if w.budget = 0 then (.yields (.ready (.sleep ms next)), w)
      else if ms = 0 then next.turn w.spend
      else (.waits (.sleeping (w.dueAfter ms) next), w)
  | .await slot timeout next, w =>
      if w.budget = 0 then (.yields (.postponed slot timeout next), w)
      else match w.collectSlot? slot timeout with
        | some (result, w') => (next result).turn w'.spend
        | none => (.waits (.awaiting slot (timeout.map w.dueAfter) next), w)

namespace World

/-- Whether a program could go on without any time passing. -/
def canResume {α : Type} (w : World) (x : Waiting α) : Bool :=
  match x with
  | .ready _ | .postponed .. => true
  | .sleeping due _ => due ≤ w.now
  | .awaiting slot _ _ => w.slots[slot]? != some .vacant || x.isDue w.now

def beginTurn (w : World) : World := { w with budget := turnBudget, nudged := false }

def keep (w : World) (task : Nat) (x : Waiting Unit) : World :=
  { w with tasks := w.tasks ++ [(task, x)] }

def followUp (w : World) (task : Nat) : World := if w.nudged then w.enqueue task else w

/-- What becomes of a task after its turn: nobody learns how it ended; if it waits it is kept. -/
def settleTask (w : World) (task : Nat) : Turn Unit → World
  | .finished _ | .panicked _ => w
  | .waits x => (w.keep task x).followUp task
  | .yields x => followUp { w.keep task x with yielding := task :: w.yielding } task

/-- The turn of a task. A task that has ended or cannot go on lets its turn pass. What a task reports is
lost. -/
def turnTask (w : World) (task : Nat) : World :=
  match w.tasks.lookup task with
  | none => w
  | some x =>
      if w.canResume x then
        let (turn, w') := (x.resume w.now).turn
          (beginTurn { w with tasks := w.tasks.filter (·.1 != task) })
        { w'.settleTask task turn with reports := w.reports }
      else w

end World

end TestBench
