import TestBench.Async.Control

/-! # The world

All that programs share: the clock, the slots, a board of notes, the log, and the tasks that have not
ended. Time is in milliseconds.
-/

namespace TestBench

/-- A slot takes a result while it is vacant. It will take none any more once the result was taken by the
waiting program, or the wait ran out of time, or the wait was given up, or nothing referred to it. -/
inductive Slot
  | vacant
  | settled (result : Result)
  | taken (result : Result)
  | expired
  | abandoned
  /-- The last reference was let go before a result came. -/
  | closed
  deriving DecidableEq

inductive Waiting (α : Type)
  | ready (next : Async α)
  | sleeping (due : Nat) (next : Async α)
  | awaiting (slot : Nat) (due : Option Nat) (next : Option Result → Async α)
  /-- It gave way before its wait for a slot, which has not begun. -/
  | postponed (slot : Nat) (timeout : Option Nat) (next : Option Result → Async α)

namespace Waiting

variable {α : Type}

def due? : Waiting α → Option Nat
  | ready _ | postponed .. => none
  | sleeping due _ => some due
  | awaiting _ due _ => due

def isDue (now : Nat) (x : Waiting α) : Bool := x.due?.any (· ≤ now)

def awaits (slot : Nat) : Waiting α → Bool
  | awaiting s _ _ => s == slot
  | _ => false

/-- The program to go on with. It asks once more for what it waits for, with what is left of its
time. -/
def resume (now : Nat) : Waiting α → Async α
  | ready next => next
  | sleeping due next => .sleep (due - now) next
  | awaiting slot due next => .await slot (due.map (· - now)) next
  | postponed slot timeout next => .await slot timeout next

end Waiting

def turnBudget : Nat := 128

structure World where
  now : Nat := 0
  nextOutcome : Nat := 1
  slots : List Slot := []
  /-- The references to slots, one entry for each. -/
  holds : List (Holder × Nat) := []
  board : List (String × Note) := []
  calls : List (String × Nat) := []
  log : List (Nat × String) := []
  events : List Event := []
  reports : List Report := []
  nextTask : Nat := 0
  /-- The tasks that have not ended, in the order in which they began to wait. -/
  tasks : List (Nat × Waiting Unit) := []
  queue : List Nat := []
  /-- The tasks that gave way to all tasks in the queue, the latest first. -/
  yielding : List Nat := []
  budget : Nat := turnBudget
  /-- Whether the program gets a further turn right after the present one. -/
  nudged : Bool := false
  /-- How many turns tasks had since the main program was looked at. -/
  streak : Nat := 0

namespace World

def enqueue (w : World) (task : Nat) : World :=
  if task ∈ w.queue then w else { w with queue := w.queue ++ [task] }

def enqueueAll (w : World) (tasks : List Nat) : World := tasks.foldl enqueue w

def start (w : World) (t : Task) : World :=
  enqueue
    { w with nextTask := w.nextTask + 1, tasks := w.tasks ++ [(w.nextTask, .ready t.body)] }
    w.nextTask

def wake (w : World) (p : Waiting Unit → Bool) : World :=
  w.enqueueAll ((w.tasks.filter (p ·.2)).map (·.1))

def isLive (w : World) (task : Nat) : Bool := (w.tasks.lookup task).isSome

def wakeYielding (w : World) : World :=
  enqueueAll { w with yielding := [] } (w.yielding.filter w.isLive)

def setSlot (w : World) (slot : Nat) (s : Slot) : World := { w with slots := w.slots.set slot s }

/-- Offers a result to a slot; the answer says whether the slot took it. -/
def settle (w : World) (slot : Nat) (result : Result) : Bool × World :=
  match w.slots[slot]? with
  | some .vacant => (true, (w.setSlot slot (.settled result)).wake (·.awaits slot))
  | _ => (false, w)

def isHeld (w : World) (slot : Nat) : Bool := w.holds.any (·.2 == slot)

/-- Closes a vacant slot that nothing refers to any more, and wakes who waits for it. -/
def close (w : World) (slot : Nat) : World :=
  match w.slots[slot]? with
  | some .vacant => (w.setSlot slot .closed).wake (·.awaits slot)
  | _ => w

/-- Lets go of one reference to a slot. The last one closes it. -/
def letGo (w : World) (holder : Holder) (slot : Nat) : World :=
  let left := { w with holds := w.holds.erase (holder, slot) }
  if left.isHeld slot then left else left.close slot

/-- Ends the wait of a call. The call lets go of its slot, which is not vacant any more. -/
def finish (w : World) (slot : Nat) (s : Slot) : World :=
  { w.setSlot slot s with holds := w.holds.erase (.call, slot) }

def abandon (w : World) (slot : Nat) : World :=
  match w.slots[slot]? with
  | some .vacant | some (.settled _) => w.finish slot .abandoned
  | _ => w

/-- Ends a wait because its time is over. If the call was the last to refer to the slot, the end of the
slot is itself a signal to the program that waited, which gets a further turn for it. -/
def expire (w : World) (slot : Nat) : World :=
  let ended := w.finish slot .expired
  { ended with nudged := w.nudged || !ended.isHeld slot }

def callsOf (w : World) (hook : String) : Nat := (w.calls.lookup hook).getD 0

def look (w : World) (key : String) : Option Note := w.board.lookup key

def remove (w : World) (key : String) : World :=
  { w with board := w.board.filter (·.1 != key) }

def put (w : World) (key : String) (note : Note) : World :=
  { w with board := (key, note) :: (w.remove key).board }

def perform (w : World) : (a : Action) → a.Answer × World
  | .now => (w.now, w)
  | .log line => ((), { w with log := w.log ++ [(w.now, line)] })
  | .put key note => ((), w.put key note)
  | .remove key => ((), w.remove key)
  | .look key => (w.look key, w)
  | .countCall hook =>
      (w.callsOf hook,
        { w with calls := (hook, w.callsOf hook + 1) :: w.calls.filter (·.1 != hook) })
  | .newOutcome => (w.nextOutcome, { w with nextOutcome := w.nextOutcome + 1 })
  | .openSlot =>
      (w.slots.length,
        { w with slots := w.slots ++ [.vacant], holds := (.call, w.slots.length) :: w.holds })
  | .settle slot result => w.settle slot result
  | .abandon slot => ((), w.abandon slot)
  | .hold slot => ((), { w with holds := (.callback, slot) :: w.holds })
  | .release holder slot => ((), w.letGo holder slot)

end World

end TestBench
