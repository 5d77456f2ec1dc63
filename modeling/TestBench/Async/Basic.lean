import TestBench.Notice

/-! # Asynchronous programs

A program is the tree of all its possible runs. Each inner node is a request: to the surrounding
world, which answers at once (`act`); to the observers of the run (`report`, `notice`); to start a
task (`fork`); or to wait (`sleep`, `yield`, `await`). A program ends in a value or in a panic.

Nothing here says how requests are answered or how several programs take turns.
-/

namespace TestBench

inductive Note
  | text (s : String)
  | time (ms : Nat)
  deriving DecidableEq, Repr

/-- What a run hands to whoever started it, as it goes along: the lines it prints to memory, the texts
it writes to a console, and the results that the case or set under test keeps. -/
inductive Report
  | printed (line : Line)
  | written (channel : Channel) (text : String)
  | outcome (o : Outcome)
  | summary (s : Summary)
  deriving DecidableEq, Repr

/-- What can refer to a slot: the call that waits for it, and each callback that is kept anywhere. -/
inductive Holder
  | call
  | callback
  deriving DecidableEq, Repr

/-- Requests that the world answers at once. -/
inductive Action
  | now
  | log (line : String)
  | put (key : String) (note : Note)
  | remove (key : String)
  | look (key : String)
  /-- Counts a call of a hook; the answer is the number of earlier calls. -/
  | countCall (hook : String)
  | newOutcome
  | openSlot
  | settle (slot : Nat) (result : Result)
  | abandon (slot : Nat)
  | hold (slot : Nat)
  | release (holder : Holder) (slot : Nat)
  deriving DecidableEq, Repr

def Action.Answer : Action → Type
  | now | countCall _ | newOutcome | openSlot => Nat
  | log _ | put .. | remove _ | abandon _ | hold _ | release .. => Unit
  | look _ => Option Note
  | settle .. => Bool

inductive Program (τ α : Type) : Type
  | pure (a : α)
  | panic (p : Payload)
  /-- Starts a task and goes on; the task gets its turn later. -/
  | fork (task : τ) (next : Program τ α)
  | act (a : Action) (next : a.Answer → Program τ α)
  | report (r : Report) (next : Program τ α)
  | notice (e : Event) (next : Program τ α)
  | sleep (ms : Nat) (next : Program τ α)
  | yield (next : Program τ α)
  /-- Waits until a result was put into the slot, but not longer than the timeout. -/
  | await (slot : Nat) (timeout : Option Nat) (next : Option Result → Program τ α)

/-- A program on its own, whose value nobody waits for. -/
inductive Task : Type
  | mk (body : Program Task Unit)

def Task.body : Task → Program Task Unit
  | mk body => body

abbrev Async (α : Type) : Type := Program Task α

namespace Program

variable {τ α β γ : Type}

def bind : Program τ α → (α → Program τ β) → Program τ β
  | pure a, f => f a
  | panic p, _ => panic p
  | fork task next, f => fork task (next.bind f)
  | act a next, f => act a fun x => (next x).bind f
  | report r next, f => report r (next.bind f)
  | notice e next, f => notice e (next.bind f)
  | sleep ms next, f => sleep ms (next.bind f)
  | yield next, f => yield (next.bind f)
  | await slot timeout next, f => await slot timeout fun x => (next x).bind f

instance : Monad (Program τ) where
  pure := pure
  bind := bind

theorem bind_pure (p : Program τ α) : p.bind pure = p := by
  induction p <;> simp_all [bind]

theorem bind_assoc (p : Program τ α) (f : α → Program τ β) (g : β → Program τ γ) :
    (p.bind f).bind g = p.bind fun a => (f a).bind g := by
  induction p <;> simp_all [bind]

instance : LawfulMonad (Program τ) :=
  LawfulMonad.mk' (Program τ) bind_pure (fun _ _ => rfl) bind_assoc

end Program

namespace Async

def perform (a : Action) : Async a.Answer := .act a .pure

def now : Async Nat := perform .now

def log (line : String) : Async Unit := perform (.log line)

def settle (slot : Nat) (result : Result) : Async Bool := perform (.settle slot result)

def tell (r : Report) : Async Unit := .report r (.pure ())

def announce (n : Notice) : Async Unit := .notice ⟨[], n⟩ (.pure ())

def rest (ms : Nat) : Async Unit := .sleep ms (.pure ())

end Async

end TestBench
