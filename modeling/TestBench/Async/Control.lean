import TestBench.Async.Basic

/-! # Program transformations

Each transformation works on a program as a whole: what it catches, hides or adds does not depend on
how the program is run. Tasks that the program starts are programs of their own and stay as they are.
Main statements: the transformations follow the sequence of a program (`attempt_bind`, `within_bind`,
`muted_bind`, `collect_bind`).
-/

namespace TestBench

namespace Program

variable {τ α β : Type}

/-- Panics become values. -/
def attempt : Program τ α → Program τ (Except Payload α)
  | pure a => pure (.ok a)
  | panic p => pure (.error p)
  | fork task next => fork task next.attempt
  | act a next => act a fun x => (next x).attempt
  | report r next => report r next.attempt
  | notice e next => notice e next.attempt
  | sleep ms next => sleep ms next.attempt
  | yield next => yield next.attempt
  | await slot timeout next => await slot timeout fun x => (next x).attempt

def muted : Program τ α → Program τ α
  | pure a => pure a
  | panic p => panic p
  | fork task next => fork task next.muted
  | act a next => act a fun x => (next x).muted
  | report _ next => next.muted
  | notice e next => notice e next.muted
  | sleep ms next => sleep ms next.muted
  | yield next => yield next.muted
  | await slot timeout next => await slot timeout fun x => (next x).muted

def silenced : Program τ α → Program τ Unit
  | pure _ => pure ()
  | panic _ => pure ()
  | fork task next => fork task next.silenced
  | act a next => act a fun x => (next x).silenced
  | report _ next => next.silenced
  | notice e next => notice e next.silenced
  | sleep ms next => sleep ms next.silenced
  | yield next => yield next.silenced
  | await slot timeout next => await slot timeout fun x => (next x).silenced

def within (s : Span) : Program τ α → Program τ α
  | pure a => pure a
  | panic p => panic p
  | fork task next => fork task (next.within s)
  | act a next => act a fun x => (next x).within s
  | report r next => report r (next.within s)
  | notice e next => notice { e with spans := s :: e.spans } (next.within s)
  | sleep ms next => sleep ms (next.within s)
  | yield next => yield (next.within s)
  | await slot timeout next => await slot timeout fun x => (next x).within s

/-- Collects what the program reports, after `earlier` reports, instead of passing it on. Reports
before a panic are lost. -/
def collect (earlier : List Report) : Program τ α → Program τ (α × List Report)
  | pure a => pure (a, earlier)
  | panic p => panic p
  | fork task next => fork task (next.collect earlier)
  | act a next => act a fun x => (next x).collect earlier
  | report r next => next.collect (earlier ++ [r])
  | notice e next => notice e (next.collect earlier)
  | sleep ms next => sleep ms (next.collect earlier)
  | yield next => yield (next.collect earlier)
  | await slot timeout next => await slot timeout fun x => (next x).collect earlier

theorem attempt_bind (p : Program τ α) (f : α → Program τ β) :
    (p.bind f).attempt = p.attempt.bind fun
      | .ok a => (f a).attempt
      | .error e => pure (.error e) := by
  induction p <;> simp_all [bind, attempt]

theorem within_bind (s : Span) (p : Program τ α) (f : α → Program τ β) :
    (p.bind f).within s = (p.within s).bind fun a => (f a).within s := by
  induction p <;> simp_all [bind, within]

theorem muted_bind (p : Program τ α) (f : α → Program τ β) :
    (p.bind f).muted = p.muted.bind fun a => (f a).muted := by
  induction p <;> simp_all [bind, muted]

theorem collect_bind (rs : List Report) (p : Program τ α) (f : α → Program τ β) :
    (p.bind f).collect rs = (p.collect rs).bind fun (a, rs) => (f a).collect rs := by
  induction p generalizing rs <;> simp_all [bind, collect]

end Program

namespace Async

variable {α : Type}

/-- Starts a task. Whether it ends in success, failure or panic is seen by nobody, and what it
reports is lost. -/
def spawn (p : Async α) : Async Unit := .fork (.mk p.silenced) (.pure ())

/-- Starts a task that keeps a callback of a slot until it ends, however it ends. -/
def spawnHolding (slot : Nat) (p : Async α) : Async Unit := do
  perform (.hold slot)
  spawn do
    p.silenced
    perform (.release .callback slot)

end Async

end TestBench
