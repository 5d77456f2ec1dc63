import TestBench.Proofs.Set.Course
import TestBench.Proofs.Signal.Discipline

/-! # Programs with another timeout

Two programs that differ only in the timeout given to one executed call of `Async.untilSignal`, which is told
by its slot, and in what follows when that call runs out of time. The call has `ms` milliseconds in the first
program, and as much or more or no timeout in the second (`Program.Retimed`). Whatever the call is made in, be
it a sequence, a hook, a case, a set, a task or another call, differs in the same way only
(`Async.retimed_untilSignalBy`, `TestSet.retimed_run`).
-/

namespace TestBench

namespace Program

/-- Programs that differ in the timeout of the wait for a slot, and end in values that are related. -/
inductive Retimed (slot ms : Nat) : {α : Type} → (α → α → Prop) → Async α → Async α → Prop
  | pure {α : Type} {R : α → α → Prop} {a b : α} (h : R a b) : Retimed slot ms R (.pure a) (.pure b)
  | panic {α : Type} {R : α → α → Prop} (q : Payload) : Retimed slot ms R (.panic q) (.panic q)
  | fork {α : Type} {R : α → α → Prop} {task task' : Task} {next next' : Async α}
      (hTask : Retimed slot ms Eq task.body task'.body) (h : Retimed slot ms R next next') :
      Retimed slot ms R (.fork task next) (.fork task' next')
  | act {α : Type} {R : α → α → Prop} {a : Action} {next next' : a.Answer → Async α}
      (h : ∀ x, Retimed slot ms R (next x) (next' x)) : Retimed slot ms R (.act a next) (.act a next')
  | report {α : Type} {R : α → α → Prop} {r : Report} {next next' : Async α}
      (h : Retimed slot ms R next next') : Retimed slot ms R (.report r next) (.report r next')
  | notice {α : Type} {R : α → α → Prop} {n : Event} {next next' : Async α}
      (h : Retimed slot ms R next next') : Retimed slot ms R (.notice n next) (.notice n next')
  | sleep {α : Type} {R : α → α → Prop} {time : Nat} {next next' : Async α}
      (h : Retimed slot ms R next next') : Retimed slot ms R (.sleep time next) (.sleep time next')
  | yield {α : Type} {R : α → α → Prop} {next next' : Async α}
      (h : Retimed slot ms R next next') : Retimed slot ms R (.yield next) (.yield next')
  | await {α : Type} {R : α → α → Prop} {other : Nat} {timeout : Option Nat}
      {next next' : Option Result → Async α} (h : ∀ x, Retimed slot ms R (next x) (next' x)) :
      Retimed slot ms R (.await other timeout next) (.await other timeout next')
  | wait {α : Type} {R : α → α → Prop} {later : Option Nat} {next next' : Option Result → Async α}
      (hLater : ∀ l ∈ later, ms ≤ l) (h : ∀ r, Retimed slot ms R (next (some r)) (next' (some r))) :
      Retimed slot ms R (.await slot (some ms) next) (.await slot later next')

inductive AttemptsOf {α : Type} (R : α → α → Prop) : Except Payload α → Except Payload α → Prop
  | ok {a b : α} (h : R a b) : AttemptsOf R (.ok a) (.ok b)
  | error (q : Payload) : AttemptsOf R (.error q) (.error q)

namespace Retimed

variable {α β : Type} {slot ms : Nat} {R : α → α → Prop} {S : β → β → Prop} {p p' : Async α}

mutual

/-- A task is a program too, so this goes down through the tasks that it starts. -/
theorem refl_body (slot ms : Nat) : (task : Task) → task.body.Retimed slot ms Eq task.body
  | .mk body => refl_unit slot ms body

theorem refl_unit (slot ms : Nat) : (p : Async Unit) → p.Retimed slot ms Eq p
  | .pure _ => .pure rfl
  | .panic q => .panic q
  | .fork task next => .fork (refl_body slot ms task) (refl_unit slot ms next)
  | .act _ next => .act fun x => refl_unit slot ms (next x)
  | .report _ next => .report (refl_unit slot ms next)
  | .notice _ next => .notice (refl_unit slot ms next)
  | .sleep _ next => .sleep (refl_unit slot ms next)
  | .yield next => .yield (refl_unit slot ms next)
  | .await _ _ next => .await fun x => refl_unit slot ms (next x)

end

protected theorem refl (p : Async α) : p.Retimed slot ms Eq p := by
  induction p with
  | pure a => exact .pure rfl
  | panic q => exact .panic q
  | fork task next ih => exact .fork (refl_body slot ms task) ih
  | act a next ih => exact .act ih
  | report r next ih => exact .report ih
  | notice n next ih => exact .notice ih
  | sleep time next ih => exact .sleep ih
  | yield next ih => exact .yield ih
  | await other timeout next ih => exact .await ih

theorem bind {f f' : α → Async β} (h : p.Retimed slot ms R p')
    (hRest : ∀ a b, R a b → (f a).Retimed slot ms S (f' b)) : (p.bind f).Retimed slot ms S (p'.bind f') := by
  induction h with
  | pure hab => exact hRest _ _ hab
  | panic q => exact .panic q
  | fork hTask _ _ ih => exact .fork hTask (ih hRest)
  | act _ ih => exact .act fun x => ih x hRest
  | report _ ih => exact .report (ih hRest)
  | notice _ ih => exact .notice (ih hRest)
  | sleep _ ih => exact .sleep (ih hRest)
  | yield _ ih => exact .yield (ih hRest)
  | await _ ih => exact .await fun x => ih x hRest
  | wait hLater _ ih => exact .wait hLater fun r => ih r hRest

theorem mono {R' : α → α → Prop} (h : p.Retimed slot ms R p') (hSub : R ≤ R') : p.Retimed slot ms R' p' := by
  induction h with
  | pure hab => exact .pure (hSub _ _ hab)
  | wait hLater _ ih => exact .wait hLater fun r => ih r hSub
  | act _ ih => exact .act fun x => ih x hSub
  | await _ ih => exact .await fun x => ih x hSub
  | panic q => exact .panic q
  | fork hTask _ _ ih => exact .fork hTask (ih hSub)
  | report _ ih => exact .report (ih hSub)
  | notice _ ih => exact .notice (ih hSub)
  | sleep _ ih => exact .sleep (ih hSub)
  | yield _ ih => exact .yield (ih hSub)

theorem seq {f f' : α → Async β} (h : p.Retimed slot ms Eq p') (hRest : ∀ a, (f a).Retimed slot ms S (f' a)) :
    (p.bind f).Retimed slot ms S (p'.bind f') := h.bind fun a _ hab => hab ▸ hRest a

theorem attempt (h : p.Retimed slot ms R p') : p.attempt.Retimed slot ms (AttemptsOf R) p'.attempt := by
  induction h with
  | pure hab => exact .pure (.ok hab)
  | panic q => exact .pure (.error q)
  | wait hLater _ ih => exact .wait hLater ih
  | _ => constructor <;> assumption

theorem attempt_eq (h : p.Retimed slot ms Eq p') : p.attempt.Retimed slot ms Eq p'.attempt := by
  refine h.attempt.mono ?_
  rintro _ _ (rfl | q) <;> rfl

theorem muted (h : p.Retimed slot ms R p') : p.muted.Retimed slot ms R p'.muted := by
  induction h with
  | report _ ih => exact ih
  | wait hLater _ ih => exact .wait hLater ih
  | _ => constructor <;> assumption

theorem within {s : Span} (h : p.Retimed slot ms R p') : (p.within s).Retimed slot ms R (p'.within s) := by
  induction h with
  | wait hLater _ ih => exact .wait hLater ih
  | _ => constructor <;> assumption

theorem silenced (h : p.Retimed slot ms R p') : p.silenced.Retimed slot ms Eq p'.silenced := by
  induction h with
  | pure _ => exact .pure rfl
  | panic _ => exact .pure rfl
  | report _ ih => exact ih
  | wait hLater _ ih => exact .wait hLater ih
  | _ => constructor <;> assumption

theorem collect (h : p.Retimed slot ms R p') (earlier : List Report) :
    (p.collect earlier).Retimed slot ms (fun a b => R a.1 b.1 ∧ a.2 = b.2) (p'.collect earlier) := by
  induction h generalizing earlier with
  | pure hab => exact .pure ⟨hab, rfl⟩
  | panic q => exact .panic q
  | fork hTask _ _ ih => exact .fork hTask (ih earlier)
  | act _ ih => exact .act fun x => ih x earlier
  | report _ ih => exact ih _
  | notice _ ih => exact .notice (ih earlier)
  | sleep _ ih => exact .sleep (ih earlier)
  | yield _ ih => exact .yield (ih earlier)
  | await _ ih => exact .await fun x => ih x earlier
  | wait hLater _ ih => exact .wait hLater fun r => ih r earlier

end Retimed

end Program

/-- Hooks that differ in the timeout of the wait for a slot, in the call or in its work. -/
def Hook.Retimed (slot ms : Nat) (h h' : Hook) : Prop :=
  Program.Retimed slot ms (Program.Retimed slot ms Eq) h h'

theorem Hook.Retimed.refl (slot ms : Nat) (h : Hook) : h.Retimed slot ms h := by
  have hWork : (Eq : Async Result → Async Result → Prop) ≤ Program.Retimed slot ms Eq := by
    rintro _ _ rfl
    exact .refl _
  exact (Program.Retimed.refl h).mono hWork

namespace Async

open Program (Retimed)

variable {slot ms : Nat} {func func' : Nat → Hook}

/-- A call of `untilSignal` that is told by its slot how much time it has. -/
def untilSignalBy (func : Nat → Async (Async Result)) (timeout : Nat → Option Nat) : Async Result :=
  .act .openSlot fun slot => (func slot).attempt.bind (calledBack slot (timeout slot))

theorem untilSignalBy_const (func : Nat → Async (Async Result)) (timeout : Option Nat) :
    untilSignalBy func (fun _ => timeout) = untilSignal func timeout := (untilSignal_eq func timeout).symm

theorem retimed_spawn {α : Type} {R : α → α → Prop} {p p' : Async α} (h : p.Retimed slot ms R p') :
    (spawn p).Retimed slot ms Eq (spawn p') := .fork h.silenced (.pure rfl)

theorem retimed_runWork {work work' : Async Result} (h : work.Retimed slot ms Eq work') (other : Nat) :
    (runWork other work).Retimed slot ms Eq (runWork other work') := h.attempt_eq.seq fun _ => .refl _

/-- A call is made like another one, but if it gets the slot `slot` it has more time. -/
theorem retimed_untilSignalBy {times times' : Nat → Option Nat} (hFunc : ∀ s, (func s).Retimed slot ms (func' s))
    (hTimes : ∀ s, times' s = times s ∨ s = slot ∧ times s = some ms ∧ ∀ l ∈ times' s, ms ≤ l) :
    (untilSignalBy func times).Retimed slot ms Eq (untilSignalBy func' times') := by
  refine .act fun (other : Nat) => (hFunc other).attempt.bind fun x y hCalled => ?_
  cases hCalled with
  | error q => exact .refl _
  | ok hWork =>
    refine .act fun _ => (retimed_spawn ((retimed_runWork hWork other).silenced.seq fun _ => .refl _)).seq fun _ => ?_
    obtain hSame | ⟨rfl, hTime, hLater⟩ := hTimes other
    · rw [hSame]
      exact .refl _
    · rw [hTime]
      exact .wait hLater fun r => .pure rfl

/-- Of all executions of one call only that which gets the slot `slot` has another timeout. -/
theorem retimed_longer {later : Option Nat} (hFunc : ∀ s, (func s).Retimed slot ms (func' s))
    (hLater : ∀ l ∈ later, ms ≤ l) : (untilSignal func (some ms)).Retimed slot ms Eq
      (untilSignalBy func' fun other => if other = slot then later else some ms) := by
  rw [← untilSignalBy_const]
  refine retimed_untilSignalBy hFunc fun s => ?_
  by_cases hSlot : s = slot
  · exact .inr ⟨hSlot, rfl, (if_pos hSlot).symm ▸ hLater⟩
  · exact .inl (if_neg hSlot)

theorem retimed_untilSignal (hFunc : ∀ s, (func s).Retimed slot ms (func' s)) (timeout : Option Nat) :
    (untilSignal func timeout).Retimed slot ms Eq (untilSignal func' timeout) := by
  rw [← untilSignalBy_const, ← untilSignalBy_const]
  exact retimed_untilSignalBy hFunc fun _ => .inl rfl

end Async

namespace Hook

variable {slot ms : Nat} {h h' : Hook} {h? h'? : Option Hook}

theorem retimed_invoke (hHook : h.Retimed slot ms h') : h.invoke.Retimed slot ms Eq h'.invoke := by
  refine .muted (hHook.attempt.bind fun x x' hCall => ?_)
  cases hCall with
  | error q => exact .pure rfl
  | ok hWork => exact hWork.attempt_eq.seq fun _ => .refl _

theorem retimed_run (hHook : h.Retimed slot ms h') : h.run.Retimed slot ms Eq h'.run :=
  .muted (hHook.bind fun _ _ hWork => hWork)

theorem retimed_invokeOption (hHooks : Option.Rel (Hook.Retimed slot ms) h? h'?) :
    (invokeOption h?).Retimed slot ms Eq (invokeOption h'?) := by
  cases hHooks with
  | none => exact .refl _
  | some hHook => exact retimed_invoke hHook

theorem retimed_runOption (hHooks : Option.Rel (Hook.Retimed slot ms) h? h'?) :
    (runOption h?).Retimed slot ms Eq (runOption h'?) := by
  cases hHooks with
  | none => exact .refl _
  | some hHook => exact retimed_run hHook

end Hook

namespace Case

variable {slot ms : Nat} {c c' : Case}

structure Retimed (slot ms : Nat) (c c' : Case) : Prop where
  name : c.name = c'.name
  body : c.body.Retimed slot ms c'.body
  before : Option.Rel (Hook.Retimed slot ms) c.before c'.before
  after : Option.Rel (Hook.Retimed slot ms) c.after c'.after

theorem retimed_run (h : c.Retimed slot ms c') : c.run.Retimed slot ms Eq c'.run := by
  have hExamine : c.examine.Retimed slot ms Eq c'.examine := by
    refine (Hook.retimed_invokeOption h.before).seq fun r => ?_
    cases r with
    | error f => exact .refl _
    | ok _ => exact (Hook.retimed_invoke h.body).seq fun r => .refl _
  have hTearDown (found : Finding) : (c.tearDown found).Retimed slot ms Eq (c'.tearDown found) := by
    refine (Hook.retimed_invokeOption h.after).seq fun r => ?_
    cases r <;> exact .refl _
  have hConclude (found : Finding) : (c.conclude found).Retimed slot ms Eq (c'.conclude found) := by
    rw [conclude_eq, conclude_eq, h.name]
    exact .refl _
  rw [run_eq, run_eq, h.name]
  exact .within ((hExamine.seq hTearDown).seq hConclude)

end Case

namespace TestSet

variable {slot ms : Nat} {set set' : TestSet} {print : Bool} {sink : Sink}

structure Retimed (slot ms : Nat) (set set' : TestSet) : Prop where
  tests : List.Forall₂ (Case.Retimed slot ms) set.tests set'.tests
  before : Option.Rel (Hook.Retimed slot ms) set.before set'.before
  after : Option.Rel (Hook.Retimed slot ms) set.after set'.after

theorem retimed_runTests {tests tests' : List Case} (h : List.Forall₂ (Case.Retimed slot ms) tests tests')
    (s : Summary) : (runTests print sink tests s).Retimed slot ms Eq (runTests print sink tests' s) := by
  induction h generalizing s with
  | nil => exact .refl _
  | cons hCase _ ih =>
    rw [runTests_cons, runTests_cons]
    refine (Case.retimed_run hCase).seq fun o => ?_
    refine (Program.Retimed.refl (s.enter o)).seq fun added => ?_
    exact (Program.Retimed.refl (emit print sink o.line)).seq fun _ => ih added.2

theorem retimed_run (h : set.Retimed slot ms set') (print : Bool) (sink : Sink) :
    (set.run print sink).Retimed slot ms Eq (set'.run print sink) := by
  have hFinish (s : Summary) : (set.finish print sink s).Retimed slot ms Eq (set'.finish print sink s) := by
    refine (Program.Retimed.refl (emit print sink s.line)).seq fun _ => ?_
    refine (Hook.retimed_runOption h.after).seq fun r => ?_
    cases r <;> exact .refl _
  rw [run_eq, run_eq, h.tests.length_eq]
  refine .within ((Hook.retimed_runOption h.before).seq fun r => ?_)
  cases r with
  | error f => exact .refl _
  | ok _ => exact (retimed_runTests h.tests {}).seq hFinish

end TestSet

end TestBench
