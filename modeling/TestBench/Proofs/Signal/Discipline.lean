import TestBench.Async.Until
import Mathlib.Data.Set.BooleanAlgebra
import Mathlib.Order.CompletePartialOrder

/-! # Slots of one's own

A program keeps to some slots if it waits for and gives up no others, save those that it opens itself,
and is done with a slot after that. A task gets none of the slots of its starter. Signals are free: any
program may offer a result to any slot. Main statement: a wait for a callback keeps to its own slot
whatever the callee does (`Async.proper_untilSignal`).
-/

namespace TestBench

/-- A request that asks nothing of the slots that a program owns. -/
def Action.IsFree : Action → Prop
  | .openSlot | .abandon _ | .release .call _ => False
  | _ => True

namespace Program

/-- The program keeps to the slots `own`, and what it ends in meets a condition. -/
inductive KeepsTo : {α : Type} → Set Nat → (α → Prop) → Async α → Prop
  | pure {α : Type} {own : Set Nat} {post : α → Prop} {a : α} (h : post a) : KeepsTo own post (.pure a)
  | panic {α : Type} {own : Set Nat} {post : α → Prop} (q : Payload) : KeepsTo own post (.panic q)
  | fork {α : Type} {own : Set Nat} {post : α → Prop} {task : Task} {next : Async α}
      (hTask : KeepsTo ∅ (fun _ => True) task.body) (h : KeepsTo own post next) :
      KeepsTo own post (.fork task next)
  | openSlot {α : Type} {own : Set Nat} {post : α → Prop} {next : Nat → Async α}
      (h : ∀ slot, slot ∉ own → KeepsTo (insert slot own) post (next slot)) :
      KeepsTo own post (.act .openSlot next)
  | abandon {α : Type} {own : Set Nat} {post : α → Prop} {slot : Nat} {next : Unit → Async α}
      (hSlot : slot ∈ own) (h : ∀ x, KeepsTo (own \ {slot}) post (next x)) :
      KeepsTo own post (.act (.abandon slot) next)
  | act {α : Type} {own : Set Nat} {post : α → Prop} {a : Action} {next : a.Answer → Async α}
      (ha : a.IsFree) (h : ∀ x, KeepsTo own post (next x)) : KeepsTo own post (.act a next)
  | report {α : Type} {own : Set Nat} {post : α → Prop} {r : Report} {next : Async α}
      (h : KeepsTo own post next) : KeepsTo own post (.report r next)
  | notice {α : Type} {own : Set Nat} {post : α → Prop} {n : Event} {next : Async α}
      (h : KeepsTo own post next) : KeepsTo own post (.notice n next)
  | sleep {α : Type} {own : Set Nat} {post : α → Prop} {ms : Nat} {next : Async α}
      (h : KeepsTo own post next) : KeepsTo own post (.sleep ms next)
  | yield {α : Type} {own : Set Nat} {post : α → Prop} {next : Async α}
      (h : KeepsTo own post next) : KeepsTo own post (.yield next)
  | await {α : Type} {own : Set Nat} {post : α → Prop} {slot : Nat} {timeout : Option Nat}
      {next : Option Result → Async α} (hSlot : slot ∈ own)
      (h : ∀ x, KeepsTo (own \ {slot}) post (next x)) : KeepsTo own post (.await slot timeout next)

/-- A program that has no slot but those that it opens. -/
def Proper {α : Type} (p : Async α) : Prop := p.KeepsTo ∅ fun _ => True

namespace KeepsTo

variable {α β : Type} {own own₁ own₂ : Set Nat} {post : α → Prop} {post' : β → Prop} {p : Async α}

theorem mono {post₂ : α → Prop} (h : p.KeepsTo own₁ post) (hSub : own₁ ⊆ own₂)
    (hPost : ∀ a, post a → post₂ a) : p.KeepsTo own₂ post₂ := by
  induction h generalizing own₂ with
  | pure ha => exact .pure (hPost _ ha)
  | panic q => exact .panic q
  | fork hTask _ _ ih => exact .fork hTask (ih hSub hPost)
  | openSlot _ ih =>
    refine .openSlot fun slot hSlot => ?_
    exact ih slot (fun hMem => hSlot (hSub hMem)) (Set.insert_subset_insert hSub) hPost
  | abandon hSlot _ ih =>
    exact .abandon (hSub hSlot) fun x => ih x (Set.sdiff_subset_sdiff_left hSub) hPost
  | act ha _ ih => exact .act ha fun x => ih x hSub hPost
  | report _ ih => exact .report (ih hSub hPost)
  | notice _ ih => exact .notice (ih hSub hPost)
  | sleep _ ih => exact .sleep (ih hSub hPost)
  | yield _ ih => exact .yield (ih hSub hPost)
  | await hSlot _ ih => exact .await (hSub hSlot) fun x => ih x (Set.sdiff_subset_sdiff_left hSub) hPost

theorem bind {f : α → Async β} (h : p.KeepsTo own₁ post) (hRest : ∀ a, post a → (f a).KeepsTo own₂ post')
    (hApart : Disjoint own₁ own₂) : (p.bind f).KeepsTo (own₁ ∪ own₂) post' := by
  induction h with
  | pure ha => exact (hRest _ ha).mono Set.subset_union_right fun _ => id
  | panic q => exact .panic q
  | fork hTask _ _ ih => exact .fork hTask (ih hRest hApart)
  | openSlot _ ih =>
    refine .openSlot fun slot hSlot => ?_
    rw [Set.mem_union, not_or] at hSlot
    rw [← Set.insert_union]
    exact ih slot hSlot.1 hRest (Set.disjoint_insert_left.mpr ⟨hSlot.2, hApart⟩)
  | abandon hSlot _ ih =>
    refine .abandon (Or.inl hSlot) fun x => ?_
    rw [Set.union_sdiff_distrib, Set.sdiff_singleton_eq_self (Set.disjoint_left.mp hApart hSlot)]
    exact ih x hRest (hApart.mono_left Set.sdiff_subset)
  | act ha _ ih => exact .act ha fun x => ih x hRest hApart
  | report _ ih => exact .report (ih hRest hApart)
  | notice _ ih => exact .notice (ih hRest hApart)
  | sleep _ ih => exact .sleep (ih hRest hApart)
  | yield _ ih => exact .yield (ih hRest hApart)
  | await hSlot _ ih =>
    refine .await (Or.inl hSlot) fun x => ?_
    rw [Set.union_sdiff_distrib, Set.sdiff_singleton_eq_self (Set.disjoint_left.mp hApart hSlot)]
    exact ih x hRest (hApart.mono_left Set.sdiff_subset)

theorem seq {f : α → Async β} (h : p.KeepsTo ∅ post) (hRest : ∀ a, post a → (f a).KeepsTo own post') :
    (p.bind f).KeepsTo own post' := by
  have hBind := h.bind hRest (Set.empty_disjoint own)
  rwa [Set.empty_union] at hBind

theorem attempt (h : p.KeepsTo own post) : p.attempt.KeepsTo own fun x => ∀ a, x = .ok a → post a := by
  induction h with
  | pure ha => exact .pure fun _ hEq => Except.ok.inj hEq ▸ ha
  | panic q => exact .pure nofun
  | _ => constructor <;> assumption

theorem muted (h : p.KeepsTo own post) : p.muted.KeepsTo own post := by
  induction h with
  | report _ ih => exact ih
  | _ => constructor <;> assumption

theorem within {s : Span} (h : p.KeepsTo own post) : (p.within s).KeepsTo own post := by
  induction h with
  | _ => constructor <;> assumption

theorem silenced (h : p.KeepsTo own post) : p.silenced.KeepsTo own fun _ => True := by
  induction h with
  | pure _ => exact .pure trivial
  | panic q => exact .pure trivial
  | report _ ih => exact ih
  | _ => constructor <;> assumption

theorem collect {earlier : List Report} (h : p.KeepsTo own post) :
    (p.collect earlier).KeepsTo own fun x => post x.1 := by
  induction h generalizing earlier with
  | pure ha => exact .pure ha
  | report _ ih => exact ih
  | fork hTask _ _ ih => exact .fork hTask ih
  | openSlot _ ih => exact .openSlot fun slot hSlot => ih slot hSlot
  | abandon hSlot _ ih => exact .abandon hSlot fun x => ih x
  | act ha _ ih => exact .act ha fun x => ih x
  | await hSlot _ ih => exact .await hSlot fun x => ih x
  | panic q => exact .panic q
  | notice _ ih => exact .notice ih
  | sleep _ ih => exact .sleep ih
  | yield _ ih => exact .yield ih

end KeepsTo

theorem Proper.seq {α β : Type} {p : Async α} {f : α → Async β} (h : p.Proper) (hRest : ∀ a, (f a).Proper) :
    (p.bind f).Proper := KeepsTo.seq h fun a _ => hRest a

end Program

namespace Async

open Program (KeepsTo Proper)

variable {slot : Nat} {timeout : Option Nat} {func : Nat → Async (Async Result)}

theorem proper_perform {a : Action} (ha : a.IsFree) : (perform a).Proper :=
  .act ha fun _ => .pure trivial

theorem proper_settle {result : Result} : (settle slot result).Proper := proper_perform trivial

def answered (timeout : Option Nat) : Option Result → Async Result
  | some result => .pure result
  | none => .notice ⟨[], .timedOut timeout⟩ (.pure (.ok ()))

def calledBack (slot : Nat) (timeout : Option Nat) : Except Payload (Async Result) → Async Result
  | .error p => .act (.abandon slot) fun _ => .pure (.error (.ofPayload p))
  | .ok work =>
      (spawnHolding slot (runWork slot work)).bind fun _ => .await slot timeout (answered timeout)

theorem untilSignal_eq (func : Nat → Async (Async Result)) (timeout : Option Nat) :
    untilSignal func timeout =
      .act .openSlot fun slot => (func slot).attempt.bind (calledBack slot timeout) := by
  refine congrArg (Program.act .openSlot) (funext fun slot => ?_)
  refine congrArg (func slot).attempt.bind (funext fun x => ?_)
  rcases x with p | work
  · rfl
  · refine congrArg (spawnHolding slot (runWork slot work)).bind (funext fun _ => ?_)
    refine congrArg (Program.await slot timeout) (funext fun r => ?_)
    cases r <;> rfl

theorem proper_spawn {α : Type} {p : Async α} (h : p.Proper) : (spawn p).Proper :=
  .fork h.silenced (.pure trivial)

theorem proper_spawnHolding {α : Type} {p : Async α} (h : p.Proper) : (spawnHolding slot p).Proper := by
  refine (proper_perform (a := .hold slot) trivial).seq fun _ => proper_spawn ?_
  exact h.silenced.seq fun _ _ => proper_perform trivial

theorem proper_runWork {work : Async Result} (h : work.Proper) : (runWork slot work).Proper := by
  refine h.attempt.seq fun x _ => ?_
  rcases x with p | f | ⟨⟩
  · exact proper_settle.seq fun _ => .pure trivial
  · exact proper_settle.seq fun _ => .pure trivial
  · exact .pure trivial

theorem keepsTo_calledBack {x : Except Payload (Async Result)} (h : ∀ work, x = .ok work → work.Proper) :
    (calledBack slot timeout x).KeepsTo {slot} fun _ => True := by
  cases x with
  | error p => exact .abandon rfl fun _ => .pure trivial
  | ok work =>
    refine KeepsTo.seq (proper_spawnHolding (proper_runWork (h work rfl))) fun _ _ => .await rfl fun r => ?_
    cases r with
    | none => exact .notice (.pure trivial)
    | some r => exact .pure trivial

/-- A callee gets no slot, only callbacks. -/
theorem proper_untilSignal (h : ∀ slot, (func slot).KeepsTo ∅ Proper) :
    (untilSignal func timeout).Proper := by
  rw [untilSignal_eq]
  refine .openSlot fun slot _ => ?_
  rw [insert_empty_eq]
  exact (h slot).attempt.seq fun x hx => keepsTo_calledBack hx

end Async

end TestBench
