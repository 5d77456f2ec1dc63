import TestBench.Proofs.Set.Course
import TestBench.Proofs.Signal.Discipline
import Mathlib.Order.Monotone.Defs

/-! # Programs that deal in outcomes

A program deals in outcomes if it hands on no outcomes but those that it knows, and gets to know an outcome
only by making it. What it knows may grow beside it as well. Cases and sets deal in outcomes if their hooks do
(`Case.deals_run`, `TestSet.deals_run`).
-/

namespace TestBench

def Report.held : Report → Set Outcome
  | .outcome o => {o}
  | .summary s => {o | o ∈ s.results}
  | .printed _ | .written .. => ∅

namespace Program

/-- A program that knows some outcomes, and what holds of its value and of the outcomes known in the end. A new
outcome is made with whatever number the world gives. -/
inductive Deals : {α : Type} → (Set Outcome → α → Prop) → Set Outcome → Async α → Prop
  | pure {α : Type} {post : Set Outcome → α → Prop} {known : Set Outcome} {a : α} (h : post known a) :
      Deals post known (.pure a)
  | panic {α : Type} {post : Set Outcome → α → Prop} {known : Set Outcome} (q : Payload) :
      Deals post known (.panic q)
  | fork {α : Type} {post : Set Outcome → α → Prop} {known : Set Outcome} {task : Task} {next : Async α}
      (hTask : Deals (fun _ _ => True) known task.body) (h : Deals post known next) :
      Deals post known (.fork task next)
  | create {α : Type} {post : Set Outcome → α → Prop} {known : Set Outcome} {next : Nat → Async α}
      (test : String) (kind : Kind) (cause : Option String)
      (h : ∀ id, Deals post (insert (.make id test kind cause) known) (next id)) :
      Deals post known (.act .newOutcome next)
  | act {α : Type} {post : Set Outcome → α → Prop} {known : Set Outcome} {a : Action}
      {next : a.Answer → Async α} (ha : a ≠ .newOutcome) (h : ∀ x, Deals post known (next x)) :
      Deals post known (.act a next)
  | report {α : Type} {post : Set Outcome → α → Prop} {known : Set Outcome} {r : Report} {next : Async α}
      (hReport : r.held ⊆ known) (h : Deals post known next) : Deals post known (.report r next)
  | notice {α : Type} {post : Set Outcome → α → Prop} {known : Set Outcome} {n : Event} {next : Async α}
      (h : Deals post known next) : Deals post known (.notice n next)
  | sleep {α : Type} {post : Set Outcome → α → Prop} {known : Set Outcome} {ms : Nat} {next : Async α}
      (h : Deals post known next) : Deals post known (.sleep ms next)
  | yield {α : Type} {post : Set Outcome → α → Prop} {known : Set Outcome} {next : Async α}
      (h : Deals post known next) : Deals post known (.yield next)
  | await {α : Type} {post : Set Outcome → α → Prop} {known : Set Outcome} {slot : Nat}
      {timeout : Option Nat} {next : Option Result → Async α} (h : ∀ x, Deals post known (next x)) :
      Deals post known (.await slot timeout next)

/-- What holds of a value as long as some outcomes are known holds also when more are known. -/
def Lasting {α : Type} (post : Set Outcome → α → Prop) : Prop := ∀ a, Monotone (post · a)

namespace Deals

variable {α β : Type} {post : Set Outcome → α → Prop} {post' : Set Outcome → β → Prop}
  {known known' : Set Outcome} {p : Async α}

theorem mono (h : p.Deals post known) (hPost : Lasting post) (hSub : known ⊆ known') :
    p.Deals post known' := by
  induction h generalizing known' with
  | pure ha => exact .pure (hPost _ hSub ha)
  | panic q => exact .panic q
  | fork _ _ ihTask ih => exact .fork (ihTask (fun _ _ _ _ => id) hSub) (ih hPost hSub)
  | create test kind cause _ ih =>
    exact .create test kind cause fun id => ih id hPost (Set.insert_subset_insert hSub)
  | act ha _ ih => exact .act ha fun x => ih x hPost hSub
  | report hReport _ ih => exact .report (hReport.trans hSub) (ih hPost hSub)
  | notice _ ih => exact .notice (ih hPost hSub)
  | sleep _ ih => exact .sleep (ih hPost hSub)
  | yield _ ih => exact .yield (ih hPost hSub)
  | await _ ih => exact .await fun x => ih x hPost hSub

theorem bind {f : α → Async β} (h : p.Deals post known)
    (hRest : ∀ known' a, known ⊆ known' → post known' a → (f a).Deals post' known') :
    (p.bind f).Deals post' known := by
  induction h with
  | pure ha => exact hRest _ _ (Set.Subset.refl _) ha
  | panic q => exact .panic q
  | fork hTask _ _ ih => exact .fork hTask (ih hRest)
  | create test kind cause _ ih =>
    refine .create test kind cause fun id => ih id fun known' a hSub => ?_
    exact hRest known' a ((Set.subset_insert _ _).trans hSub)
  | act ha _ ih => exact .act ha fun x => ih x hRest
  | report hReport _ ih => exact .report hReport (ih hRest)
  | notice _ ih => exact .notice (ih hRest)
  | sleep _ ih => exact .sleep (ih hRest)
  | yield _ ih => exact .yield (ih hRest)
  | await _ ih => exact .await fun x => ih x hRest

theorem attempt (h : p.Deals post known) :
    p.attempt.Deals (fun known x => ∀ a, x = .ok a → post known a) known := by
  induction h with
  | pure ha => exact .pure fun _ hEq => Except.ok.inj hEq ▸ ha
  | panic q => exact .pure nofun
  | create test kind cause _ ih => exact .create test kind cause ih
  | _ => constructor <;> assumption

theorem muted (h : p.Deals post known) : p.muted.Deals post known := by
  induction h with
  | report _ _ ih => exact ih
  | create test kind cause _ ih => exact .create test kind cause ih
  | _ => constructor <;> assumption

theorem within {s : Span} (h : p.Deals post known) : (p.within s).Deals post known := by
  induction h with
  | create test kind cause _ ih => exact .create test kind cause ih
  | _ => constructor <;> assumption

theorem silenced (h : p.Deals post known) : p.silenced.Deals (fun _ _ => True) known := by
  induction h with
  | pure _ => exact .pure trivial
  | panic q => exact .pure trivial
  | report _ _ ih => exact ih
  | create test kind cause _ ih => exact .create test kind cause ih
  | _ => constructor <;> assumption

theorem collect (h : p.Deals post known) (earlier : List Report) (hEarlier : ∀ r ∈ earlier, r.held ⊆ known) :
    (p.collect earlier).Deals (fun known x => post known x.1 ∧ ∀ r ∈ x.2, r.held ⊆ known) known := by
  induction h generalizing earlier with
  | pure ha => exact .pure ⟨ha, hEarlier⟩
  | panic q => exact .panic q
  | fork hTask _ _ ih => exact .fork hTask (ih earlier hEarlier)
  | create test kind cause _ ih =>
    refine .create test kind cause fun id => ih id earlier fun r hr => ?_
    exact (hEarlier r hr).trans (Set.subset_insert _ _)
  | act ha _ ih => exact .act ha fun x => ih x earlier hEarlier
  | report hReport _ ih =>
    refine ih _ fun r hr => ?_
    rcases List.mem_append.mp hr with hr | hr
    · exact hEarlier r hr
    · rw [List.mem_singleton.mp hr]
      exact hReport
  | notice _ ih => exact .notice (ih earlier hEarlier)
  | sleep _ ih => exact .sleep (ih earlier hEarlier)
  | yield _ ih => exact .yield (ih earlier hEarlier)
  | await _ ih => exact .await fun x => ih x earlier hEarlier

end Deals

def DealsIn {α : Type} (known : Set Outcome) (p : Async α) : Prop := p.Deals (fun _ _ => True) known

theorem lasting_true {α : Type} : Lasting fun (_ : Set Outcome) (_ : α) => True := fun _ _ _ _ => id

theorem DealsIn.mono {α : Type} {known known' : Set Outcome} {p : Async α} (h : p.DealsIn known)
    (hSub : known ⊆ known') : p.DealsIn known' := Deals.mono h lasting_true hSub

theorem DealsIn.bind {α β : Type} {known : Set Outcome} {post : Set Outcome → β → Prop} {p : Async α}
    {f : α → Async β} (h : p.DealsIn known)
    (hRest : ∀ known' a, known ⊆ known' → (f a).Deals post known') : (p.bind f).Deals post known :=
  Deals.bind h fun known' a hSub _ => hRest known' a hSub

end Program

open Program (Deals DealsIn)

variable {known known' : Set Outcome}

namespace Async

theorem deals_perform {a : Action} (ha : a ≠ .newOutcome) : (perform a).DealsIn known :=
  .act ha fun _ => .pure trivial

theorem deals_spawn {α : Type} {p : Async α} (h : p.DealsIn known) : (spawn p).DealsIn known :=
  .fork h.silenced (.pure trivial)

theorem deals_spawnHolding {α : Type} {slot : Nat} {p : Async α} (h : p.DealsIn known) :
    (spawnHolding slot p).DealsIn known := by
  refine .act nofun fun _ => deals_spawn ?_
  exact h.silenced.bind fun _ _ _ _ => deals_perform nofun

theorem deals_runWork {slot : Nat} {work : Async Result} (h : work.DealsIn known) :
    (runWork slot work).DealsIn known := by
  refine h.attempt.bind fun known' x _ _ => ?_
  rcases x with p | f | ⟨⟩
  · exact .act nofun fun _ => .pure trivial
  · exact .act nofun fun _ => .pure trivial
  · exact .pure trivial

end Async

/-! ## Hooks -/

def Hook.Deals (known : Set Outcome) (h : Hook) : Prop :=
  Program.Deals (fun known work => work.DealsIn known) known h

namespace Hook

variable {h : Hook} {h? : Option Hook}

theorem Deals.mono (hDeals : h.Deals known) (hSub : known ⊆ known') : h.Deals known' :=
  Program.Deals.mono hDeals (fun _ _ _ hMore hWork => hWork.mono hMore) hSub

theorem deals_ofWork {work : Async Result} (hWork : work.DealsIn known) : (ofWork work).Deals known :=
  .pure hWork

theorem deals_run (hDeals : h.Deals known) : h.run.DealsIn known :=
  (Program.Deals.bind hDeals fun _ _ _ hWork => hWork).muted

theorem deals_invoke (hDeals : h.Deals known) : h.invoke.DealsIn known := by
  rw [invoke_eq]
  exact (deals_run hDeals).attempt.bind fun _ _ _ _ => .pure trivial

theorem deals_invokeOption (hDeals : ∀ h ∈ h?, Hook.Deals known h) : (invokeOption h?).DealsIn known := by
  cases h? with
  | none => exact .pure trivial
  | some h => exact deals_invoke (hDeals h rfl)

theorem deals_runOption (hDeals : ∀ h ∈ h?, Hook.Deals known h) : (runOption h?).DealsIn known := by
  cases h? with
  | none => exact .pure trivial
  | some h => exact deals_run (hDeals h rfl)

end Hook

/-- A callee gets no outcome, so a wait for a callback deals in those of its callee alone. -/
theorem Async.deals_untilSignal {func : Nat → Hook} {timeout : Option Nat}
    (h : ∀ slot, (func slot).Deals known) : (untilSignal func timeout).DealsIn known := by
  rw [untilSignal_eq]
  refine .act nofun fun slot => (h slot).attempt.bind fun known' x hSub hWork => ?_
  cases x with
  | error p => exact .act nofun fun _ => .pure trivial
  | ok work =>
    refine (deals_spawnHolding (deals_runWork (hWork work rfl))).bind fun _ _ _ => .await fun r => ?_
    cases r with
    | none => exact .notice (.pure trivial)
    | some r => exact .pure trivial

/-! ## Outcomes, cases and sets -/

structure Case.Deals (known : Set Outcome) (c : Case) : Prop where
  body : c.body.Deals known
  before : ∀ h ∈ c.before, Hook.Deals known h
  after : ∀ h ∈ c.after, Hook.Deals known h
  lastOutcome : ∀ o ∈ c.lastOutcome, o ∈ known

namespace Case

variable {c : Case}

theorem Deals.mono (h : c.Deals known) (hSub : known ⊆ known') : c.Deals known' where
  body := h.body.mono hSub
  before hook hHook := (h.before hook hHook).mono hSub
  after hook hHook := (h.after hook hHook).mono hSub
  lastOutcome o ho := hSub (h.lastOutcome o ho)

theorem deals_run (h : c.Deals known) : c.run.Deals (fun known o => o ∈ known) known := by
  have hExamine : c.examine.DealsIn known := by
    rw [examine_eq]
    refine (Hook.deals_invokeOption h.before).bind fun known' r hSub => ?_
    rcases r with f | ⟨⟩
    · exact .notice (.pure trivial)
    · exact (Hook.deals_invoke (h.body.mono hSub)).bind fun _ _ _ => .pure trivial
  have hTearDown (found : Finding) {known' : Set Outcome} (hSub : known ⊆ known') :
      (c.tearDown found).DealsIn known' := by
    rw [tearDown_eq]
    refine (Hook.deals_invokeOption (h.mono hSub).after).bind fun _ r _ => ?_
    rcases r with f | ⟨⟩
    · exact .notice (.pure trivial)
    · exact .pure trivial
  rw [run_eq]
  refine Program.Deals.within ?_
  refine (hExamine.bind fun _ found hSub => hTearDown found hSub).bind fun _ found _ _ => ?_
  rw [conclude_eq]
  refine .create c.name found.kind found.cause fun id => .notice (.report ?_ (.pure ?_))
  · exact Set.singleton_subset_iff.mpr (Set.mem_insert _ _)
  · exact Set.mem_insert _ _

end Case

def Summary.Known (known : Set Outcome) (s : Summary) : Prop := ∀ o ∈ s.results, o ∈ known

theorem Summary.known_empty : ({} : Summary).Known known := by
  intro o ho
  cases ho

theorem Summary.Known.mono {s : Summary} (h : s.Known known) (hSub : known ⊆ known') : s.Known known' :=
  fun o ho => hSub (h o ho)

theorem Summary.Known.add {s : Summary} {o : Outcome} (h : s.Known known) (ho : o ∈ known) :
    (s.add o).2.Known known := by
  unfold Summary.add
  split
  · exact h
  · intro p hp
    rcases List.mem_append.mp hp with hp | hp
    · exact h p hp
    · exact List.mem_singleton.mp hp ▸ ho

structure TestSet.Deals (known : Set Outcome) (set : TestSet) : Prop where
  tests : ∀ c ∈ set.tests, c.Deals known
  before : ∀ h ∈ set.before, Hook.Deals known h
  after : ∀ h ∈ set.after, Hook.Deals known h
  lastSummary : ∀ s ∈ set.lastSummary, s.Known known

namespace TestSet

variable {print : Bool} {sink : Sink} {set : TestSet}

theorem Deals.mono (h : set.Deals known) (hSub : known ⊆ known') : set.Deals known' where
  tests c hc := (h.tests c hc).mono hSub
  before hook hHook := (h.before hook hHook).mono hSub
  after hook hHook := (h.after hook hHook).mono hSub
  lastSummary s hs := (h.lastSummary s hs).mono hSub

theorem Deals.push {c : Case} (h : set.Deals known) (hCase : c.Deals known) : (set.push c).Deals known where
  tests c' hc' := by
    rcases List.mem_append.mp hc' with hc' | hc'
    · exact h.tests c' hc'
    · exact List.mem_singleton.mp hc' ▸ hCase
  before := h.before
  after := h.after
  lastSummary := h.lastSummary

theorem deals_emit {line : Line} : (emit print sink line).DealsIn known := by
  cases print with
  | false => exact .pure trivial
  | true =>
    rcases sink with _ | color | _
    · exact .report (Set.empty_subset _) (.pure trivial)
    · exact .report (Set.empty_subset _) (.pure trivial)
    · exact .notice (.pure trivial)

theorem deals_enter {s : Summary} {o : Outcome} (h : s.Known known) (ho : o ∈ known) :
    (s.enter o).Deals (fun known x => x.2.Known known) known := by
  rw [Summary.enter_eq]
  split
  · exact .pure (h.add ho)
  · exact .notice (.pure (h.add ho))

theorem deals_runTests {cases : List Case} {s : Summary} (h : ∀ c ∈ cases, c.Deals known)
    (hSummary : s.Known known) : (runTests print sink cases s).Deals (fun known s => s.Known known) known := by
  induction cases generalizing s known with
  | nil => exact .pure hSummary
  | cons c rest ih =>
    rw [runTests_cons]
    refine (Case.deals_run (h c List.mem_cons_self)).bind fun known₁ o hSub₁ ho => ?_
    refine (deals_enter (hSummary.mono hSub₁) ho).bind fun known₂ added hSub₂ hAdded => ?_
    refine deals_emit.bind fun known₃ _ hSub₃ => ih (fun c' hc' => ?_) (hAdded.mono hSub₃)
    exact (h c' (List.mem_cons_of_mem _ hc')).mono ((hSub₁.trans hSub₂).trans hSub₃)

theorem deals_run (h : set.Deals known) :
    (set.run print sink).Deals (fun known x => ∀ s, x = .ok s → s.Known known) known := by
  rw [run_eq]
  refine Program.Deals.within ((Hook.deals_runOption h.before).bind fun known₁ r hSub₁ => ?_)
  rcases r with f | ⟨⟩
  · exact .notice (.pure nofun)
  · refine (deals_runTests (h.mono hSub₁).tests Summary.known_empty).bind fun known₂ s hSub₂ hs => ?_
    refine deals_emit.bind fun known₃ _ hSub₃ => ?_
    have hAfter := (h.mono ((hSub₁.trans hSub₂).trans hSub₃)).after
    refine (Hook.deals_runOption hAfter).bind fun known₄ r hSub₄ => ?_
    have hKnown : s.Known known₄ := hs.mono (hSub₃.trans hSub₄)
    rcases r with f | ⟨⟩
    · exact .notice (.pure nofun)
    · refine .notice (.report hKnown (.pure ?_))
      rintro _ ⟨⟩
      exact hKnown

end TestSet

end TestBench
