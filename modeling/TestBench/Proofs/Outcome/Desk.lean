import TestBench.Proofs.Outcome.Books
import TestBench.Proofs.Set.Passage

/-! # A client's desk

A client of the library works at a desk: it has outcomes, summaries, cases and sets, and a session to run
programs in. Books are kept for all that it does: each use of the desk adds to them what it makes
(`Desk.Kept.on`), and so does any number of uses (`Desk.Kept.exists_books`).
-/

namespace TestBench

open Program (Lasting)

def Ending.value? {α : Type} : Ending α → Option α
  | finished a => some a
  | _ => none

theorem Ending.eq_of_value? {α : Type} {e : Ending α} {a : α} (h : e.value? = some a) : e = .finished a := by
  cases e with
  | finished b => exact congrArg Ending.finished (Option.some.inj h)
  | _ => cases h

structure Desk where
  session : Session
  outcomes : List Outcome := []
  summaries : List Summary := []
  cases : List Case := []
  sets : List TestSet := []

namespace Desk

def start (turns : Nat) (limit : Option Nat) : Desk := { session := { turns, limit } }

inductive Holds (d : Desk) (o : Outcome) : Prop
  | outcome (h : o ∈ d.outcomes)
  | summary {s : Summary} (hs : s ∈ d.summaries) (h : o ∈ s.results)
  | lastOutcome {c : Case} (hc : c ∈ d.cases) (h : o ∈ c.lastOutcome)
  | test {set : TestSet} {c : Case} (hs : set ∈ d.sets) (hc : c ∈ set.tests) (h : o ∈ c.lastOutcome)
  | lastSummary {set : TestSet} {s : Summary} (hs : set ∈ d.sets) (h' : s ∈ set.lastSummary) (h : o ∈ s.results)

def held (d : Desk) : Set Outcome := {o | d.Holds o}

def Laid (known : Set Outcome) (x : List Outcome × List Summary) : Prop :=
  (∀ o ∈ x.1, o ∈ known) ∧ ∀ s ∈ x.2, s.Known known

inductive Use
  /-- Runs a program that deals in what is held. It lays out outcomes and summaries anew. -/
  | program (p : Desk → Async (List Outcome × List Summary)) (h : ∀ d, (p d).Deals Laid d.held)
  | newCase (build : Desk → Case) (h : ∀ d, (build d).Deals d.held)
  | newSet (build : Desk → TestSet) (h : ∀ d, (build d).Deals d.held)
  | push (set case : Nat)
  | runCase (case : Nat)
  | runSet (set : Nat) (print : Bool) (sink : Sink)
  | rest (ms : Nat)

def Use.on (d : Desk) : Use → Desk
  | program p _ =>
      let (e, _, s) := d.session.run (p d)
      let (outcomes, summaries) := e.value?.getD (d.outcomes, d.summaries)
      { d with session := s, outcomes, summaries }
  | newCase build _ => { d with cases := d.cases ++ [build d] }
  | newSet build _ => { d with sets := d.sets ++ [build d] }
  | push i j =>
      match d.sets[i]?, d.cases[j]? with
      | some set, some c => { d with sets := d.sets.set i (set.push c), cases := d.cases.eraseIdx j }
      | _, _ => d
  | runCase i =>
      match d.cases[i]? with
      | none => d
      | some c =>
          let r := d.session.runCase c
          { d with
            session := r.session
            cases := d.cases.set i r.case
            outcomes := d.outcomes ++ r.ending.value?.toList }
  | runSet i print sink =>
      match d.sets[i]? with
      | none => d
      | some set =>
          let r := d.session.runSet set (set.run print sink)
          { d with
            session := r.session
            sets := d.sets.set i r.set
            summaries := d.summaries ++ (TestSet.returned? r.ending).toList }
  | rest ms => { d with session := d.session.rest ms }

def Use.yield (d : Desk) : Use → List Outcome
  | runCase i => (d.cases[i]?.bind fun c => (d.session.runCase c).ending.value?).toList
  | runSet i print sink =>
      match d.sets[i]? with
      | none => []
      | some set =>
          let r := d.session.runSet set (set.run print sink)
          r.reports.filterMap Report.outcome? ++ ((TestSet.returned? r.ending).map Summary.results).getD []
  | _ => []

def after (d : Desk) (uses : List Use) : Desk := uses.foldl Use.on d

def stage (d : Desk) (uses : List Use) (n : Nat) : Desk := d.after (uses.take n)

def created (d : Desk) : Nat := d.session.world.nextOutcome - 1

/-- The books list all that was made, and all that there is at the desk is from there. -/
structure Kept (made : List Outcome) (d : Desk) : Prop where
  books : d.session.world.Books made
  laid : Laid (among made) (d.outcomes, d.summaries)
  cases : ∀ c ∈ d.cases, c.Deals (among made)
  sets : ∀ set ∈ d.sets, set.Deals (among made)

end Desk

/-! ## What cases and sets keep of a run -/

variable {known : Set Outcome} {reports : List Report}

theorem mem_of_filterMap_outcome? {o : Outcome} (h : ∀ r ∈ reports, r.held ⊆ known)
    (ho : o ∈ reports.filterMap Report.outcome?) : o ∈ known := by
  obtain ⟨r, hr, hOutcome⟩ := List.mem_filterMap.mp ho
  cases r with
  | outcome p =>
    obtain rfl := Option.some.inj hOutcome
    exact h _ hr rfl
  | _ => cases hOutcome

theorem Case.Deals.afterRun {c : Case} (hCase : c.Deals known) (h : ∀ r ∈ reports, r.held ⊆ known) :
    (c.afterRun reports).Deals known := by
  induction reports generalizing c with
  | nil => exact hCase
  | cons r rest ih =>
    refine ih ?_ fun r' hr' => h r' (List.mem_cons_of_mem _ hr')
    cases r with
    | outcome o =>
      refine { hCase with lastOutcome := ?_ }
      rintro _ ⟨⟩
      exact h _ List.mem_cons_self rfl
    | _ => exact hCase

theorem TestSet.deals_recordOutcomes {cases : List Case} {outcomes : List Outcome}
    (hCases : ∀ c ∈ cases, c.Deals known) (h : ∀ o ∈ outcomes, o ∈ known) :
    ∀ c ∈ recordOutcomes cases outcomes, c.Deals known := by
  induction cases generalizing outcomes with
  | nil => exact nofun
  | cons c cases ih =>
    cases outcomes with
    | nil => exact hCases
    | cons o outcomes =>
      rintro c' (_ | ⟨_, hMem⟩)
      · refine { hCases c List.mem_cons_self with lastOutcome := ?_ }
        rintro _ ⟨⟩
        exact h o List.mem_cons_self
      · exact ih (fun d hd => hCases d (List.mem_cons_of_mem _ hd))
          (fun p hp => h p (List.mem_cons_of_mem _ hp)) c' hMem

theorem TestSet.Deals.afterRun {set : TestSet} (hSet : set.Deals known) (h : ∀ r ∈ reports, r.held ⊆ known) :
    (set.afterRun reports).Deals known where
  tests := by
    refine deals_recordOutcomes hSet.tests fun o ho => ?_
    exact mem_of_filterMap_outcome? h ho
  before := hSet.before
  after := hSet.after
  lastSummary s hs := by
    have hLast : s ∈ (reports.filterMap Report.summary?).getLast?.or set.lastSummary := hs
    rcases Option.or_eq_some_iff.mp hLast with hNew | ⟨-, hOld⟩
    · obtain ⟨r, hr, hSummary⟩ := List.mem_filterMap.mp (List.mem_of_getLast? hNew)
      cases r with
      | summary s' =>
        obtain rfl := Option.some.inj hSummary
        exact fun o ho => h _ hr ho
      | _ => cases hSummary
    · exact hSet.lastSummary s hOld

/-! ## At the desk -/

namespace Desk

variable {d : Desk} {made made' : List Outcome} {o : Outcome}

theorem lasting_laid : Lasting Laid := fun _ _ _ hSub h =>
  ⟨fun o ho => hSub (h.1 o ho), fun s hs => (h.2 s hs).mono hSub⟩

theorem lasting_mem : Lasting fun (known : Set Outcome) o => o ∈ known := fun _ _ _ hSub h => hSub h

theorem lasting_known : Lasting fun known (x : Except Abort Summary) => ∀ s, x = .ok s → s.Known known :=
  fun _ _ _ hSub h s hs => (h s hs).mono hSub

theorem eq_of_returned? {e : Ending (Except Abort Summary)} {s : Summary}
    (h : TestSet.returned? e = some s) : e = .finished (.ok s) := by
  rcases e with (f | s') | _ | _ | _
  case finished.ok => exact congrArg (fun s => Ending.finished (Except.ok s)) (Option.some.inj h)
  all_goals cases h

theorem kept_start (turns : Nat) (limit : Option Nat) : (start turns limit).Kept [] where
  books := World.Books.init
  laid := ⟨nofun, nofun⟩
  cases := nofun
  sets := nofun

namespace Kept

theorem mem (h : d.Kept made) (ho : d.Holds o) : o ∈ made := by
  cases ho with
  | outcome ho => exact h.laid.1 o ho
  | summary hs ho => exact h.laid.2 _ hs o ho
  | lastOutcome hc ho => exact (h.cases _ hc).lastOutcome o ho
  | test hs hc ho => exact ((h.sets _ hs).tests _ hc).lastOutcome o ho
  | lastSummary hs h' ho => exact (h.sets _ hs).lastSummary _ h' o ho

theorem held_subset (h : d.Kept made) : d.held ⊆ among made := fun _ ho => h.mem ho

theorem length_eq (h : d.Kept made) : made.length = d.created := by
  rw [created, h.books.next, Nat.add_sub_cancel]

/-- What the desk has stays where it is while a run goes on in the session. -/
theorem later (h : d.Kept made) (hMore : made <+: made') {s : Session} (hBooks : s.world.Books made') :
    Kept made' { d with session := s } where
  books := hBooks
  laid := lasting_laid _ (among_mono hMore) h.laid
  cases c hc := (h.cases c hc).mono (among_mono hMore)
  sets set hs := (h.sets set hs).mono (among_mono hMore)

theorem run {α : Type} {post : Set Outcome → α → Prop} {p : Async α} (h : d.Kept made) (hPost : Lasting post)
    (hDeals : p.Deals post (among made)) : ∃ made', made <+: made' ∧
      (d.session.run p).2.2.world.Books made' ∧
      ∀ a, (d.session.run p).1 = .finished a → post (among made') a := by
  have hBooks : World.Books made { d.session.world with reports := [] } :=
    { next := h.books.next, numbered := h.books.numbered, tasks := h.books.tasks, reports := nofun }
  exact hBooks.run hPost hDeals d.session.turns d.session.limit

theorem on (h : d.Kept made) (use : Use) : ∃ made', made <+: made' ∧ (use.on d).Kept made' := by
  cases use with
  | program p hp =>
    obtain ⟨made', hMore, hBooks, hLaid⟩ := h.run lasting_laid ((hp d).mono lasting_laid h.held_subset)
    have hLater := h.later hMore hBooks
    refine ⟨made', hMore, hBooks, ?_, hLater.cases, hLater.sets⟩
    change Laid (among made') ((d.session.run (p d)).1.value?.getD (d.outcomes, d.summaries))
    cases hEnding : (d.session.run (p d)).1 with
    | finished x => exact hLaid x hEnding
    | _ => exact hLater.laid
  | newCase build hBuild =>
    refine ⟨made, List.prefix_refl _, h.books, h.laid, fun c hc => ?_, h.sets⟩
    rcases List.mem_append.mp hc with hc | hc
    · exact h.cases c hc
    · exact List.mem_singleton.mp hc ▸ (hBuild d).mono h.held_subset
  | newSet build hBuild =>
    refine ⟨made, List.prefix_refl _, h.books, h.laid, h.cases, fun set hs => ?_⟩
    rcases List.mem_append.mp hs with hs | hs
    · exact h.sets set hs
    · exact List.mem_singleton.mp hs ▸ (hBuild d).mono h.held_subset
  | push i j =>
    simp only [Use.on]
    split
    · rename_i set c hSet hCase
      refine ⟨made, List.prefix_refl _, h.books, h.laid, fun c' hc' => ?_, fun set' hs' => ?_⟩
      · exact h.cases c' (List.mem_of_mem_eraseIdx hc')
      · rcases List.mem_or_eq_of_mem_set hs' with hs' | rfl
        · exact h.sets set' hs'
        · exact (h.sets set (List.mem_of_getElem? hSet)).push (h.cases c (List.mem_of_getElem? hCase))
    · exact ⟨made, List.prefix_refl _, h⟩
  | runCase i =>
    simp only [Use.on]
    split
    · exact ⟨made, List.prefix_refl _, h⟩
    · rename_i c hCase
      have hDeals := h.cases c (List.mem_of_getElem? hCase)
      obtain ⟨made', hMore, hBooks, hOutcome⟩ := h.run lasting_mem (Case.deals_run hDeals)
      have hLater := h.later hMore hBooks
      refine ⟨made', hMore, hBooks, ⟨fun o ho => ?_, hLater.laid.2⟩, fun c' hc' => ?_, hLater.sets⟩
      · rcases List.mem_append.mp ho with ho | ho
        · exact hLater.laid.1 o ho
        · exact hOutcome o (Ending.eq_of_value? (Option.mem_toList.mp ho))
      · rcases List.mem_or_eq_of_mem_set hc' with hc' | rfl
        · exact hLater.cases c' hc'
        · exact (hDeals.mono (among_mono hMore)).afterRun hBooks.reports
  | runSet i print sink =>
    simp only [Use.on]
    split
    · exact ⟨made, List.prefix_refl _, h⟩
    · rename_i set hSet
      have hDeals := h.sets set (List.mem_of_getElem? hSet)
      have hRun : (set.run print sink).Deals _ (among made) := TestSet.deals_run hDeals
      obtain ⟨made', hMore, hBooks, hSummary⟩ := h.run lasting_known hRun
      have hLater := h.later hMore hBooks
      refine ⟨made', hMore, hBooks, ⟨hLater.laid.1, fun s hs => ?_⟩, hLater.cases, fun set' hs' => ?_⟩
      · rcases List.mem_append.mp hs with hs | hs
        · exact hLater.laid.2 s hs
        · exact hSummary _ (eq_of_returned? (Option.mem_toList.mp hs)) s rfl
      · rcases List.mem_or_eq_of_mem_set hs' with hs' | rfl
        · exact hLater.sets set' hs'
        · exact (hDeals.mono (among_mono hMore)).afterRun hBooks.reports
  | rest ms =>
    obtain ⟨made', hMore, hBooks, -⟩ :=
      h.books.run (p := Async.rest ms) Program.lasting_true (.sleep (.pure trivial)) d.session.turns none
    exact ⟨made', hMore, h.later hMore hBooks⟩

/-- However the desk is used, there are books for all of it, and each earlier stage was kept in a first part
of them. -/
theorem exists_books (h : d.Kept made) (uses : List Use) : ∃ made', (d.after uses).Kept made' ∧
    ∀ n, ∃ early, made <+: early ∧ early <+: made' ∧ (d.stage uses n).Kept early := by
  induction uses generalizing d made with
  | nil =>
    refine ⟨made, h, fun n => ⟨made, List.prefix_refl _, List.prefix_refl _, ?_⟩⟩
    rw [stage, List.take_nil]
    exact h
  | cons use uses ih =>
    obtain ⟨made₁, hMore, hNext⟩ := h.on use
    obtain ⟨made', hLast, hStages⟩ := ih hNext
    refine ⟨made', hLast, fun n => ?_⟩
    cases n with
    | zero =>
      obtain ⟨early, hFrom, hTo, -⟩ := hStages 0
      exact ⟨made, List.prefix_refl _, hMore.trans (hFrom.trans hTo), h⟩
    | succ n =>
      obtain ⟨early, hFrom, hTo, hStage⟩ := hStages n
      exact ⟨early, hMore.trans hFrom, hTo, hStage⟩

end Kept

theorem stage_of_le {uses : List Use} {m n : Nat} (h : m ≤ n) :
    d.stage uses n = (d.stage uses m).after ((uses.take n).drop m) := by
  have hSplit := List.take_append_drop m (uses.take n)
  rw [List.take_take, Nat.min_eq_left h] at hSplit
  exact (congrArg d.after hSplit).symm.trans List.foldl_append

end Desk

end TestBench
