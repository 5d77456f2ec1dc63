import TestBench.Proofs.Outcome.Identity

/-! # Causes of outcomes

An outcome is well made if its cause fits its kind. It is then what the constructor makes of its own test, kind
and cause. Whatever makes outcomes makes well-made ones: the constructors, the runs of cases and sets however
they end, and all programs that deal in outcomes (`Program.Deals.of_returns`). Main statement: all that a client
ever holds is well made and can be made anew from what it says (`Desk.held_well_made`).
-/

namespace TestBench

open Program (Lasting)
open World

namespace Outcome

structure WellMade (o : Outcome) : Prop where
  pass : o.kind = .pass → o.cause = none
  fail : o.kind = .fail → o.cause ≠ some ""
  error : o.kind = .error → ∃ cause, cause ≠ "" ∧ o.cause = some cause

/-- The second outcome says what the first one says, but is another instance. -/
structure Renewed (o p : Outcome) : Prop where
  test : p.test = o.test
  kind : p.kind = o.kind
  cause : p.cause = o.cause
  render : p.render = o.render
  apart : ¬ p.sameInstance o

def RenewsIn (w : World) (o : Outcome) : Prop :=
  ∃ p w', (∀ turns limit, World.run turns limit (create o.test o.kind o.cause) w = (.finished p, w')) ∧
    o.Renewed p

theorem filter_isEmpty_ne (cause : Option String) : cause.filter (!·.isEmpty) ≠ some "" := by
  intro h
  have hKept := (Option.filter_eq_some_iff.mp h).2
  exact absurd hKept (by decide)

theorem filter_isEmpty_eq {cause : Option String} (h : cause ≠ some "") :
    cause.filter (!·.isEmpty) = cause := by
  cases cause with
  | none => rfl
  | some text =>
    refine Option.filter_some_pos ?_
    simpa using h

theorem wellMade_make (id : Nat) (test : String) (kind : Kind) (cause : Option String) :
    (make id test kind cause).WellMade := by
  cases kind with
  | pass => exact ⟨fun _ => rfl, nofun, nofun⟩
  | fail => exact ⟨nofun, fun _ => filter_isEmpty_ne cause, nofun⟩
  | error =>
    refine ⟨nofun, nofun, fun _ => ⟨_, ?_, rfl⟩⟩
    cases hCause : cause.filter (!·.isEmpty) with
    | none => decide
    | some text =>
      rintro rfl
      exact filter_isEmpty_ne cause hCause

variable {o : Outcome}

/-- Nothing is normalized away from the cause of a well-made outcome. -/
theorem WellMade.causeFor_eq (h : o.WellMade) : causeFor o.kind o.cause = o.cause := by
  cases hKind : o.kind with
  | pass => exact (h.pass hKind).symm
  | fail => exact filter_isEmpty_eq (h.fail hKind)
  | error =>
    obtain ⟨cause, hText, hCause⟩ := h.error hKind
    rw [causeFor, hCause, filter_isEmpty_eq (by simpa using hText)]
    rfl

theorem WellMade.make_eq (h : o.WellMade) (id : Nat) : make id o.test o.kind o.cause = { o with id } := by
  rw [make, h.causeFor_eq]

theorem WellMade.renewsIn (h : o.WellMade) {w : World} (hId : o.id < w.nextOutcome) : o.RenewsIn w := by
  refine ⟨{ o with id := w.nextOutcome }, (w.perform .newOutcome).2, fun turns limit => ?_, rfl, rfl, rfl, rfl, ?_⟩
  · rw [← h.make_eq]
    rfl
  · exact fun hSame => Nat.ne_of_gt hId (beq_iff_eq.mp hSame)

end Outcome

/-! ## Programs -/

/-- The well-made outcomes that may have been numbered so far. -/
def World.wellMade (w : World) : Set Outcome := {o | o.WellMade ∧ o.id < w.nextOutcome}

theorem World.wellMade_mono {w w' : World} (h : w.nextOutcome ≤ w'.nextOutcome) : w.wellMade ⊆ w'.wellMade :=
  fun _ ho => ⟨ho.1, Nat.lt_of_lt_of_le ho.2 h⟩

/-- A program that deals in outcomes and begins with well-made ones comes to well-made ones alone, be it the main
program or part of a hook, whatever goes on beside it. -/
theorem Program.Deals.of_returns {α : Type} {post : Set Outcome → α → Prop} {known : Set Outcome} {p : Async α}
    {w w' : World} {reports : List Report} {a : α} (h : p.Deals post known) (hPost : Lasting post)
    (hKnown : known ⊆ w.wellMade) (hReturns : p.Returns w reports a w') :
    post w'.wellMade a ∧ ∀ r ∈ reports, r.held ⊆ w'.wellMade := by
  induction h generalizing w reports with
  | pure ha =>
    cases hReturns
    exact ⟨hPost _ hKnown ha, nofun⟩
  | panic q => nomatch hReturns
  | fork _ _ _ ih =>
    cases hReturns with
    | fork h => exact ih hPost (hKnown.trans (wellMade_mono (w.grows_start _).nextOutcome)) h
  | create test kind cause _ ih =>
    cases hReturns with
    | act h =>
      refine ih w.nextOutcome hPost (Set.insert_subset ?_ ?_) h
      · exact ⟨Outcome.wellMade_make _ _ _ _, Nat.lt_succ_self _⟩
      · exact hKnown.trans (wellMade_mono (Nat.le_succ _))
  | act _ _ ih =>
    cases hReturns with
    | act h => exact ih _ hPost (hKnown.trans (wellMade_mono (w.grows_perform _).nextOutcome)) h
  | report hReport _ ih =>
    have hLater := hReturns.nextOutcome_le
    cases hReturns with
    | report hOthers h =>
      obtain ⟨ha, hRest⟩ := ih hPost (hKnown.trans (wellMade_mono hOthers)) h
      refine ⟨ha, List.forall_mem_cons.mpr ⟨?_, hRest⟩⟩
      exact hReport.trans (hKnown.trans (wellMade_mono hLater))
  | notice _ ih =>
    cases hReturns with
    | notice hOthers h => exact ih hPost (hKnown.trans (wellMade_mono hOthers)) h
  | sleep _ ih =>
    cases hReturns with
    | sleep hOthers h => exact ih hPost (hKnown.trans (wellMade_mono hOthers)) h
  | yield _ ih =>
    cases hReturns with
    | yield hOthers h => exact ih hPost (hKnown.trans (wellMade_mono hOthers)) h
  | await _ ih =>
    cases hReturns with
    | await x hOthers h => exact ih x hPost (hKnown.trans (wellMade_mono hOthers)) h

/-! ## Cases and sets

Their hooks may be any. -/

theorem Case.handed_of_run {c : Case} {turns : Nat} {limit : Option Nat} {w w' : World} {e : Ending Outcome}
    (h : World.run turns limit c.run w = (e, w')) :
    Hands e.value?.toList [] w w' ∧ ∀ o ∈ e.value?, o.WellMade := by
  have hLeft {limit : Option Nat} (hLeft : Left limit (c.run.under []) w w') : Hands [] [] w w' :=
    hands_of_left_run hLeft
  have hCalm {limit : Option Nat} : NeverPanics limit (c.run.under []) := neverPanics_run
  cases e with
  | finished o =>
    have hEnds : Ends _ (c.run.under []) w (.finished o) w' := ends_of_run h nofun
    obtain ⟨k, -, ho, hParts⟩ := ends_run_iff.mp hEnds
    have hHands : Hands ((k.parts o).flatMap Part.outcomes) ((k.parts o).flatMap fun _ => []) w w' :=
      .of_chain (fun _ _ _ hDoes => hands_of_does hDoes) hParts
    rw [outcomes_parts, List.flatMap_eq_nil_iff.mpr fun _ _ => rfl] at hHands
    refine ⟨hHands, ?_⟩
    rintro _ ⟨⟩
    exact ho ▸ Outcome.wellMade_make _ _ _ _
  | panicked q => exact absurd (ends_of_run h nofun) (hCalm q _ _)
  | pending => exact ⟨hLeft (left_of_run h (.inl rfl)), nofun⟩
  | unfinished => exact ⟨hLeft (left_of_run h (.inr rfl)), nofun⟩

namespace TestSet.Passage.Takes

variable {limit : Option Nat} {print : Bool} {sink : Sink} {set : TestSet} {e : Ending (Except Abort Summary)}
  {w w' : World} {p : Passage}

theorem wellMade_of_mem (h : p.Takes limit print sink set e w w') : ∀ o ∈ p.outcomes, o.WellMade := by
  have hYields {cases : List Case} {tests : List (Case.Course × Outcome)}
      (h : List.Forall₂ Course.Yields cases tests) : ∀ o ∈ tests.map (·.2), o.WellMade := by
    induction h with
    | nil => exact nofun
    | @cons c x cases tests hTest _ ih =>
      refine List.forall_mem_cons.mpr ⟨?_, ih⟩
      change x.2.WellMade
      rw [hTest.2]
      exact Outcome.wellMade_make _ _ _ _
  rcases p with (_ | ⟨setup, tests, teardown⟩) | (_ | tests | tests)
  · exact nofun
  · exact hYields h.1.2.1
  · exact nofun
  · exact hYields h.2.1.2
  · exact hYields h.2.1.1

theorem results_eq (h : p.Takes limit print sink set e w w') {s : Summary} (hReturned : returned? e = some s) :
    s.results = p.outcomes := by
  rcases p with ((f | q) | ⟨setup, tests, teardown⟩) | k
  · obtain ⟨-, rfl, -⟩ := h
    cases hReturned
  · obtain ⟨-, rfl, -⟩ := h
    cases hReturned
  · obtain ⟨-, rfl, -⟩ := h
    rcases teardown with _ | q | f | ⟨⟩ <;> cases hReturned <;> rfl
  · obtain ⟨rfl | rfl, -⟩ := h <;> cases hReturned

end TestSet.Passage.Takes

/-! ## At the desk -/

variable {known : Set Outcome}

def Case.Keeps (known : Set Outcome) (c : Case) : Prop := ∀ o ∈ c.lastOutcome, o ∈ known

structure TestSet.Keeps (known : Set Outcome) (set : TestSet) : Prop where
  tests : ∀ c ∈ set.tests, c.Keeps known
  lastSummary : ∀ s ∈ set.lastSummary, s.Known known

/-- All that is kept at the desk is known, each thing in its place. -/
structure Desk.Keeps (known : Set Outcome) (d : Desk) : Prop where
  laid : Laid known (d.outcomes, d.summaries)
  cases : ∀ c ∈ d.cases, c.Keeps known
  sets : ∀ set ∈ d.sets, set.Keeps known

theorem Case.Keeps.afterRun {c : Case} {reports : List Report} (h : c.Keeps known)
    (hReports : ∀ o ∈ reports.filterMap Report.outcome?, o ∈ known) : (c.afterRun reports).Keeps known := by
  induction reports generalizing c with
  | nil => exact h
  | cons r rest ih =>
    cases r with
    | outcome p =>
      obtain ⟨hp, hRest⟩ := List.forall_mem_cons.mp hReports
      refine ih ?_ hRest
      rintro _ ⟨⟩
      exact hp
    | _ => exact ih h hReports

theorem TestSet.keeps_recordOutcomes {cases : List Case} {outcomes : List Outcome}
    (hCases : ∀ c ∈ cases, c.Keeps known) (hOutcomes : ∀ o ∈ outcomes, o ∈ known) :
    ∀ c ∈ recordOutcomes cases outcomes, c.Keeps known := by
  intro c' hc' o ho
  obtain ⟨i, hi⟩ := List.mem_iff_getElem?.mp hc'
  rw [getElem?_recordOutcomes] at hi
  obtain ⟨c, hc, rfl⟩ := Option.map_eq_some_iff.mp hi
  rcases Option.or_eq_some_iff.mp ho with hNew | ⟨-, hOld⟩
  · exact hOutcomes o (List.mem_of_getElem? hNew)
  · exact hCases c (List.mem_of_getElem? hc) o hOld

namespace Session

variable (s : Session)

theorem keeps_runCase {c : Case} (h : c.Keeps {o | o.WellMade}) :
    (∀ o ∈ (s.runCase c).ending.value?, o.WellMade) ∧ (s.runCase c).case.Keeps {o | o.WellMade} := by
  obtain ⟨w', hRun⟩ : ∃ w', World.run s.turns s.limit c.run { s.world with reports := [] } =
      ((s.runCase c).ending, w') := ⟨_, rfl⟩
  obtain ⟨hHands, hOutcome⟩ := Case.handed_of_run hRun
  have hCase : (s.runCase c).case = c.afterRun w'.reports :=
    congrArg (fun x : Ending Outcome × World => c.afterRun x.2.reports) hRun
  have hOutcomes := hHands.outcomes
  rw [List.filterMap_nil, List.nil_append] at hOutcomes
  refine ⟨hOutcome, hCase ▸ h.afterRun fun o ho => ?_⟩
  rw [hOutcomes] at ho
  exact hOutcome o (Option.mem_toList.mp ho)

theorem keeps_runSet {set : TestSet} (print : Bool) (sink : Sink) (h : set.Keeps {o | o.WellMade}) :
    (∀ summary ∈ TestSet.returned? (s.runSet set (set.run print sink)).ending,
      summary.Known {o | o.WellMade}) ∧
    (s.runSet set (set.run print sink)).set.Keeps {o | o.WellMade} := by
  obtain ⟨p, hTakes, hAfter⟩ := s.runSet_passes set print sink
  have hSummary : ∀ summary ∈ TestSet.returned? (s.runSet set (set.run print sink)).ending,
      summary.Known {o | o.WellMade} := by
    intro summary hReturned o ho
    rw [hTakes.results_eq hReturned] at ho
    exact hTakes.wellMade_of_mem o ho
  rw [hAfter]
  refine ⟨hSummary, TestSet.keeps_recordOutcomes h.tests hTakes.wellMade_of_mem, fun summary hLast => ?_⟩
  rcases Option.or_eq_some_iff.mp hLast with hNew | ⟨-, hOld⟩
  · exact hSummary summary hNew
  · exact h.lastSummary summary hOld

end Session

namespace Desk

variable {d : Desk} {made : List Outcome} {o : Outcome}

theorem held_subset_iff : d.held ⊆ known ↔ d.Keeps known := by
  constructor
  · intro h
    exact ⟨⟨fun o ho => h (.outcome ho), fun s hs o ho => h (.summary hs ho)⟩,
      fun c hc o ho => h (.lastOutcome hc ho),
      fun set hs => ⟨fun c hc o ho => h (.test hs hc ho), fun s hSummary o ho => h (.lastSummary hs hSummary ho)⟩⟩
  · intro h o ho
    cases ho with
    | outcome ho => exact h.laid.1 o ho
    | summary hs ho => exact h.laid.2 _ hs o ho
    | lastOutcome hc ho => exact h.cases _ hc o ho
    | test hs hc ho => exact (h.sets _ hs).tests _ hc o ho
    | lastSummary hs h' ho => exact (h.sets _ hs).lastSummary _ h' o ho

/-- The kept outcomes are well made, so they are among those that the world may have numbered. -/
theorem Kept.held_wellMade (h : d.Kept made) (hKeeps : d.Keeps {o | o.WellMade}) :
    d.held ⊆ d.session.world.wellMade := by
  intro o ho
  have hBounds := h.books.bounds (h.mem ho)
  exact ⟨held_subset_iff.mpr hKeeps ho, by rw [h.books.next]; omega⟩

theorem forall_mem_put {α : Type} {good : α → Prop} {xs : List α} {i : Nat} {x : α} (h : ∀ y ∈ xs, good y)
    (hx : good x) : ∀ y ∈ xs.set i x, good y := by
  intro y hy
  rcases List.mem_or_eq_of_mem_set hy with hy | rfl
  · exact h y hy
  · exact hx

theorem Kept.keeps_on (h : d.Kept made) (hKeeps : d.Keeps {o | o.WellMade}) (use : Use) :
    (use.on d).Keeps {o | o.WellMade} := by
  have hHeld : ∀ o ∈ d.held, o.WellMade := held_subset_iff.mpr hKeeps
  cases use with
  | program p hp =>
    refine ⟨?_, hKeeps.cases, hKeeps.sets⟩
    change Laid _ ((d.session.run (p d)).1.value?.getD (d.outcomes, d.summaries))
    cases hValue : (d.session.run (p d)).1.value? with
    | none => exact hKeeps.laid
    | some x =>
      have hRun : World.run d.session.turns d.session.limit (p d) { d.session.world with reports := [] } =
          (.finished x, _) := Prod.ext (Ending.eq_of_value? hValue) rfl
      obtain ⟨reports, -, hReturns⟩ := (ends_of_run hRun nofun).returns
      have hKnown : d.held ⊆ World.wellMade { d.session.world with reports := [] } := h.held_wellMade hKeeps
      exact lasting_laid x (fun _ ho => ho.1) ((hp d).of_returns lasting_laid hKnown hReturns).1
  | newCase build hBuild =>
    refine ⟨hKeeps.laid, List.forall_mem_append.mpr ⟨hKeeps.cases, ?_⟩, hKeeps.sets⟩
    exact List.forall_mem_singleton.mpr fun o ho => hHeld o ((hBuild d).lastOutcome o ho)
  | newSet build hBuild =>
    refine ⟨hKeeps.laid, hKeeps.cases, List.forall_mem_append.mpr ⟨hKeeps.sets, ?_⟩⟩
    exact List.forall_mem_singleton.mpr ⟨fun c hc o ho => hHeld o (((hBuild d).tests c hc).lastOutcome o ho),
      fun s hs o ho => hHeld o ((hBuild d).lastSummary s hs o ho)⟩
  | push i j =>
    simp only [Use.on]
    split
    · rename_i set c hSet hCase
      have hSet : set.Keeps _ := hKeeps.sets set (List.mem_of_getElem? hSet)
      have hCase : c.Keeps _ := hKeeps.cases c (List.mem_of_getElem? hCase)
      have hTests := List.forall_mem_append.mpr ⟨hSet.tests, List.forall_mem_singleton.mpr hCase⟩
      refine ⟨hKeeps.laid, fun c' hc' => hKeeps.cases c' (List.mem_of_mem_eraseIdx hc'), ?_⟩
      exact forall_mem_put hKeeps.sets ⟨hTests, hSet.lastSummary⟩
    · exact hKeeps
  | runCase i =>
    simp only [Use.on]
    split
    · exact hKeeps
    · rename_i c hCase
      obtain ⟨hOutcome, hAfter⟩ := d.session.keeps_runCase (hKeeps.cases c (List.mem_of_getElem? hCase))
      refine ⟨⟨List.forall_mem_append.mpr ⟨hKeeps.laid.1, fun o ho => ?_⟩, hKeeps.laid.2⟩,
        forall_mem_put hKeeps.cases hAfter, hKeeps.sets⟩
      exact hOutcome o (Option.mem_toList.mp ho)
  | runSet i print sink =>
    simp only [Use.on]
    split
    · exact hKeeps
    · rename_i set hSet
      obtain ⟨hSummary, hAfter⟩ :=
        d.session.keeps_runSet print sink (hKeeps.sets set (List.mem_of_getElem? hSet))
      refine ⟨⟨hKeeps.laid.1, List.forall_mem_append.mpr ⟨hKeeps.laid.2, fun s hs => ?_⟩⟩, hKeeps.cases,
        forall_mem_put hKeeps.sets hAfter⟩
      exact hSummary s (Option.mem_toList.mp hs)
  | rest ms => exact ⟨hKeeps.laid, hKeeps.cases, hKeeps.sets⟩

theorem Kept.keeps_after (h : d.Kept made) (hKeeps : d.Keeps {o | o.WellMade}) (uses : List Use) :
    (d.after uses).Keeps {o | o.WellMade} := by
  induction uses generalizing d made with
  | nil => exact hKeeps
  | cons use uses ih =>
    obtain ⟨made', -, hKept⟩ := h.on use
    exact ih hKept (h.keeps_on hKeeps use)

/-- Whatever a client does, an outcome that it holds at some stage, in whatever place, has a cause that fits its
kind, and the constructor called with what the outcome says makes another one that says the same, then and later.
So it is with what a program comes to in the midst of a run, in a hook of a case or set for one: if it began with
well-made outcomes it returns and reports none but such. -/
theorem held_well_made (turns : Nat) (limit : Option Nat) (uses : List Use) :
    let desk := (start turns limit).stage uses
    (∀ n o, (desk n).Holds o → o.WellMade ∧
      ∀ w : World, (desk n).session.world.nextOutcome ≤ w.nextOutcome → o.RenewsIn w) ∧
    ∀ (α : Type) (post : Set Outcome → α → Prop) (known : Set Outcome) (p : Async α) (w w' : World)
      (reports : List Report) (a : α), p.Deals post known → Lasting post → known ⊆ w.wellMade →
      p.Returns w reports a w' → post w'.wellMade a ∧ (∀ r ∈ reports, r.held ⊆ w'.wellMade) ∧
        ∀ o ∈ w'.wellMade, o.WellMade ∧ ∀ w'' : World, w'.nextOutcome ≤ w''.nextOutcome → o.RenewsIn w'' := by
  intro desk
  have hRenews {w w' : World} (h : w.nextOutcome ≤ w'.nextOutcome) : ∀ o ∈ w.wellMade, o.RenewsIn w' :=
    fun o ho => ho.1.renewsIn (Nat.lt_of_lt_of_le ho.2 h)
  constructor
  · intro n o ho
    have hStart : (start turns limit).Keeps {o | o.WellMade} := ⟨⟨nofun, nofun⟩, nofun, nofun⟩
    obtain ⟨_, -, hStages⟩ := (kept_start turns limit).exists_books uses
    obtain ⟨made, -, -, hKept⟩ := hStages n
    have hWellMade := hKept.held_wellMade ((kept_start turns limit).keeps_after hStart (uses.take n)) ho
    exact ⟨hWellMade.1, fun w hLater => hRenews hLater o hWellMade⟩
  · intro α post known p w w' reports a hDeals hPost hKnown hReturns
    obtain ⟨ha, hReports⟩ := hDeals.of_returns hPost hKnown hReturns
    exact ⟨ha, hReports, fun o ho => ⟨ho.1, fun w'' hLater => hRenews hLater o ho⟩⟩

/-- Two tests that fail without saying why: one in its body, the other in its set-up. -/
def speechless : TestSet :=
  { tests := [⟨"blank", .ofWork (.pure (.error (.assertion ""))), none, none, none⟩,
      ⟨"mute", .ofWork (.pure (.ok ())), some (.panic .other), none, none⟩] }

theorem deals_speechless (known : Set Outcome) : speechless.Deals known where
  tests := by
    refine List.forall_mem_cons.mpr ⟨⟨Hook.deals_ofWork (.pure trivial), nofun, nofun, nofun⟩, ?_⟩
    refine List.forall_mem_singleton.mpr ⟨Hook.deals_ofWork (.pure trivial), ?_, nofun, nofun⟩
    rintro _ ⟨⟩
    exact .panic _
  before := nofun
  after := nofun
  lastSummary := nofun

theorem held_well_made_of_speechless :
    let uses : List Use := [.newSet (fun _ => speechless) fun d => deals_speechless d.held, .runSet 0 true .memory]
    let d := (start 0 none).stage uses 2
    let blank : Outcome := ⟨1, "blank", .fail, none⟩
    let mute : Outcome := ⟨2, "mute", .error, some "Unknown error"⟩
    d.summaries = [.ofOutcomes [blank, mute]] ∧
      (d.sets.flatMap (·.tests)).map (·.lastOutcome) = [some blank, some mute] ∧
      (∀ o ∈ [blank, mute], o.WellMade ∧ o.RenewsIn d.session.world) ∧
      (Outcome.make 1 "empty" .error (some "")).WellMade := by
  intro uses d blank mute
  have hSummaries : d.summaries = [.ofOutcomes [blank, mute]] := rfl
  have hDesk := held_well_made 0 none uses
  refine ⟨hSummaries, rfl, fun o ho => ?_, ?_⟩
  · have hHolds : d.Holds o := .summary (hSummaries ▸ List.mem_singleton.mpr rfl) ho
    exact ⟨(hDesk.1 2 o hHolds).1, (hDesk.1 2 o hHolds).2 _ (Nat.le_refl _)⟩
  · have hDeals : (Outcome.create "empty" .error (some "")).Deals (fun known o => o ∈ known) ∅ :=
      .create _ _ _ fun _ => .pure (Set.mem_insert _ _)
    have hReturns : (Outcome.create "empty" .error (some "")).Returns {} [] (.make 1 "empty" .error (some "")) _ :=
      .act (.pure _ _)
    obtain ⟨ho, -, hAll⟩ := hDesk.2 _ _ _ _ _ _ _ _ hDeals lasting_mem (Set.empty_subset _) hReturns
    exact (hAll _ ho).1

end Desk

end TestBench
