import TestBench.Session
import TestBench.Proofs.Set.Course
import TestBench.Proofs.World.Silence

/-! # How a run of a set passes

A run of a set takes a course to its end, or it is left: while the set-up is at work, in one of the
tests, or while the teardown is at work. What it hands over to the set by then are the outcomes of the
tests that came to their end, and the summary if the run returned it (`Session.runSet_passes`).
-/

namespace TestBench

open World

def Report.outcome? : Report → Option Outcome
  | .outcome o => some o
  | _ => none

def Report.summary? : Report → Option Summary
  | .summary s => some s
  | _ => none

/-- What was handed over on the way from one world to another. -/
structure World.Hands (outcomes : List Outcome) (summaries : List Summary) (w w' : World) : Prop where
  outcomes : w'.reports.filterMap Report.outcome? = w.reports.filterMap Report.outcome? ++ outcomes
  summaries : w'.reports.filterMap Report.summary? = w.reports.filterMap Report.summary? ++ summaries

namespace World.Hands

variable {w w₁ w' : World} {outcomes outcomes' : List Outcome} {summaries summaries' : List Summary}

theorem of_reports_eq (h : w'.reports = w.reports) : Hands [] [] w w' := by
  constructor <;> rw [h, List.append_nil]

theorem trans (h : Hands outcomes summaries w w₁) (h' : Hands outcomes' summaries' w₁ w') :
    Hands (outcomes ++ outcomes') (summaries ++ summaries') w w' := by
  constructor
  · rw [h'.outcomes, h.outcomes, List.append_assoc]
  · rw [h'.summaries, h.summaries, List.append_assoc]

theorem of_chain {ι : Type} {does : ι → World → World → Prop} {outcomes : ι → List Outcome}
    {summaries : ι → List Summary}
    (hDoes : ∀ part w w', does part w w' → Hands (outcomes part) (summaries part) w w')
    {parts : List ι} (h : Chain does parts w w') :
    Hands (parts.flatMap outcomes) (parts.flatMap summaries) w w' := by
  induction parts generalizing w with
  | nil => exact h ▸ of_reports_eq rfl
  | cons part parts ih =>
    obtain ⟨w₁, hPart, hRest⟩ := h
    exact (hDoes part w w₁ hPart).trans (ih hRest)

end World.Hands

variable {limit : Option Nat} {w w' : World}

theorem Hook.silent_run (h : Hook) (spans : List Span) : (h.run.under spans).Silent :=
  (Program.silent_muted _).under spans

theorem Hook.hands_of_ends_run {h : Hook} {spans : List Span} {e : Ending Result}
    (hEnds : Ends limit (h.run.under spans) w e w') : Hands [] [] w w' :=
  .of_reports_eq (hEnds.reports_eq (h.silent_run spans))

theorem Hook.hands_of_left_run {h : Hook} {spans : List Span}
    (hLeft : Left limit (h.run.under spans) w w') : Hands [] [] w w' :=
  .of_reports_eq (hLeft.reports_eq (h.silent_run spans))

/-! ## Cases -/

namespace Case

def Part.outcomes : Part → List Outcome
  | .recorded o => [o]
  | _ => []

theorem hands_of_does {spans : List Span} {c : Case} {part : Part} (h : c.Does limit spans part w w') :
    Hands part.outcomes [] w w' := by
  cases part with
  | setup e => exact h.elim fun _ h => Hook.hands_of_ends_run h.2
  | body e => exact Hook.hands_of_ends_run h
  | teardown e => exact h.elim fun _ h => Hook.hands_of_ends_run h.2
  | noted n => exact .of_reports_eq (by rw [h])
  | numbered o => exact .of_reports_eq (by rw [h.2])
  | recorded o => exact h ▸ ⟨List.filterMap_append, List.filterMap_append⟩

theorem outcomes_parts (k : Course) (o : Outcome) : (k.parts o).flatMap Part.outcomes = [o] := by
  have hNotices (n : Failure → Notice) (f : Option Failure) :
      (f.toList.map fun f => Part.noted (n f)).flatMap Part.outcomes = [] := by cases f <;> rfl
  have hParts (part : Ended → Part) (hPart : ∀ e, (part e).outcomes = []) (e : Option Ended) :
      (e.toList.map part).flatMap Part.outcomes = [] := by
    cases e with
    | none => rfl
    | some e => exact (List.append_nil _).trans (hPart e)
  have hInvocations : k.invocations.flatMap Part.outcomes = [] := by
    simp only [Course.invocations, Course.examination, Course.closing, List.flatMap_append, hNotices,
      hParts .setup fun _ => rfl, hParts .body fun _ => rfl, hParts .teardown fun _ => rfl,
      List.append_nil]
  rw [Course.parts, List.flatMap_append, hInvocations]
  rfl

theorem silent_invocations (c : Case) (spans : List Span) :
    ((c.examine.bind c.tearDown).under spans).Silent := by
  have hInvoke (h : Hook) : h.invoke.Silent := Program.silent_muted _
  have hOption (h? : Option Hook) : (Hook.invokeOption h?).Silent := by
    cases h? with
    | none => exact .pure _
    | some h => exact hInvoke h
  refine Program.Silent.under spans (.bind ?_ fun found => ?_)
  · rw [examine_eq]
    refine (hOption c.before).bind ?_
    rintro (f | _)
    · exact .notice (.pure _)
    · exact (hInvoke c.body).bind fun _ => .pure _
  · rw [tearDown_eq]
    refine (hOption c.after).bind ?_
    rintro (f | _)
    · exact .notice (.pure _)
    · exact .pure _

/-- A case that is left has not handed over an outcome: between that and its end there is no wait. -/
theorem hands_of_left_run {c : Case} {spans : List Span} (h : Left limit (c.run.under spans) w w') :
    Hands [] [] w w' := by
  rw [run_eq, Program.under_within, Program.under_bind] at h
  obtain hLeft | ⟨found, w₁, -, hLeft⟩ := h.of_bind
  · exact .of_reports_eq (hLeft.reports_eq (c.silent_invocations _))
  · rw [conclude_eq] at hLeft
    simp only [Program.under_act, Program.under_notice, Program.under_report, Program.under_pure] at hLeft
    exact absurd hLeft not_left_pure

end Case

/-! ## Sets -/

namespace TestSet

open Course (Yields)

variable {print : Bool} {sink : Sink} {set : TestSet}

def Part.outcomes : Part → List Outcome
  | .test _ part => part.outcomes
  | _ => []

def Part.summaries : Part → List Summary
  | .kept s => [s]
  | _ => []

theorem hands_of_does {part : Part} (h : set.Does limit sink part w w') :
    Hands part.outcomes part.summaries w w' := by
  cases part with
  | setup e => exact h.elim fun _ h => Hook.hands_of_ends_run h.2
  | test i part => exact h.elim fun _ h => Case.hands_of_does h.2
  | printed line =>
    rcases sink with _ | color | _
    · exact h ▸ ⟨List.filterMap_append, List.filterMap_append⟩
    · exact h ▸ ⟨List.filterMap_append, List.filterMap_append⟩
    · exact h ▸ ⟨List.filterMap_append, List.filterMap_append⟩
  | teardown e => exact h.elim fun _ h => Hook.hands_of_ends_run h.2
  | noted n => exact .of_reports_eq (by rw [h])
  | kept s => exact h ▸ ⟨List.filterMap_append, List.filterMap_append⟩

theorem hands_of_chain {parts : List Part} (h : Chain (set.Does limit sink) parts w w') :
    Hands (parts.flatMap Part.outcomes) (parts.flatMap Part.summaries) w w' :=
  Hands.of_chain (fun _ _ _ h => hands_of_does h) h

@[simp] theorem outcomes_printing (line : Line) : (printing print line).flatMap Part.outcomes = [] := by
  cases print <;> rfl

@[simp] theorem summaries_printing (line : Line) : (printing print line).flatMap Part.summaries = [] := by
  cases print <;> rfl

@[simp] theorem outcomes_testing (i : Nat) (tests : List (Case.Course × Outcome)) :
    (testing print i tests).flatMap Part.outcomes = tests.map (·.2) := by
  induction tests generalizing i with
  | nil => rfl
  | cons x tests ih =>
    obtain ⟨k, o⟩ := x
    have hTest : ((k.parts o).map (Part.test i)).flatMap Part.outcomes = [o] := by
      rw [List.flatMap_map]
      exact Case.outcomes_parts k o
    simp only [testing, List.flatMap_append, hTest, outcomes_printing, ih, List.append_nil, List.map_cons,
      List.singleton_append]

@[simp] theorem summaries_testing (i : Nat) (tests : List (Case.Course × Outcome)) :
    (testing print i tests).flatMap Part.summaries = [] := by
  induction tests generalizing i with
  | nil => rfl
  | cons x tests ih =>
    have hTest (parts : List Case.Part) : (parts.map (Part.test i)).flatMap Part.summaries = [] := by
      rw [List.flatMap_map]
      exact List.flatMap_eq_nil_iff.mpr fun _ _ => rfl
    simp only [testing, List.flatMap_append, hTest, summaries_printing, ih, List.append_nil]

/-- Where a run of the set is left, with the tests that came to their end before. -/
inductive Stop
  | setup
  | test (tests : List (Case.Course × Outcome))
  | teardown (tests : List (Case.Course × Outcome))

/-- The set-up, if there is one, succeeds. -/
def begun (set : TestSet) : List Part := set.before.toList.map fun _ => .setup (.ok (.ok ()))

namespace Stop

def parts (print : Bool) (set : TestSet) : Stop → List Part
  | setup => []
  | test tests => set.begun ++ testing print 0 tests
  | teardown tests => set.begun ++ testing print 0 tests ++ printing print (Course.summary tests).line

def Of (set : TestSet) : Stop → Prop
  | setup => set.before.isSome
  | test tests =>
      tests.length < set.tests.length ∧ List.Forall₂ Yields (set.tests.take tests.length) tests
  | teardown tests => List.Forall₂ Yields set.tests tests ∧ set.after.isSome

def LeftIn (limit : Option Nat) (set : TestSet) : Stop → World → World → Prop
  | setup, w, w' => ∃ h, set.before = some h ∧ Left limit (h.run.under [.set set.tests.length]) w w'
  | test tests, w, w' =>
      ∃ c, set.tests[tests.length]? = some c ∧ Left limit (c.run.under [.set set.tests.length]) w w'
  | teardown _, w, w' => ∃ h, set.after = some h ∧ Left limit (h.run.under [.set set.tests.length]) w w'

theorem hands_of_leftIn {k : Stop} (h : k.LeftIn limit set w w') : Hands [] [] w w' := by
  cases k with
  | setup => exact h.elim fun _ h => Hook.hands_of_left_run h.2
  | test tests => exact h.elim fun _ h => Case.hands_of_left_run h.2
  | teardown tests => exact h.elim fun _ h => Hook.hands_of_left_run h.2

end Stop

theorem not_left_emit {spans : List Span} {line : Line} :
    ¬ Left limit ((emit print sink line).under spans) w w' := by
  cases print with
  | false => simpa [emit] using not_left_pure
  | true =>
    rcases sink with _ | color | _
    · change ¬ Left limit ((Program.report _ (.pure ())).under spans) w w'
      rw [Program.under_report, Program.under_pure]
      exact not_left_pure
    · change ¬ Left limit ((Program.report _ (.pure ())).under spans) w w'
      rw [Program.under_report, Program.under_pure]
      exact not_left_pure
    · change ¬ Left limit ((Program.notice _ (.pure ())).under spans) w w'
      rw [Program.under_notice, Program.under_pure]
      exact not_left_pure

theorem left_runOption_bind {α : Type} {h? : Option Hook} {spans : List Span} {g : Result → Async α}
    (hLeft : Left limit (((Hook.runOption h?).under spans).bind g) w w') :
    (∃ h, h? = some h ∧ Left limit (h.run.under spans) w w') ∨
      ∃ r w₁, Left limit (g r) w₁ w' ∧ Chain (fun (e : Ended) w w' => ∃ h, h? = some h ∧
        Ends limit (h.run.under spans) w e.ending w') (h?.toList.map fun _ => .ok r) w w₁ := by
  cases h? with
  | none =>
    change Left limit (((Program.pure _).under spans).bind g) w w' at hLeft
    rw [Program.under_pure] at hLeft
    exact .inr ⟨.ok (), w, hLeft, rfl⟩
  | some h =>
    obtain hLeft | ⟨r, w₁, hEnds, hLeft⟩ := hLeft.of_bind
    · exact .inl ⟨h, rfl, hLeft⟩
    · exact .inr ⟨r, w₁, hLeft, ⟨w₁, ⟨h, rfl, hEnds⟩, rfl⟩⟩

theorem left_runTests {cases : List Case} {i : Nat} {s : Summary} (hCases : set.tests.drop i = cases)
    (hSeen : ∀ id ∈ s.seen, id < w.nextOutcome)
    (h : Left limit ((runTests print sink cases s).under [.set set.tests.length]) w w') :
    ∃ tests c w₁, List.Forall₂ Yields (cases.take tests.length) tests ∧ cases[tests.length]? = some c ∧
      Chain (set.Does limit sink) (testing print i tests) w w₁ ∧
      Left limit (c.run.under [.set set.tests.length]) w₁ w' := by
  induction cases generalizing i s w with
  | nil => exact absurd h not_left_pure
  | cons c rest ih =>
    obtain ⟨hTest, hRest⟩ : set.tests[i]? = some c ∧ set.tests.drop (i + 1) = rest := by
      constructor
      · rw [← List.head?_drop, hCases]; rfl
      · rw [← List.tail_drop, hCases]; rfl
    rw [runTests_cons, Program.under_bind] at h
    obtain hLeft | ⟨o, w₁, hRun, h⟩ := h.of_bind
    · exact ⟨[], c, w, .nil, rfl, rfl, hLeft⟩
    · obtain ⟨hEnter, hSeen⟩ := enter_of_ends_run hSeen hRun
      rw [hEnter, Program.under_bind, Program.under_pure] at h
      change Left limit (((emit print sink o.line).bind _).under _) w₁ w' at h
      rw [Program.under_bind] at h
      obtain hLeft | ⟨_, w₂, hEmit, h⟩ := h.of_bind
      · exact absurd hLeft not_left_emit
      · have hSeen₂ := fun id hMem => Nat.lt_of_lt_of_le (hSeen id hMem) hEmit.grows.nextOutcome
        obtain ⟨tests, d, w₃, hYields, hNext, hChain, hLeft⟩ := ih hRest hSeen₂ h
        obtain ⟨k, hOf, ho, hParts⟩ := Case.ends_run_iff.mp hRun
        refine ⟨(k, o) :: tests, d, w₃, .cons ⟨hOf, ho⟩ hYields, hNext, ?_, hLeft⟩
        simp only [testing, chain_append_iff, chain_map_iff, does_test_eq hTest]
        exact ⟨w₂, ⟨w₁, hParts, ends_emit_iff.mp hEmit⟩, hChain⟩

theorem left_runTests_finish (h : Left limit (((runTests print sink set.tests {}).bind
      (set.finish print sink)).under [.set set.tests.length]) w w') :
    ∃ k : Stop, k.Of set ∧ ∃ parts w₁, k.parts print set = set.begun ++ parts ∧
      Chain (set.Does limit sink) parts w w₁ ∧ k.LeftIn limit set w₁ w' := by
  rw [Program.under_bind] at h
  obtain hLeft | ⟨s, w₁, hRun, h⟩ := h.of_bind
  · obtain ⟨tests, c, w₁, hYields, hNext, hChain, hLeft⟩ := left_runTests List.drop_zero (by simp) hLeft
    obtain ⟨hLength, -⟩ := List.getElem?_eq_some_iff.mp hNext
    exact ⟨.test tests, ⟨hLength, hYields⟩, _, w₁, rfl, hChain, c, hNext, hLeft⟩
  · obtain ⟨tests, hYields, ⟨rfl⟩, hChain⟩ := (ends_allTests_iff (by simp)).mp hRun
    rw [finish, Program.under_bind] at h
    obtain hLeft | ⟨_, w₂, hEmit, h⟩ := h.of_bind
    · exact absurd hLeft not_left_emit
    · rw [Program.under_bind] at h
      obtain ⟨hook, hAfter, hLeft⟩ | ⟨r, w₃, hLeft, -⟩ := left_runOption_bind h
      · refine ⟨.teardown tests, ⟨hYields, Option.isSome_iff_exists.mpr ⟨hook, hAfter⟩⟩, _, w₂,
          List.append_assoc .., ?_, hook, hAfter, hLeft⟩
        exact chain_append_iff.mpr ⟨w₁, hChain, ends_emit_iff.mp hEmit⟩
      · -- what follows the teardown does not wait
        cases r with
        | error f =>
          simp only [giveUp, Program.under_notice, Program.under_pure] at hLeft
          exact absurd hLeft not_left_pure
        | ok _ =>
          simp only [Program.under_notice, Program.under_report, Program.under_pure] at hLeft
          exact absurd hLeft not_left_pure

/-- A run that is left stands in the set-up, in a test or in the teardown, and all before went through. -/
theorem left_run (h : Left limit (set.run print sink) w w') :
    ∃ k : Stop, k.Of set ∧ ∃ w₁, Chain (set.Does limit sink) (k.parts print set) w w₁ ∧
      k.LeftIn limit set w₁ w' := by
  rw [run_eq, Program.under_bind] at h
  obtain ⟨hook, hBefore, hLeft⟩ | ⟨r, w₁, h, hSetup⟩ := left_runOption_bind h
  · exact ⟨.setup, Option.isSome_iff_exists.mpr ⟨hook, hBefore⟩, w, rfl, hook, hBefore, hLeft⟩
  · cases r with
    | error f =>
      simp only [giveUp, Program.under_notice, Program.under_pure] at h
      exact absurd h not_left_pure
    | ok _ =>
      obtain ⟨k, hOf, parts, w₂, hParts, hChain, hLeft⟩ := left_runTests_finish h
      have hBegun : Chain (set.Does limit sink)
          ((set.before.toList.map fun _ => .ok (.ok ())).map .setup) w w₁ := chain_map_iff.mpr hSetup
      rw [List.map_map] at hBegun
      exact ⟨k, hOf, w₂, hParts ▸ chain_append_iff.mpr ⟨w₁, hBegun, hChain⟩, hLeft⟩

/-! ## Passages -/

inductive Passage
  | ended (k : Course)
  | left (k : Stop)

def returned? : Ending (Except Abort Summary) → Option Summary
  | .finished (.ok s) => some s
  | _ => none

namespace Passage

def completed : Passage → List (Case.Course × Outcome)
  | ended (.refused _) | left .setup => []
  | ended (.carried _ tests _) | left (.test tests) | left (.teardown tests) => tests

def outcomes (p : Passage) : List Outcome := p.completed.map (·.2)

/-- A run of the set passes so, from one world to another. -/
def Takes (limit : Option Nat) (print : Bool) (sink : Sink) (set : TestSet)
    (e : Ending (Except Abort Summary)) (w w' : World) : Passage → Prop
  | ended k => k.Of set ∧ e = k.ending ∧ Chain (set.Does limit sink) (k.parts print) w w'
  | left k =>
      (e = .pending ∨ e = .unfinished) ∧ k.Of set ∧
        ∃ w₁, Chain (set.Does limit sink) (k.parts print set) w w₁ ∧ k.LeftIn limit set w₁ w'

end Passage

variable {e : Ending (Except Abort Summary)}

theorem hands_of_course {k : Course} (h : Chain (set.Does limit sink) (k.parts print) w w') :
    Hands (Passage.ended k).outcomes (returned? k.ending).toList w w' := by
  have hHands := hands_of_chain h
  have hHooks (part : Ended → Part) (hPart : ∀ e, (part e).outcomes = [] ∧ (part e).summaries = [])
      (e : Option Ended) : (e.toList.map part).flatMap Part.outcomes = [] ∧
        (e.toList.map part).flatMap Part.summaries = [] := by
    cases e with
    | none => exact ⟨rfl, rfl⟩
    | some e => simp [hPart]
  rcases k with (q | f) | ⟨setup, tests, teardown⟩
  · exact hHands
  · exact hHands
  · obtain ⟨hSetup, hSetup'⟩ := hHooks .setup (fun _ => ⟨rfl, rfl⟩) setup
    obtain ⟨hTeardown, hTeardown'⟩ := hHooks .teardown (fun _ => ⟨rfl, rfl⟩) teardown
    have hAfter (s : Summary) : (aftermath s teardown).flatMap Part.outcomes = [] ∧
        (aftermath s teardown).flatMap Part.summaries = (returned? (answer s teardown)).toList := by
      rcases teardown with _ | _ | _ | ⟨⟩ <;> exact ⟨rfl, rfl⟩
    simp only [Course.parts, List.flatMap_append, outcomes_testing, summaries_testing, outcomes_printing,
      summaries_printing, hSetup, hSetup', hTeardown, hTeardown', hAfter, List.nil_append,
      List.append_nil] at hHands
    exact hHands

theorem hands_of_stop {k : Stop} (h : Chain (set.Does limit sink) (k.parts print set) w w') :
    Hands (Passage.left k).outcomes [] w w' := by
  have hHands := hands_of_chain h
  have hBegun : set.begun.flatMap Part.outcomes = [] ∧ set.begun.flatMap Part.summaries = [] := by
    unfold begun
    cases set.before <;> exact ⟨rfl, rfl⟩
  cases k with
  | setup => exact hHands
  | test tests =>
    simp only [Stop.parts, List.flatMap_append, outcomes_testing, summaries_testing, hBegun,
      List.nil_append] at hHands
    exact hHands
  | teardown tests =>
    simp only [Stop.parts, List.flatMap_append, outcomes_testing, summaries_testing, outcomes_printing,
      summaries_printing, hBegun, List.nil_append, List.append_nil] at hHands
    exact hHands

theorem Passage.Takes.hands {p : Passage} (h : p.Takes limit print sink set e w w') :
    Hands p.outcomes (returned? e).toList w w' := by
  cases p with
  | ended k =>
    obtain ⟨-, rfl, hChain⟩ := h
    exact hands_of_course hChain
  | left k =>
    obtain ⟨he, -, w₁, hChain, hLeft⟩ := h
    have hReturned : (returned? e).toList = [] := by
      obtain rfl | rfl := he <;> rfl
    rw [hReturned]
    simpa only [List.append_nil] using (hands_of_stop hChain).trans (Stop.hands_of_leftIn hLeft)

theorem exists_passage {turns : Nat} (h : World.run turns limit (set.run print sink) w = (e, w')) :
    ∃ p : Passage, p.Takes (limit.map (w.now + ·)) print sink set e w w' := by
  obtain ⟨he, hEnds⟩ | ⟨he, hLeft⟩ := ends_or_left h
  · obtain ⟨k, hTakes⟩ := (ends_run_iff he).mp hEnds
    exact ⟨.ended k, hTakes⟩
  · obtain ⟨k, hTakes⟩ := left_run hLeft
    exact ⟨.left k, he, hTakes⟩

end TestSet

/-- However a run of a set passes, the set keeps the outcomes of the tests that came to their end, and
the summary if the run returned it. -/
theorem Session.runSet_passes (s : Session) (set : TestSet) (print : Bool) (sink : Sink) :
    ∃ p : TestSet.Passage,
      p.Takes (s.limit.map (s.world.now + ·)) print sink set (s.runSet set (set.run print sink)).ending
        { s.world with reports := [] } (s.runSet set (set.run print sink)).session.world ∧
      (s.runSet set (set.run print sink)).set =
        { set with
          tests := TestSet.recordOutcomes set.tests p.outcomes
          lastSummary := (TestSet.returned? (s.runSet set (set.run print sink)).ending).or
            set.lastSummary } := by
  obtain ⟨p, hTakes⟩ := @TestSet.exists_passage s.limit { s.world with reports := [] } _ print sink set _
    s.turns rfl
  refine ⟨p, hTakes, ?_⟩
  have hOutcomes := hTakes.hands.outcomes
  have hSummaries := hTakes.hands.summaries
  rw [List.filterMap_nil, List.nil_append] at hOutcomes hSummaries
  have hLast (s? : Option Summary) : s?.toList.getLast? = s? := by cases s? <;> rfl
  exact congrArg₂ (fun outcomes summaries => { set with
    tests := TestSet.recordOutcomes set.tests outcomes
    lastSummary := (List.getLast? summaries).or set.lastSummary }) hOutcomes hSummaries |>.trans
    (by rw [hLast])

end TestBench
