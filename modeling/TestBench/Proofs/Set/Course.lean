import TestBench.Proofs.Summary
import TestBench.Proofs.Case.Course
import Mathlib.Data.List.Forall2

/-! # The course of a set run

A set that is run goes through the parts of its tests in the order in which they were added, between
its own hooks. Main statement: the run comes to its end exactly if the parts of some course go through
one after the other, and it answers what the course calls for (`TestSet.run_follows_course`).
-/

namespace TestBench

open World

namespace TestSet

/-- What was invoked in a run of a set, with the way it ended. -/
inductive Course
  | refused (setup : Except Payload Failure)
  | carried (setup : Option Ended) (tests : List (Case.Course × Outcome)) (teardown : Option Ended)

inductive Part
  | setup (e : Ended)
  | test (i : Nat) (part : Case.Part)
  | printed (line : Line)
  | teardown (e : Ended)
  | noted (n : Notice)
  | kept (s : Summary)

/-- A part of a run of the set, with a sink, takes one world to another. -/
def Does (limit : Option Nat) (sink : Sink) (set : TestSet) : Part → World → World → Prop
  | .setup e, w, w' =>
      ∃ h, set.before = some h ∧ Ends limit (h.run.under [.set set.tests.length]) w e.ending w'
  | .test i part, w, w' =>
      ∃ c, set.tests[i]? = some c ∧ c.Does limit [.set set.tests.length, .case c.name] part w w'
  | .printed line, w, w' => w' =
      { w with
        reports := w.reports ++ sink.reports true line
        events := w.events ++ sink.events true [.set set.tests.length] line }
  | .teardown e, w, w' =>
      ∃ h, set.after = some h ∧ Ends limit (h.run.under [.set set.tests.length]) w e.ending w'
  | .noted n, w, w' => w' = { w with events := w.events ++ [⟨[.set set.tests.length], n⟩] }
  | .kept s, w, w' => w' = { w with reports := w.reports ++ [.summary s] }

def printing (print : Bool) (line : Line) : List Part := if print then [.printed line] else []

/-- The tests from number `i` on, each with its outcome, whose text is printed to the log if it is a pass and to
the error channel otherwise. -/
def testing (print : Bool) : Nat → List (Case.Course × Outcome) → List Part
  | _, [] => []
  | i, (k, o) :: rest =>
      (k.parts o).map (.test i) ++ printing print ⟨if o.kind = .pass then .log else .error, o.render⟩ ++
        testing print (i + 1) rest

def aftermath (s : Summary) : Option Ended → List Part
  | none | some (.ok (.ok ())) => [.noted (.setFinished s.tally), .kept s]
  | some (.ok (.error f)) => [.noted (.setTeardownFailed f)]
  | some (.error _) => []

def answer (s : Summary) : Option Ended → Ending (Except Abort Summary)
  | none | some (.ok (.ok ())) => .finished (.ok s)
  | some (.ok (.error f)) => .finished (.error ⟨.teardown, f⟩)
  | some (.error q) => .panicked q

namespace Course

def summary (tests : List (Case.Course × Outcome)) : Summary := .ofOutcomes (tests.map (·.2))

def parts (print : Bool) : Course → List Part
  | refused (.ok f) => [.setup (.ok (.error f)), .noted (.setSetupFailed f)]
  | refused (.error q) => [.setup (.error q)]
  | carried setup tests teardown =>
      setup.toList.map .setup ++ testing print 0 tests ++
        printing print ⟨.log, (Tally.ofKinds ((tests.map (·.2)).map (·.kind))).sentence⟩ ++
        teardown.toList.map .teardown ++ aftermath (summary tests) teardown

def ending : Course → Ending (Except Abort Summary)
  | refused (.ok f) => .finished (.error ⟨.setup, f⟩)
  | refused (.error q) => .panicked q
  | carried _ tests teardown => answer (summary tests) teardown

/-- A course of a case with the outcome that it calls for. -/
def Yields (c : Case) (x : Case.Course × Outcome) : Prop :=
  x.1.Of c ∧ x.2 = Outcome.make x.2.id c.name x.1.finding.kind x.1.finding.cause

/-- A course that runs of the set can take: without a set-up, or after one that succeeded, all tests
run and then the teardown is invoked if it is there. -/
def Of (set : TestSet) : Course → Prop
  | refused _ => set.before.isSome
  | carried setup tests teardown =>
      setup = set.before.map (fun _ => .ok (.ok ())) ∧ List.Forall₂ Yields set.tests tests ∧
        teardown.isSome = set.after.isSome

end Course

variable {limit : Option Nat} {print : Bool} {sink : Sink} {set : TestSet} {w w' : World}

theorem grows_of_does {part : Part} (h : set.Does limit sink part w w') : w.Grows w' := by
  cases part with
  | setup e => exact h.elim fun _ h => h.2.grows
  | test i part => exact h.elim fun _ h => Case.grows_of_does h.2
  | printed line =>
    exact h ▸ { Grows.refl w with reports := List.prefix_append _ _, events := List.prefix_append _ _ }
  | teardown e => exact h.elim fun _ h => h.2.grows
  | noted n => exact h ▸ { Grows.refl w with events := List.prefix_append _ _ }
  | kept s => exact h ▸ { Grows.refl w with reports := List.prefix_append _ _ }

/-! ## The tests -/

def emit (print : Bool) (sink : Sink) (line : Line) : Async Unit :=
  if print then sink.put line else .pure ()

theorem neverPanics_emit {spans : List Span} {line : Line} :
    NeverPanics limit ((emit print sink line).under spans) := by
  cases print with
  | false => simpa [emit] using .pure _
  | true =>
    rcases sink with _ | color | _
    · change NeverPanics limit ((Program.report _ (.pure ())).under spans)
      simpa using .report (.pure _)
    · change NeverPanics limit ((Program.report _ (.pure ())).under spans)
      simpa using .report (.pure _)
    · change NeverPanics limit ((Program.notice _ (.pure ())).under spans)
      simpa using .notice (.pure _)

theorem ends_emit_iff {line : Line} :
    Ends limit ((emit print sink line).under [.set set.tests.length]) w (.finished ()) w' ↔
      Chain (set.Does limit sink) (printing print line) w w' := by
  cases print with
  | false => simp [emit, printing, ends_pure_iff, eq_comm]
  | true => simp [emit, printing, Does, Sink.ends_put_iff, eq_comm]

theorem runTests_cons (c : Case) (rest : List Case) (s : Summary) :
    runTests print sink (c :: rest) s = c.run.bind fun o => (s.enter o).bind fun added =>
      (emit print sink o.line).bind fun _ => runTests print sink rest added.2 := by
  cases print <;> rfl

theorem does_test_eq {i : Nat} {c : Case} (h : set.tests[i]? = some c) :
    (fun part => set.Does limit sink (.test i part)) =
      c.Does limit [.set set.tests.length, .case c.name] := by
  funext part w w'
  simp [Does, h]

theorem enter_of_ends_run {c : Case} {spans : List Span} {s : Summary} {o : Outcome} {w₁ : World}
    (hSeen : ∀ id ∈ s.seen, id < w.nextOutcome) (hRun : Ends limit (c.run.under spans) w (.finished o) w₁) :
    s.enter o = .pure (true, s.extend [o]) ∧ ∀ id ∈ (s.extend [o]).seen, id < w₁.nextOutcome := by
  obtain ⟨hNew, hId⟩ := Case.id_of_ends_run hRun
  refine ⟨Summary.enter_eq_of_not_mem fun hMem => ?_, fun id hMem => ?_⟩
  · exact Nat.lt_irrefl _ (Nat.lt_of_lt_of_le (hSeen _ hMem) hNew)
  · rcases List.mem_append.mp hMem with hMem | hMem
    · exact Nat.lt_of_lt_of_le (hSeen _ hMem) hRun.grows.nextOutcome
    · obtain rfl : id = o.id := by simpa using hMem
      exact hId

theorem ends_runTests_iff {cases : List Case} {i : Nat} {s : Summary} {e : Ending Summary}
    (hCases : set.tests.drop i = cases) (hSeen : ∀ id ∈ s.seen, id < w.nextOutcome) (he : e ≠ .pending) :
    Ends limit ((runTests print sink cases s).under [.set set.tests.length]) w e w' ↔
      ∃ tests, List.Forall₂ Course.Yields cases tests ∧ e = .finished (s.extend (tests.map (·.2))) ∧
        Chain (set.Does limit sink) (testing print i tests) w w' := by
  induction cases generalizing i s w with
  | nil =>
    change Ends limit ((Program.pure s).under _) w e w' ↔ _
    simp [ends_pure_iff, Summary.extend_nil, testing, eq_comm]
  | cons c rest ih =>
    obtain ⟨hTest, hRest⟩ : set.tests[i]? = some c ∧ set.tests.drop (i + 1) = rest := by
      constructor
      · rw [← List.head?_drop, hCases]; rfl
      · rw [← List.tail_drop, hCases]; rfl
    rw [runTests_cons, Program.under_bind, Case.neverPanics_run.ends_bind_iff he]
    constructor
    · rintro ⟨o, w₁, hRun, hEnds⟩
      obtain ⟨hEnter, hSeen⟩ := enter_of_ends_run hSeen hRun
      rw [hEnter, Program.under_bind, Program.under_pure] at hEnds
      change Ends limit (((emit print sink o.line).bind _).under _) w₁ e w' at hEnds
      rw [Program.under_bind, neverPanics_emit.ends_bind_iff he] at hEnds
      obtain ⟨_, w₂, hEmit, hEnds⟩ := hEnds
      have hSeen₂ := fun id hMem => Nat.lt_of_lt_of_le (hSeen id hMem) hEmit.grows.nextOutcome
      obtain ⟨tests, hYields, rfl, hChain⟩ := (ih hRest hSeen₂).mp hEnds
      obtain ⟨k, hOf, ho, hParts⟩ := Case.ends_run_iff.mp hRun
      refine ⟨(k, o) :: tests, .cons ⟨hOf, ho⟩ hYields,
        congrArg Ending.finished (s.extend_cons o _).symm, ?_⟩
      simp only [testing, chain_append_iff, chain_map_iff, does_test_eq hTest]
      exact ⟨w₂, ⟨w₁, hParts, ends_emit_iff.mp hEmit⟩, hChain⟩
    · rintro ⟨tests, hYields, rfl, hChain⟩
      obtain _ | @⟨_, ⟨k, o⟩, _, tests, ⟨hOf, ho⟩, hYields⟩ := hYields
      simp only [testing, chain_append_iff, chain_map_iff, does_test_eq hTest] at hChain
      obtain ⟨w₂, ⟨w₁, hParts, hEmit⟩, hChain⟩ := hChain
      have hRun : Ends limit (c.run.under [.set set.tests.length]) w (.finished o) w₁ :=
        Case.ends_run_iff.mpr ⟨k, hOf, ho, hParts⟩
      have hEmit := ends_emit_iff.mpr hEmit
      obtain ⟨hEnter, hSeen⟩ := enter_of_ends_run hSeen hRun
      have hSeen₂ := fun id hMem => Nat.lt_of_lt_of_le (hSeen id hMem) hEmit.grows.nextOutcome
      refine ⟨o, w₁, hRun, ?_⟩
      rw [hEnter, Program.under_bind, Program.under_pure]
      change Ends limit (((emit print sink o.line).bind _).under _) w₁ _ w'
      rw [Program.under_bind, neverPanics_emit.ends_bind_iff he]
      exact ⟨(), w₂, hEmit, (ih hRest hSeen₂).mpr
        ⟨tests, hYields, congrArg Ending.finished (s.extend_cons o _), hChain⟩⟩

/-! ## The whole run -/

def giveUp (phase : Phase) (n : Notice) (f : Failure) : Async (Except Abort Summary) :=
  .notice ⟨[], n⟩ (.pure (.error ⟨phase, f⟩))

def finish (print : Bool) (sink : Sink) (set : TestSet) (s : Summary) : Async (Except Abort Summary) :=
  (emit print sink s.line).bind fun _ => (Hook.runOption set.after).bind fun r => match r with
    | .error f => giveUp .teardown (.setTeardownFailed f) f
    | .ok () => .notice ⟨[], .setFinished s.tally⟩ (.report (.summary s) (.pure (.ok s)))

theorem run_eq (set : TestSet) (print : Bool) (sink : Sink) : set.run print sink =
    Program.under [.set set.tests.length] ((Hook.runOption set.before).bind fun r => match r with
      | .error f => giveUp .setup (.setSetupFailed f) f
      | .ok () => (runTests print sink set.tests {}).bind (set.finish print sink)) := by
  cases print <;> rfl

variable {e : Ending (Except Abort Summary)}

theorem ends_giveUp_iff {phase : Phase} {n : Notice} {f : Failure} :
    Ends limit ((giveUp phase n f).under [.set set.tests.length]) w e w' ↔
      e = .finished (.error ⟨phase, f⟩) ∧ Chain (set.Does limit sink) [.noted n] w w' := by
  simp [giveUp, ends_notice_iff, ends_pure_iff, Does, eq_comm]

theorem ends_aftermath_iff {s : Summary} {teardown : Option Ended} :
    Ends limit (Program.passPanic (fun r => Program.under [.set set.tests.length] <| match r with
        | .error f => giveUp .teardown (.setTeardownFailed f) f
        | .ok () => .notice ⟨[], .setFinished s.tally⟩ (.report (.summary s) (.pure (.ok s))))
      (teardown.getD (.ok (.ok ())))) w e w' ↔
      e = answer s teardown ∧ Chain (set.Does limit sink) (aftermath s teardown) w w' := by
  rcases teardown with _ | q | f | ⟨⟩
  case none | some.ok.ok =>
    simp [Program.passPanic, ends_notice_iff, ends_report_iff, ends_pure_iff, answer, aftermath, Does,
      eq_comm]
  case some.error => simp [Program.passPanic, ends_panic_iff, answer, aftermath, eq_comm]
  case some.ok.error => exact ends_giveUp_iff

theorem ends_finish_iff {s : Summary} (he : e ≠ .pending) :
    Ends limit ((set.finish print sink s).under [.set set.tests.length]) w e w' ↔
      ∃ teardown : Option Ended, teardown.isSome = set.after.isSome ∧ e = answer s teardown ∧
        Chain (set.Does limit sink)
          (printing print s.line ++ (teardown.toList.map .teardown ++ aftermath s teardown)) w w' := by
  simp only [finish, Program.under_bind, neverPanics_emit.ends_bind_iff he,
    Hook.ends_runOption_bind_iff he, chain_append_iff, chain_map_iff]
  constructor
  · rintro ⟨_, w₁, hEmit, teardown, hSome, w₂, hTeardown, hEnds⟩
    obtain ⟨he, hAftermath⟩ := ends_aftermath_iff.mp hEnds
    exact ⟨teardown, hSome, he, w₁, ends_emit_iff.mp hEmit, w₂, hTeardown, hAftermath⟩
  · rintro ⟨teardown, hSome, he, w₁, hEmit, w₂, hTeardown, hAftermath⟩
    exact ⟨(), w₁, ends_emit_iff.mpr hEmit, teardown, hSome, w₂, hTeardown,
      ends_aftermath_iff.mpr ⟨he, hAftermath⟩⟩

theorem ends_allTests_iff {e : Ending Summary} (he : e ≠ .pending) :
    Ends limit ((runTests print sink set.tests {}).under [.set set.tests.length]) w e w' ↔
      ∃ tests, List.Forall₂ Course.Yields set.tests tests ∧ e = .finished (Course.summary tests) ∧
        Chain (set.Does limit sink) (testing print 0 tests) w w' := by
  rw [ends_runTests_iff List.drop_zero (by simp) he]
  rfl

theorem ends_runTests_finish_iff (he : e ≠ .pending) :
    Ends limit (((runTests print sink set.tests {}).bind (set.finish print sink)).under
      [.set set.tests.length]) w e w' ↔
      ∃ tests teardown, List.Forall₂ Course.Yields set.tests tests ∧
        teardown.isSome = set.after.isSome ∧ e = answer (Course.summary tests) teardown ∧
        Chain (set.Does limit sink) (testing print 0 tests ++
          (printing print (Course.summary tests).line ++
            (teardown.toList.map .teardown ++ aftermath (Course.summary tests) teardown))) w w' := by
  rw [Program.under_bind, World.ends_bind_iff]
  constructor
  · rintro (⟨s, w₁, hRun, hEnds⟩ | ⟨q, rfl, hRun⟩ | ⟨hPending, -⟩)
    · obtain ⟨tests, hYields, ⟨rfl⟩, hChain⟩ := (ends_allTests_iff (by simp)).mp hRun
      obtain ⟨teardown, hSome, he', hRest⟩ := (ends_finish_iff he).mp hEnds
      exact ⟨tests, teardown, hYields, hSome, he', chain_append_iff.mpr ⟨w₁, hChain, hRest⟩⟩
    · obtain ⟨tests, -, hSummary, -⟩ := (ends_allTests_iff (by simp)).mp hRun
      cases hSummary
    · exact absurd hPending he
  · rintro ⟨tests, teardown, hYields, hSome, he', hChain⟩
    obtain ⟨w₁, hChain, hRest⟩ := chain_append_iff.mp hChain
    exact .inl ⟨_, w₁, (ends_allTests_iff (by simp)).mpr ⟨tests, hYields, rfl, hChain⟩,
      (ends_finish_iff he).mpr ⟨teardown, hSome, he', hRest⟩⟩

theorem ends_run_iff (he : e ≠ .pending) :
    Ends limit (set.run print sink) w e w' ↔
      ∃ k : Course, k.Of set ∧ e = k.ending ∧ Chain (set.Does limit sink) (k.parts print) w w' := by
  rw [run_eq, Program.under_bind, Hook.ends_runOption_bind_iff he]
  constructor
  · rintro ⟨setup, hSome, w₁, hSetup, hEnds⟩
    have hSetup : Chain (set.Does limit sink) (setup.toList.map .setup) w w₁ := chain_map_iff.mpr hSetup
    have hCarried (hWent : setup = set.before.map fun _ => .ok (.ok ())) (hEnds : Ends limit
        (((runTests print sink set.tests {}).bind (set.finish print sink)).under
          [.set set.tests.length]) w₁ e w') :
        ∃ k : Course, k.Of set ∧ e = k.ending ∧ Chain (set.Does limit sink) (k.parts print) w w' := by
      obtain ⟨tests, teardown, hYields, hSome, he', hRest⟩ := (ends_runTests_finish_iff he).mp hEnds
      refine ⟨.carried setup tests teardown, ⟨hWent, hYields, hSome⟩, he', ?_⟩
      rw [Course.parts, List.append_assoc, List.append_assoc, List.append_assoc]
      exact chain_append_iff.mpr ⟨w₁, hSetup, hRest⟩
    rcases setup with _ | q | f | ⟨⟩
    case none =>
      have hBefore : set.before = none := by simpa using hSome
      exact hCarried (by rw [hBefore]; rfl) hEnds
    case some.ok.ok =>
      obtain ⟨h, hBefore⟩ := Option.isSome_iff_exists.mp hSome.symm
      exact hCarried (by rw [hBefore]; rfl) hEnds
    case some.error =>
      obtain ⟨rfl, rfl⟩ := ends_panic_iff.mp hEnds
      exact ⟨.refused (.error q), hSome.symm, rfl, hSetup⟩
    case some.ok.error =>
      obtain ⟨rfl, hNoted⟩ : _ ∧ Chain (set.Does limit sink) _ w₁ w' := ends_giveUp_iff.mp hEnds
      exact ⟨.refused (.ok f), hSome.symm, rfl, chain_append_iff.mpr ⟨w₁, hSetup, hNoted⟩⟩
  · rintro ⟨k, hOf, hEnding, hChain⟩
    rcases k with (q | f) | ⟨setup, tests, teardown⟩
    · obtain ⟨w₁, hSetup, rfl⟩ := hChain
      exact ⟨some (.error q), hOf.symm, w₁, ⟨w₁, hSetup, rfl⟩, ends_panic_iff.mpr ⟨hEnding, rfl⟩⟩
    · obtain ⟨w₁, hSetup, hNoted⟩ := hChain
      exact ⟨some (.ok (.error f)), hOf.symm, w₁, ⟨w₁, hSetup, rfl⟩,
        ends_giveUp_iff.mpr ⟨hEnding, hNoted⟩⟩
    · obtain ⟨rfl, hYields, hSome⟩ := hOf
      rw [Course.parts, List.append_assoc, List.append_assoc, List.append_assoc] at hChain
      obtain ⟨w₁, hSetup, hRest⟩ := chain_append_iff.mp hChain
      refine ⟨_, by simp, w₁, chain_map_iff.mp hSetup, ?_⟩
      have hEnds := (ends_runTests_finish_iff he).mpr ⟨tests, teardown, hYields, hSome, hEnding, hRest⟩
      cases hBefore : set.before <;> exact hEnds

/-- A run that comes to its end goes exactly through the parts of a course, in their order and with
nothing in between, and answers what the course calls for. What came out of it at any point is still
there at the end. -/
theorem run_follows_course (limit : Option Nat) (set : TestSet) (print : Bool) (sink : Sink)
    (w w' : World) (e : Ending (Except Abort Summary)) :
    ((e ≠ .pending ∧ e ≠ .unfinished ∧
        ∃ bound, ∀ turns, bound ≤ turns → World.run turns limit (set.run print sink) w = (e, w')) ↔
      ∃ k : Course, k.Of set ∧ e = k.ending ∧
        Chain (set.Does (limit.map (w.now + ·)) sink) (k.parts print) w w') ∧
    ∀ (k : Course) (before after : List Part) (w₁ : World), k.parts print = before ++ after →
      Chain (set.Does (limit.map (w.now + ·)) sink) before w w₁ →
      Chain (set.Does (limit.map (w.now + ·)) sink) after w₁ w' →
      w₁.reports <+: w'.reports ∧ w₁.events <+: w'.events := by
  refine ⟨⟨?_, ?_⟩, ?_⟩
  · rintro ⟨hPending, hRun⟩
    exact (ends_run_iff hPending).mp (ends_iff_run.mpr hRun)
  · rintro ⟨k, hOf, rfl, hChain⟩
    have hPending : k.ending ≠ .pending := by
      rcases k with (q | f) | ⟨setup, tests, _ | q | f | ⟨⟩⟩ <;> exact nofun
    exact ⟨hPending, ends_iff_run.mp ((ends_run_iff hPending).mpr ⟨k, hOf, rfl, hChain⟩)⟩
  · intro k before after w₁ _ _ hAfter
    have hGrows : w₁.Grows w' := Chain.grows (fun _ _ _ => grows_of_does) hAfter
    exact ⟨hGrows.reports, hGrows.events⟩

end TestSet

end TestBench
