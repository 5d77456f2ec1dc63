import TestBench.Proofs.Case.Account
import TestBench.Proofs.Set.Passage
import TestBench.Proofs.World.Played

/-! # What observers learn of a set run

The events of a set run are those of its hooks, of its tests and of its sink, and the notices that the run
gives itself, under its own span. Main statement: whether the run ends or is left on the way, observers read in
these notices what it returns and nothing else (`TestSet.exists_account`). In particular every outcome is new
to the summary.
-/

namespace TestBench

open Ended (failureOf resultOf)

namespace Hook

theorem of_shows_runOption_bind {α : Type} {spans : List Span} {h? : Option Hook} {g : Result → Async α}
    {es : List Event} {e : Option (Except Payload α)} {n n' : Nat}
    (hShows : (((runOption h?).under spans).bind g).Shows n es e n') :
    (∃ (x : Option Ended) (es₁ es₂ : List Event) (m : Nat), x.isSome = h?.isSome ∧ es = es₁ ++ es₂ ∧ n ≤ m ∧
        Composed (fun x es => ∃ h, h? = some h ∧ ∃ n n', (h.run.under spans).Shows n es (some x) n')
          x.toList es₁ ∧
        (Program.passPanic g (x.getD (.ok (.ok ())))).Shows m es₂ e n') ∨
      (e = none ∧ ∃ h, h? = some h ∧ (h.run.under spans).Shows n es none n') := by
  cases h? with
  | none =>
    change (((Program.pure _).under spans).bind g).Shows n es e n' at hShows
    rw [Program.under_pure] at hShows
    exact .inl ⟨none, [], es, n, rfl, rfl, Nat.le_refl n, .nil, hShows⟩
  | some h =>
    change ((h.run.under spans).bind g).Shows n es e n' at hShows
    rw [Program.bind_eq_attempt_bind] at hShows
    obtain ⟨x, es₁, es₂, m, rfl, hRun, hRest⟩ | ⟨rfl, hLeft⟩ := hShows.of_attempt_bind
    · exact .inl ⟨some x, es₁, es₂, m, rfl, rfl, hRun.le, .single ⟨h, rfl, n, m, hRun⟩, hRest⟩
    · exact .inr ⟨rfl, h, rfl, hLeft⟩

end Hook

namespace TestSet

open Course (Yields)

/-- A part of a run of the set, under some spans, shows some events. -/
def Tells (spans : List Span) (sink : Sink) (set : TestSet) : Part → List Event → Prop
  | .setup x, es => ∃ h, set.before = some h ∧ ∃ n n', (h.run.under spans).Shows n es (some x) n'
  | .test i part, es => ∃ c, set.tests[i]? = some c ∧ c.Tells (spans ++ [.case c.name]) part es
  | .printed line, es => ∃ n n', ((sink.put line).under spans).Shows n es (some (.ok ())) n'
  | .teardown x, es => ∃ h, set.after = some h ∧ ∃ n n', (h.run.under spans).Shows n es (some x) n'
  | .noted v, es => es = [⟨spans, v⟩]
  | .kept _, es => es = []

def Stop.Tells (spans : List Span) (set : TestSet) : Stop → List Event → Prop
  | setup, es => ∃ h, set.before = some h ∧ ∃ n n', (h.run.under spans).Shows n es none n'
  | test tests, es =>
      ∃ c, set.tests[tests.length]? = some c ∧ ∃ n n', (c.run.under spans).Shows n es none n'
  | teardown _, es => ∃ h, set.after = some h ∧ ∃ n n', (h.run.under spans).Shows n es none n'

def Part.notice? : Part → Option Notice
  | noted v => some v
  | _ => none

/-- What there is to say of a run that ended so, or was left. -/
def announced : Option (Except Payload (Except Abort Summary)) → List Notice
  | some (.ok (.ok s)) => [.setFinished s.tally]
  | some (.ok (.error ⟨.setup, f⟩)) => [.setSetupFailed f]
  | some (.ok (.error ⟨.teardown, f⟩)) => [.setTeardownFailed f]
  | some (.error _) | none => []

/-- What observers read then, in the spans around. -/
def readings (around : List (String × List (String × String))) :
    Option (Except Payload (Except Abort Summary)) → List Reading
  | some (.ok (.ok s)) => [⟨around, "debug", "verdict::set", "test set finished",
      [("total", toString s.tally.total), ("passed", toString s.tally.passed),
        ("failed", toString s.tally.failed), ("errors", toString s.tally.errors)]⟩]
  | some (.ok (.error ⟨.setup, f⟩)) =>
      [⟨around, "warn", "verdict::set", "test set setup failed, aborting run", [("failure", f.message)]⟩]
  | some (.ok (.error ⟨.teardown, f⟩)) =>
      [⟨around, "warn", "verdict::set", "test set teardown failed", [("failure", f.message)]⟩]
  | some (.error _) | none => []

namespace Passage

def parts (print : Bool) (set : TestSet) : Passage → List Part
  | ended k => k.parts print
  | left k => k.parts print set

def notices (print : Bool) (set : TestSet) (p : Passage) : List Notice :=
  (p.parts print set).filterMap Part.notice?

def Shows (spans : List Span) (print : Bool) (sink : Sink) (set : TestSet)
    (e : Option (Except Payload (Except Abort Summary))) (es : List Event) : Passage → Prop
  | ended k => k.Of set ∧ k.ending.end? = e ∧ Composed (set.Tells spans sink) (k.parts print) es
  | left k => k.Of set ∧ e = none ∧ ∃ es₁ es₂, es = es₁ ++ es₂ ∧
      Composed (set.Tells spans sink) (k.parts print set) es₁ ∧ k.Tells spans set es₂

structure Account (p : Passage) (set : TestSet) (print : Bool) (sink : Sink) (spans : List Span)
    (e : Option (Except Payload (Except Abort Summary))) (es : List Event) : Prop where
  events : p.Shows (spans ++ [.set set.tests.length]) print sink set e es
  readings : (p.notices print set).map (fun v => (Event.mk (spans ++ [.set set.tests.length]) v).reading) =
    readings (spans.map Span.shown ++ [("run_with_sink", [("tests", toString set.tests.length)])]) e
  fresh : ∀ v ∈ p.notices print set, v.message ≠ "outcome already counted"

end Passage

/-! ## Notices of the run itself -/

section

variable {print : Bool} {set : TestSet}

theorem filterMap_notice?_printing (line : Line) : (printing print line).filterMap Part.notice? = [] := by
  cases print <;> rfl

theorem filterMap_notice?_testing (i : Nat) (tests : List (Case.Course × Outcome)) :
    (testing print i tests).filterMap Part.notice? = [] := by
  induction tests generalizing i with
  | nil => rfl
  | cons x tests ih =>
    have hTest (parts : List Case.Part) : (parts.map (Part.test i)).filterMap Part.notice? = [] := by
      rw [List.filterMap_map]
      exact List.filterMap_eq_nil_iff.mpr fun _ _ => rfl
    simp only [testing, List.filterMap_append, hTest, filterMap_notice?_printing, ih, List.append_nil]

theorem filterMap_notice?_hook (part : Ended → Part) (hPart : ∀ x, (part x).notice? = none)
    (x? : Option Ended) : (x?.toList.map part).filterMap Part.notice? = [] := by
  cases x? with
  | none => rfl
  | some x => simp [hPart]

theorem filterMap_notice?_aftermath (s : Summary) (teardown : Option Ended) :
    (aftermath s teardown).filterMap Part.notice? = announced (answer s teardown).end? := by
  rcases teardown with _ | _ | _ | ⟨⟩ <;> rfl

theorem notices_of_course (k : Course) : (Passage.ended k).notices print set = announced k.ending.end? := by
  rcases k with (q | f) | ⟨setup, tests, teardown⟩
  · rfl
  · rfl
  · simp only [Passage.notices, Passage.parts, Course.parts, List.filterMap_append,
      filterMap_notice?_testing, filterMap_notice?_printing, filterMap_notice?_aftermath,
      filterMap_notice?_hook .setup fun _ => rfl,
      filterMap_notice?_hook .teardown fun _ => rfl, List.nil_append]
    rfl

/-- A run that is left has said nothing: each of its notices is followed by its end, without a wait. -/
theorem notices_of_stop (k : Stop) : (Passage.left k).notices print set = [] := by
  have hBegun : set.begun.filterMap Part.notice? = [] := by
    unfold begun
    cases set.before <;> rfl
  cases k with
  | setup => rfl
  | test tests =>
    simp only [Passage.notices, Passage.parts, Stop.parts, List.filterMap_append, hBegun,
      filterMap_notice?_testing, List.nil_append]
  | teardown tests =>
    simp only [Passage.notices, Passage.parts, Stop.parts, List.filterMap_append, hBegun,
      filterMap_notice?_testing, filterMap_notice?_printing, List.nil_append]

theorem Passage.Shows.notices {spans : List Span} {sink : Sink} {p : Passage}
    {e : Option (Except Payload (Except Abort Summary))} {es : List Event}
    (h : p.Shows spans print sink set e es) : p.notices print set = announced e := by
  cases p with
  | ended k => exact h.2.1 ▸ notices_of_course k
  | left k => exact h.2.1 ▸ notices_of_stop k

theorem readings_announced (spans : List Span) (n : Nat) (e : Option (Except Payload (Except Abort Summary))) :
    (announced e).map (fun v => (Event.mk (spans ++ [.set n]) v).reading) =
      readings (spans.map Span.shown ++ [("run_with_sink", [("tests", toString n)])]) e := by
  simp only [Event.reading_append]
  rcases e with _ | _ | ⟨_ | _, _⟩ | _ <;> rfl

theorem message_ne_of_mem_announced {v : Notice} {e : Option (Except Payload (Except Abort Summary))}
    (h : v ∈ announced e) : v.message ≠ "outcome already counted" := by
  rcases e with _ | _ | ⟨_ | _, _⟩ | _
  case none | some.error => cases h
  all_goals
    obtain rfl := List.mem_singleton.mp h
    exact ne_of_beq_false rfl

theorem Passage.Shows.account {spans : List Span} {sink : Sink} {p : Passage}
    {e : Option (Except Payload (Except Abort Summary))} {es : List Event}
    (h : p.Shows (spans ++ [.set set.tests.length]) print sink set e es) : p.Account set print sink spans e es where
  events := h
  readings := h.notices ▸ readings_announced ..
  fresh _ hv := message_ne_of_mem_announced (h.notices ▸ hv)

end

/-! ## The tests -/

section

variable {print : Bool} {sink : Sink} {set : TestSet} {spans : List Span} {es : List Event} {n n' : Nat}

theorem of_shows_emit (set : TestSet) {line : Line} {e : Option (Except Payload Unit)}
    (h : ((emit print sink line).under spans).Shows n es e n') :
    e = some (.ok ()) ∧ Composed (set.Tells spans sink) (printing print line) es := by
  cases print with
  | false =>
    change ((Program.pure ()).under spans).Shows n es e n' at h
    rw [Program.under_pure] at h
    obtain ⟨rfl, rfl, -⟩ := h.of_pure
    exact ⟨rfl, .nil⟩
  | true =>
    change ((sink.put line).under spans).Shows n es e n' at h
    have hEnd : e = some (.ok ()) := by
      have hReport (r : Report) (h : ((Program.report r (.pure ())).under spans).Shows n es e n') :
          e = some (.ok ()) := by
        rw [Program.under_report, Program.under_pure] at h
        exact h.of_report.of_pure.2.1
      rcases sink with _ | color | _
      · exact hReport _ h
      · exact hReport _ h
      · change ((Program.notice _ (.pure ())).under spans).Shows n es e n' at h
        rw [Program.under_notice, Program.under_pure] at h
        obtain ⟨_, -, hRest⟩ := h.of_notice
        exact hRest.of_pure.2.1
    subst hEnd
    exact ⟨rfl, .single ⟨n, n', h⟩⟩

theorem tells_test_eq {i : Nat} {c : Case} (h : set.tests[i]? = some c) :
    (fun part => set.Tells spans sink (.test i part)) = c.Tells (spans ++ [.case c.name]) := by
  funext part es
  simp [Tells, h]

theorem enter_eq_of_new {s : Summary} {o : Outcome} (hSeen : ∀ id ∈ s.seen, id < n) (hNew : n ≤ o.id)
    (hGiven : o.id < n') :
    s.enter o = .pure (true, s.extend [o]) ∧ ∀ id ∈ (s.extend [o]).seen, id < n' := by
  refine ⟨Summary.enter_eq_of_not_mem fun hMem => ?_, fun id hMem => ?_⟩
  · exact Nat.lt_irrefl _ (Nat.lt_of_lt_of_le (hSeen _ hMem) hNew)
  · rcases List.mem_append.mp hMem with hMem | hMem
    · exact Nat.lt_trans (Nat.lt_of_lt_of_le (hSeen _ hMem) hNew) hGiven
    · obtain rfl : id = o.id := by simpa using hMem
      exact hGiven

/-- The tests from number `i` on take their courses one after the other, or one of them is left. -/
theorem of_shows_runTests {cases : List Case} {i : Nat} {s : Summary} {e : Option (Except Payload Summary)}
    (hCases : set.tests.drop i = cases) (hSeen : ∀ id ∈ s.seen, id < n)
    (h : ((runTests print sink cases s).under spans).Shows n es e n') :
    (∃ tests, List.Forall₂ Yields cases tests ∧ e = some (.ok (s.extend (tests.map (·.2)))) ∧
        Composed (set.Tells spans sink) (testing print i tests) es) ∨
      (e = none ∧ ∃ tests c es₁ es₂, List.Forall₂ Yields (cases.take tests.length) tests ∧
        cases[tests.length]? = some c ∧ es = es₁ ++ es₂ ∧
        Composed (set.Tells spans sink) (testing print i tests) es₁ ∧
        ∃ n n', (c.run.under spans).Shows n es₂ none n') := by
  induction cases generalizing i s n es with
  | nil =>
    change ((Program.pure s).under spans).Shows n es e n' at h
    rw [Program.under_pure] at h
    obtain ⟨rfl, rfl, -⟩ := h.of_pure
    exact .inl ⟨[], .nil, by rw [List.map_nil, Summary.extend_nil], .nil⟩
  | cons c rest ih =>
    obtain ⟨hTest, hRest⟩ : set.tests[i]? = some c ∧ set.tests.drop (i + 1) = rest := by
      constructor
      · rw [← List.head?_drop, hCases]; rfl
      · rw [← List.tail_drop, hCases]; rfl
    rw [runTests_cons, Program.under_bind] at h
    obtain ⟨o, es₁, es₂, m, rfl, hRun, hNext⟩ | ⟨rfl, hLeft⟩ := h.of_calm_bind c.calm_run.under
    · obtain ⟨hNew, hGiven, k, hAccount⟩ := Case.exists_account hRun
      obtain ⟨hEnter, hSeen⟩ := enter_eq_of_new hSeen hNew hGiven
      rw [hEnter, Program.under_bind, Program.under_pure] at hNext
      change (((emit print sink o.line).bind _).under spans).Shows m es₂ e n' at hNext
      rw [Program.under_bind] at hNext
      obtain ⟨_, es₃, es₄, l, rfl, hEmit, hNext⟩ | ⟨-, hLeft⟩ :=
        hNext.of_calm_bind (calm_emit print sink o.line).under
      · obtain ⟨-, hPrinted⟩ := of_shows_emit set hEmit
        have hParts : Composed (set.Tells spans sink) ((k.parts o).map (.test i)) es₁ :=
          .map (by rw [tells_test_eq hTest]; exact hAccount.events)
        have hHead : Yields c (k, o) := ⟨hAccount.course, hAccount.outcome⟩
        have hSeen' := fun id hMem => Nat.lt_of_lt_of_le (hSeen id hMem) hEmit.le
        obtain ⟨tests, hYields, rfl, hTests⟩ | ⟨rfl, tests, d, es₅, es₆, hYields, hAt, rfl, hTests, hLeft⟩ :=
          ih hRest hSeen' hNext
        · refine .inl ⟨(k, o) :: tests, .cons hHead hYields, congrArg _ (congrArg _ (s.extend_cons o _).symm), ?_⟩
          exact List.append_assoc es₁ es₃ es₄ ▸ (hParts.append hPrinted).append hTests
        · refine .inr ⟨rfl, (k, o) :: tests, d, es₁ ++ (es₃ ++ es₅), es₆, .cons hHead hYields, hAt, ?_, ?_, hLeft⟩
          · simp only [List.append_assoc]
          · exact List.append_assoc es₁ es₃ es₅ ▸ (hParts.append hPrinted).append hTests
      · cases (of_shows_emit set hLeft).1
    · exact .inr ⟨rfl, [], c, [], es, .nil, rfl, rfl, .nil, n, n', hLeft⟩

/-! ## The whole run -/

variable {e : Option (Except Payload (Except Abort Summary))}

theorem of_shows_giveUp (set : TestSet) (sink : Sink) {phase : Phase} {v : Notice} {f : Failure}
    (h : ((giveUp phase v f).under spans).Shows n es e n') :
    some (.ok (.error ⟨phase, f⟩)) = e ∧ Composed (set.Tells spans sink) [.noted v] es := by
  rw [giveUp, Program.under_notice, Program.under_pure, List.append_nil] at h
  obtain ⟨rest, rfl, hRest⟩ := h.of_notice
  obtain ⟨rfl, rfl, -⟩ := hRest.of_pure
  exact ⟨rfl, .single rfl⟩

theorem of_shows_aftermath (set : TestSet) (sink : Sink) {s : Summary} {teardown : Option Ended}
    (h : (Program.passPanic (fun r => Program.under spans <| match r with
        | .error f => giveUp .teardown (.setTeardownFailed f) f
        | .ok () => .notice ⟨[], .setFinished s.tally⟩ (.report (.summary s) (.pure (.ok s))))
      (teardown.getD (.ok (.ok ())))).Shows n es e n') :
    (answer s teardown).end? = e ∧ Composed (set.Tells spans sink) (aftermath s teardown) es := by
  rcases teardown with _ | q | f | ⟨⟩
  case none | some.ok.ok =>
    change ((Program.notice _ (.report _ (.pure _))).under spans).Shows n es e n' at h
    rw [Program.under_notice, Program.under_report, Program.under_pure, List.append_nil] at h
    obtain ⟨rest, rfl, hRest⟩ := h.of_notice
    obtain ⟨rfl, rfl, -⟩ := hRest.of_report.of_pure
    exact ⟨rfl, [_], [], rfl, rfl, .single rfl⟩
  case some.error =>
    obtain ⟨rfl, rfl, -⟩ := Program.Shows.of_panic h
    exact ⟨rfl, .nil⟩
  case some.ok.error => exact of_shows_giveUp set sink h

theorem of_shows_finish {s : Summary} (h : ((set.finish print sink s).under spans).Shows n es e n') :
    (∃ teardown : Option Ended, teardown.isSome = set.after.isSome ∧ (answer s teardown).end? = e ∧
        Composed (set.Tells spans sink)
          (printing print s.line ++ teardown.toList.map .teardown ++ aftermath s teardown) es) ∨
      (e = none ∧ ∃ es₁ es₂, es = es₁ ++ es₂ ∧
        Composed (set.Tells spans sink) (printing print s.line) es₁ ∧
        ∃ h, set.after = some h ∧ ∃ n n', (h.run.under spans).Shows n es₂ none n') := by
  rw [finish, Program.under_bind] at h
  obtain ⟨_, es₁, es₂, m, rfl, hEmit, hRest⟩ | ⟨-, hLeft⟩ := h.of_calm_bind (calm_emit print sink s.line).under
  · obtain ⟨-, hPrinted⟩ := of_shows_emit set hEmit
    rw [Program.under_bind] at hRest
    obtain ⟨teardown, es₃, es₄, l, hSome, rfl, -, hTeardown, hEnd⟩ | ⟨rfl, hook, hAfter, hLeft⟩ :=
      Hook.of_shows_runOption_bind hRest
    · obtain ⟨hAnswer, hAftermath⟩ := of_shows_aftermath set sink hEnd
      refine .inl ⟨teardown, hSome, hAnswer, ?_⟩
      exact List.append_assoc es₁ es₃ es₄ ▸ (hPrinted.append (.map hTeardown)).append hAftermath
    · exact .inr ⟨rfl, es₁, es₂, rfl, hPrinted, hook, hAfter, m, n', hLeft⟩
  · cases (of_shows_emit set hLeft).1

theorem of_shows_runTests_finish
    (h : (((runTests print sink set.tests {}).bind (set.finish print sink)).under spans).Shows n es e n') :
    (∃ tests teardown, List.Forall₂ Yields set.tests tests ∧ teardown.isSome = set.after.isSome ∧
        (answer (Course.summary tests) teardown).end? = e ∧
        Composed (set.Tells spans sink) (testing print 0 tests ++ (printing print (Course.summary tests).line ++
          teardown.toList.map .teardown ++ aftermath (Course.summary tests) teardown)) es) ∨
      (e = none ∧ ∃ k : Stop, k.Of set ∧ ∃ parts es₁ es₂, k.parts print set = set.begun ++ parts ∧
        es = es₁ ++ es₂ ∧ Composed (set.Tells spans sink) parts es₁ ∧ k.Tells spans set es₂) := by
  rw [Program.under_bind] at h
  obtain ⟨s, es₁, es₂, m, rfl, hTests, hRest⟩ | ⟨rfl, hLeft⟩ :=
    h.of_calm_bind (calm_runTests set.tests {}).under
  · obtain ⟨tests, hYields, ⟨⟩, hShown⟩ | ⟨hEnd, -⟩ := of_shows_runTests List.drop_zero (by simp) hTests
    · obtain ⟨teardown, hSome, hAnswer, hParts⟩ | ⟨rfl, es₃, es₄, rfl, hPrinted, hook, hAfter, hLeft⟩ :=
        of_shows_finish hRest
      · exact .inl ⟨tests, teardown, hYields, hSome, hAnswer, hShown.append hParts⟩
      · refine .inr ⟨rfl, .teardown tests, ⟨hYields, Option.isSome_iff_exists.mpr ⟨hook, hAfter⟩⟩, _,
          es₁ ++ es₃, es₄, List.append_assoc .., (List.append_assoc ..).symm, hShown.append hPrinted, ?_⟩
        exact ⟨hook, hAfter, hLeft⟩
    · cases hEnd
  · obtain ⟨_, -, ⟨⟩, -⟩ | ⟨-, tests, c, es₁, es₂, hYields, hAt, rfl, hShown, hLeft⟩ :=
      of_shows_runTests List.drop_zero (by simp) hLeft
    obtain ⟨hLength, -⟩ := List.getElem?_eq_some_iff.mp hAt
    exact .inr ⟨rfl, .test tests, ⟨hLength, hYields⟩, _, es₁, es₂, rfl, rfl, hShown, c, hAt, hLeft⟩

/-- Whether a run of a set ends or is left, what observers read of the run itself is what it returns. -/
theorem exists_account (h : ((set.run print sink).under spans).Shows n es e n') :
    ∃ p : Passage, p.Account set print sink spans e es := by
  suffices hShows : ∃ p : Passage, p.Shows (spans ++ [.set set.tests.length]) print sink set e es by
    exact hShows.imp fun _ => Passage.Shows.account
  rw [run_eq, ← Program.within_under, Program.under_nil, Program.under_within, Program.under_bind] at h
  generalize spans ++ [.set set.tests.length] = spans at h ⊢
  obtain ⟨setup, es₁, es₂, m, hSome, rfl, -, hSetup, hRest⟩ | ⟨rfl, hook, hBefore, hLeft⟩ :=
    Hook.of_shows_runOption_bind h
  · have hSetup : Composed (set.Tells spans sink) (setup.toList.map .setup) es₁ := .map hSetup
    have hCarried (hWent : setup = set.before.map fun _ => .ok (.ok ())) (hRest : (((runTests print sink
        set.tests {}).bind (set.finish print sink)).under spans).Shows m es₂ e n') :
        ∃ p : Passage, p.Shows spans print sink set e (es₁ ++ es₂) := by
      obtain ⟨tests, teardown, hYields, hAfter, hEnd, hParts⟩ |
        ⟨rfl, k, hOf, parts, es₃, es₄, hEq, rfl, hParts, hLeft⟩ := of_shows_runTests_finish hRest
      · refine ⟨.ended (.carried setup tests teardown), ⟨hWent, hYields, hAfter⟩, hEnd, ?_⟩
        rw [Course.parts, List.append_assoc, List.append_assoc, List.append_assoc]
        rw [List.append_assoc (printing ..)] at hParts
        exact hSetup.append hParts
      · have hBegun : setup.toList.map .setup = set.begun := by
          rw [hWent, begun]
          cases set.before <;> rfl
        refine ⟨.left k, hOf, rfl, es₁ ++ es₃, es₄, (List.append_assoc ..).symm, ?_, hLeft⟩
        exact hEq ▸ hBegun ▸ hSetup.append hParts
    rcases setup with _ | q | f | ⟨⟩
    case none =>
      have hBefore : set.before = none := by simpa using hSome
      exact hCarried (by rw [hBefore]; rfl) hRest
    case some.ok.ok =>
      obtain ⟨h, hBefore⟩ := Option.isSome_iff_exists.mp hSome.symm
      exact hCarried (by rw [hBefore]; rfl) hRest
    case some.error =>
      obtain ⟨rfl, rfl, -⟩ := Program.Shows.of_panic hRest
      exact ⟨.ended (.refused (.error q)), hSome.symm, rfl, (List.append_nil es₁).symm ▸ hSetup⟩
    case some.ok.error =>
      obtain ⟨hEnd, hNoted⟩ := of_shows_giveUp set sink hRest
      exact ⟨.ended (.refused (.ok f)), hSome.symm, hEnd, hSetup.append hNoted⟩
  · exact ⟨.left .setup, Option.isSome_iff_exists.mpr ⟨hook, hBefore⟩, rfl, [], es, rfl, .nil, hook, hBefore,
      n, n', hLeft⟩

end

end TestSet

end TestBench
