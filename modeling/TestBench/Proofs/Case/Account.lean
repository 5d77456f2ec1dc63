import TestBench.Proofs.Async.Ways
import TestBench.Proofs.Panic.Frames

/-! # What observers learn of a case run

The events of a case run are those of its hooks and of its body, and between them the notices that the run
gives itself, under its own span. Main statement: what observers read in these notices is exactly what the
outcome says (`Case.exists_account`).
-/

namespace TestBench

open Ended (failureOf resultOf failureOf_eq_none_iff failureOf_eq_some_iff)

/-- An event as observers read it, with the names and the fields of the spans around it. -/
structure Reading where
  spans : List (String × List (String × String))
  level : String
  target : String
  message : String
  fields : List (String × String)

def Span.shown (s : Span) : String × List (String × String) := (s.name, s.fields)

def Event.reading (e : Event) : Reading where
  spans := e.spans.map Span.shown
  level := e.notice.level.name
  target := e.notice.target
  message := e.notice.message
  fields := e.notice.fields

theorem Event.reading_append (spans : List Span) (s : Span) (v : Notice) :
    (Event.mk (spans ++ [s]) v).reading =
      ⟨spans.map Span.shown ++ [s.shown], v.level.name, v.target, v.message, v.fields⟩ := by
  rw [reading, List.map_append]
  rfl

namespace Hook

variable {spans : List Span} {h : Hook} {es : List Event} {n n' : Nat}

theorem of_shows_invoke {r : Result} (hShows : (h.invoke.under spans).Shows n es (some (.ok r)) n') :
    ∃ (x : Ended) (m : Nat), (h.run.under spans).Shows n es (some x) m ∧ x.result = r := by
  rw [invoke_eq, Program.under_bind, ← Program.attempt_under] at hShows
  obtain ⟨x, es₁, es₂, m, rfl, hRun, hRest⟩ | ⟨hEnd, -⟩ := hShows.of_attempt_bind
  · change ((Program.pure (Ended.result x)).under spans).Shows m es₂ _ n' at hRest
    rw [Program.under_pure] at hRest
    obtain ⟨rfl, hResult, -⟩ := hRest.of_pure
    refine ⟨x, m, (List.append_nil es₁).symm ▸ hRun, ?_⟩
    cases hResult
    rfl
  · cases hEnd

theorem of_shows_invokeOption {h? : Option Hook} {r : Result}
    (hShows : ((invokeOption h?).under spans).Shows n es (some (.ok r)) n') :
    ∃ x : Option Ended, x.isSome = h?.isSome ∧ resultOf x = r ∧
      Composed (fun x es => ∃ h, h? = some h ∧ ∃ n n', (h.run.under spans).Shows n es (some x) n') x.toList es := by
  cases h? with
  | none =>
    change ((Program.pure _).under spans).Shows n es _ n' at hShows
    rw [Program.under_pure] at hShows
    obtain ⟨rfl, hResult, -⟩ := hShows.of_pure
    cases hResult
    exact ⟨none, rfl, rfl, .nil⟩
  | some h =>
    obtain ⟨x, m, hRun, rfl⟩ := of_shows_invoke (h := h) hShows
    exact ⟨some x, rfl, rfl, .single ⟨h, rfl, n, m, hRun⟩⟩

end Hook

namespace Case

/-- A part of a run of the case, under some spans, shows some events. -/
def Tells (spans : List Span) (c : Case) : Part → List Event → Prop
  | .setup x, es => ∃ h, c.before = some h ∧ ∃ n n', (h.run.under spans).Shows n es (some x) n'
  | .body x, es => ∃ n n', (c.body.run.under spans).Shows n es (some x) n'
  | .teardown x, es => ∃ h, c.after = some h ∧ ∃ n n', (h.run.under spans).Shows n es (some x) n'
  | .noted v, es => es = [⟨spans, v⟩]
  | .numbered _, es | .recorded _, es => es = []

def Part.notice? : Part → Option Notice
  | noted v => some v
  | _ => none

namespace Course

def notices (k : Course) (o : Outcome) : List Notice := (k.parts o).filterMap Part.notice?

/-- That the set-up failed, that the teardown failed, and the end. -/
def readings (k : Course) (c : Case) (spans : List Span) (o : Outcome) : List Reading :=
  let around := spans.map Span.shown ++ [("run", [("test", c.name)])]
  let reading message fields : Reading := ⟨around, "debug", "verdict::case", message, fields⟩
  (failureOf k.setup).toList.map (fun f => reading "setup failed, skipping body" [("failure", f.message)]) ++
    (failureOf k.teardown).toList.map (fun f => reading
      (if (examined k.setup k.body).kind = .error
        then "teardown failed after an earlier error; keeping the first error" else "teardown failed")
      [("failure", f.message)]) ++
    [reading "test finished"
      [("kind", if o.kind = .pass then "pass" else if o.kind = .fail then "fail" else "error")]]

/-- A run of the case under some spans takes the course, yields the outcome and shows the events. -/
structure Account (k : Course) (c : Case) (spans : List Span) (o : Outcome) (es : List Event) : Prop where
  course : k.Of c
  outcome : o = Outcome.make o.id c.name k.finding.kind k.finding.cause
  events : Composed (c.Tells (spans ++ [.case c.name])) (k.parts o) es
  readings : (k.notices o).map (fun v => (Event.mk (spans ++ [.case c.name]) v).reading) = k.readings c spans o

theorem notices_eq (k : Course) (o : Outcome) : k.notices o =
    (failureOf k.setup).toList.map .setupFailed ++
      (failureOf k.teardown).toList.map (examined k.setup k.body).teardownNotice ++
        [.testFinished o.kind] := by
  have hNoted (notice : Failure → Notice) (f? : Option Failure) :
      (f?.toList.map fun f => Part.noted (notice f)).filterMap Part.notice? = f?.toList.map notice := by
    cases f? <;> rfl
  have hInvoked (part : Ended → Part) (hPart : ∀ x, (part x).notice? = none) (x? : Option Ended) :
      (x?.toList.map part).filterMap Part.notice? = [] := by
    cases x? with
    | none => rfl
    | some x => simp [hPart]
  simp only [notices, parts, invocations, examination, closing, List.filterMap_append, hNoted,
    hInvoked .setup fun _ => rfl, hInvoked .body fun _ => rfl, hInvoked .teardown fun _ => rfl,
    List.nil_append, List.append_nil]
  rfl

theorem readings_eq (k : Course) (c : Case) (spans : List Span) (o : Outcome) :
    (k.notices o).map (fun v => (Event.mk (spans ++ [.case c.name]) v).reading) = k.readings c spans o := by
  have hKind : o.kind.name = if o.kind = .pass then "pass" else if o.kind = .fail then "fail" else "error" := by
    cases o.kind <;> rfl
  have hTeardown (found : Finding) (f : Failure) :
      (Event.mk (spans ++ [.case c.name]) (found.teardownNotice f)).reading =
        ⟨spans.map Span.shown ++ [("run", [("test", c.name)])], "debug", "verdict::case",
          if found.kind = .error then "teardown failed after an earlier error; keeping the first error"
            else "teardown failed", [("failure", f.message)]⟩ := by
    rw [Event.reading_append]
    unfold Finding.teardownNotice
    split <;> rfl
  simp only [notices_eq, readings, List.map_append, List.map_map, Function.comp_def, hTeardown, ← hKind]
  simp only [Event.reading_append, List.map_singleton]
  rfl

end Course

open Course

variable {spans : List Span} {c : Case} {es : List Event} {n n' : Nat}

theorem composed_examine {found : Finding} (h : (c.examine.under spans).Shows n es (some (.ok found)) n') :
    ∃ setup body, setup.isSome = c.before.isSome ∧ body.isSome = (failureOf setup).isNone ∧
      examined setup body = found ∧ Composed (c.Tells spans) (examination setup body) es := by
  rw [examine_eq, Program.under_bind] at h
  obtain ⟨r, es₁, es₂, m, rfl, hSetup, hRest⟩ := h.of_bind_ok
  obtain ⟨setup, hSome, hResult, hShown⟩ := Hook.of_shows_invokeOption hSetup
  have hShown : Composed (c.Tells spans) (setup.toList.map .setup) es₁ := .map hShown
  cases r with
  | error f =>
    have hFailure := failureOf_eq_some_iff.mpr hResult
    rw [Program.under_notice, Program.under_pure] at hRest
    obtain ⟨es₃, rfl, hEnd⟩ := hRest.of_notice
    obtain ⟨rfl, hFound, -⟩ := hEnd.of_pure
    refine ⟨setup, none, hSome, by simp [hFailure], ?_, ?_⟩
    · cases hFound
      simp [examined, hFailure]
    · have hNoted : Composed (c.Tells spans) [.noted (.setupFailed f)] [⟨spans, .setupFailed f⟩] := .single rfl
      simpa [examination, hFailure] using hShown.append hNoted
  | ok _ =>
    have hFailure := failureOf_eq_none_iff.mpr hResult
    rw [Program.under_bind] at hRest
    obtain ⟨r, es₃, es₄, l, rfl, hBody, hRest⟩ := hRest.of_bind_ok
    rw [Program.under_pure] at hRest
    obtain ⟨rfl, hFound, -⟩ := hRest.of_pure
    obtain ⟨x, l', hRun, rfl⟩ := Hook.of_shows_invoke hBody
    refine ⟨setup, some x, hSome, by simp [hFailure], ?_, ?_⟩
    · cases hFound
      simp [examined, hFailure, resultOf]
    · have hRun : Composed (c.Tells spans) [.body x] es₃ := .single ⟨m, l', hRun⟩
      simpa [examination, hFailure] using hShown.append hRun

theorem composed_tearDown {found found' : Finding}
    (h : ((c.tearDown found).under spans).Shows n es (some (.ok found')) n') :
    ∃ teardown, teardown.isSome = c.after.isSome ∧ closed found teardown = found' ∧
      Composed (c.Tells spans) (closing found teardown) es := by
  rw [tearDown_eq, Program.under_bind] at h
  obtain ⟨r, es₁, es₂, m, rfl, hTeardown, hRest⟩ := h.of_bind_ok
  obtain ⟨teardown, hSome, hResult, hShown⟩ := Hook.of_shows_invokeOption hTeardown
  have hShown : Composed (c.Tells spans) (teardown.toList.map .teardown) es₁ := .map hShown
  refine ⟨teardown, hSome, ?_⟩
  cases r with
  | error f =>
    have hFailure := failureOf_eq_some_iff.mpr hResult
    rw [Program.under_notice, Program.under_pure] at hRest
    obtain ⟨es₃, rfl, hEnd⟩ := hRest.of_notice
    obtain ⟨rfl, hFound, -⟩ := hEnd.of_pure
    have hNoted : Composed (c.Tells spans) [.noted (found.teardownNotice f)] [⟨spans, found.teardownNotice f⟩] :=
      .single rfl
    refine ⟨?_, by simpa [closing, hFailure] using hShown.append hNoted⟩
    cases hFound
    simp [closed, hFailure]
  | ok _ =>
    have hFailure := failureOf_eq_none_iff.mpr hResult
    rw [Program.under_pure] at hRest
    obtain ⟨rfl, hFound, -⟩ := hRest.of_pure
    refine ⟨?_, by simpa [closing, hFailure] using hShown⟩
    cases hFound
    simp [closed, hFailure]

theorem composed_conclude {found : Finding} {o : Outcome}
    (h : ((c.conclude found).under spans).Shows n es (some (.ok o)) n') :
    o = Outcome.make o.id c.name found.kind found.cause ∧ n ≤ o.id ∧ o.id < n' ∧
      Composed (c.Tells spans) [.numbered o, .noted (.testFinished o.kind), .recorded o] es := by
  rw [conclude_eq] at h
  simp only [Program.under_act, Program.under_notice, Program.under_report, Program.under_pure,
    List.append_nil] at h
  cases h with
  | act id hNumbers h =>
    obtain ⟨rest, rfl, hReport⟩ := h.of_notice
    obtain ⟨rfl, ⟨⟩, hLe⟩ := hReport.of_report.of_pure
    refine ⟨rfl, hNumbers.1, Nat.lt_of_lt_of_le hNumbers.2 hLe, [], _, rfl, rfl, ?_⟩
    exact ⟨[_], [], rfl, rfl, .single rfl⟩

/-- A run of a case that yields an outcome takes a course. It gives a number to the outcome that was not given
before, and it shows just what its parts show. -/
theorem exists_account {o : Outcome} (h : (c.run.under spans).Shows n es (some (.ok o)) n') :
    n ≤ o.id ∧ o.id < n' ∧ ∃ k : Course, k.Account c spans o es := by
  rw [run_eq, Program.under_within, Program.under_bind, Program.under_bind] at h
  obtain ⟨found', es₁, es₂, m, rfl, hInvoked, hConclude⟩ := h.of_bind_ok
  obtain ⟨found, es₃, es₄, l, rfl, hExamine, hTearDown⟩ := hInvoked.of_bind_ok
  obtain ⟨setup, body, hSetup, hBody, rfl, hExamined⟩ := composed_examine hExamine
  obtain ⟨teardown, hTeardown, rfl, hClosed⟩ := composed_tearDown hTearDown
  obtain ⟨hOutcome, hNew, hGiven, hConcluded⟩ := composed_conclude hConclude
  refine ⟨Nat.le_trans (Nat.le_trans hExamine.le hTearDown.le) hNew, hGiven, ⟨setup, body, teardown⟩, ?_⟩
  exact {
    course := ⟨hSetup, hBody, hTeardown⟩
    outcome := hOutcome
    events := (hExamined.append hClosed).append hConcluded
    readings := readings_eq _ c spans o }

end Case

end TestBench
