import TestBench.Case
import TestBench.Proofs.Hook
import TestBench.Proofs.World.Growth

/-! # The course of a case run

Which parts of a case were invoked in a run of it, and how each of them ended, is its course. Main
statement: a run of a case comes to its end exactly if the parts of some course go through one after
the other, and then it yields the outcome that the course calls for (`Case.ends_run_iff`).
-/

namespace TestBench

open World

namespace Sink

def reports (print : Bool) (line : Line) : Sink → List Report
  | memory => if print then [.printed line] else []
  | console color => if print then [.written line.channel (line.consoleText color)] else []
  | notices => []

def events (print : Bool) (spans : List Span) (line : Line) : Sink → List Event
  | notices => if print then [⟨spans, .report line⟩] else []
  | _ => []

theorem ends_put_iff {limit : Option Nat} {sink : Sink} {line : Line} {spans : List Span} {e : Ending Unit}
    {w w' : World} : Ends limit ((sink.put line).under spans) w e w' ↔ e = .finished () ∧ w' =
      { w with
        reports := w.reports ++ sink.reports true line
        events := w.events ++ sink.events true spans line } := by
  cases sink with
  | memory => simp [put, Async.tell, ends_report_iff, ends_pure_iff, reports, events]
  | console color => simp [put, Async.tell, ends_report_iff, ends_pure_iff, reports, events]
  | notices => simp [put, Async.announce, ends_notice_iff, ends_pure_iff, reports, events]

end Sink

namespace Case

/-- What was invoked in a run of a case, with the way it ended. -/
structure Course where
  setup : Option Ended
  body : Option Ended
  teardown : Option Ended

inductive Part
  | setup (e : Ended)
  | body (e : Ended)
  | teardown (e : Ended)
  | noted (n : Notice)
  | numbered (o : Outcome)
  | recorded (o : Outcome)

/-- A part of a run of the case, under some spans, takes one world to another. -/
def Does (limit : Option Nat) (spans : List Span) (c : Case) : Part → World → World → Prop
  | .setup e, w, w' => ∃ h, c.before = some h ∧ Ends limit (h.run.under spans) w e.ending w'
  | .body e, w, w' => Ends limit (c.body.run.under spans) w e.ending w'
  | .teardown e, w, w' => ∃ h, c.after = some h ∧ Ends limit (h.run.under spans) w e.ending w'
  | .noted n, w, w' => w' = { w with events := w.events ++ [⟨spans, n⟩] }
  | .numbered o, w, w' => o.id = w.nextOutcome ∧ w' = { w with nextOutcome := w.nextOutcome + 1 }
  | .recorded o, w, w' => w' = { w with reports := w.reports ++ [.outcome o] }

theorem grows_of_does {limit : Option Nat} {spans : List Span} {c : Case} {part : Part} {w w' : World}
    (h : c.Does limit spans part w w') : w.Grows w' := by
  cases part with
  | setup e => exact h.elim fun _ h => h.2.grows
  | body e => exact Ends.grows h
  | teardown e => exact h.elim fun _ h => h.2.grows
  | noted n => exact h ▸ { Grows.refl w with events := List.prefix_append _ _ }
  | numbered o => exact h.2 ▸ { Grows.refl w with nextOutcome := Nat.le_succ _ }
  | recorded o => exact h ▸ { Grows.refl w with reports := List.prefix_append _ _ }

namespace Course

open Ended (failureOf resultOf)

def examination (setup body : Option Ended) : List Part :=
  setup.toList.map .setup ++ (failureOf setup).toList.map (.noted <| .setupFailed ·) ++
    body.toList.map .body

def examined (setup body : Option Ended) : Finding :=
  match failureOf setup with
  | some f => .ofSetupFailure f
  | none => .ofBody (resultOf body)

def closing (found : Finding) (teardown : Option Ended) : List Part :=
  teardown.toList.map .teardown ++
    (failureOf teardown).toList.map (.noted <| found.teardownNotice ·)

def closed (found : Finding) (teardown : Option Ended) : Finding :=
  (failureOf teardown).elim found found.afterTeardownFailure

def invocations (k : Course) : List Part :=
  examination k.setup k.body ++ closing (examined k.setup k.body) k.teardown

def finding (k : Course) : Finding := closed (examined k.setup k.body) k.teardown

def parts (k : Course) (o : Outcome) : List Part :=
  k.invocations ++ [.numbered o, .noted (.testFinished o.kind), .recorded o]

/-- A course that runs of the case can take: a hook is invoked if it is there, and the body unless the
set-up failed. -/
structure Of (k : Course) (c : Case) : Prop where
  setup : k.setup.isSome = c.before.isSome
  body : k.body.isSome = (failureOf k.setup).isNone
  teardown : k.teardown.isSome = c.after.isSome

end Course

open Course
open Ended (failureOf resultOf failureOf_eq_none_iff failureOf_eq_some_iff)

variable {limit : Option Nat} {spans : List Span} {c : Case} {w w' : World}

theorem examine_eq (c : Case) :
    c.examine = (Hook.invokeOption c.before).bind fun r => match r with
      | .error f => .notice ⟨[], .setupFailed f⟩ (.pure (.ofSetupFailure f))
      | .ok () => c.body.invoke.bind fun r => .pure (.ofBody r) := rfl

theorem tearDown_eq (c : Case) (found : Finding) :
    c.tearDown found = (Hook.invokeOption c.after).bind fun r => match r with
      | .error f => .notice ⟨[], found.teardownNotice f⟩ (.pure (found.afterTeardownFailure f))
      | .ok () => .pure found := rfl

theorem conclude_eq (c : Case) (found : Finding) :
    c.conclude found = .act .newOutcome fun id =>
      let o := Outcome.make id c.name found.kind found.cause
      .notice ⟨[], .testFinished o.kind⟩ (.report (.outcome o) (.pure o)) := rfl

theorem run_eq (c : Case) :
    c.run = ((c.examine.bind c.tearDown).bind c.conclude).within (.case c.name) := by
  rw [Program.bind_assoc]
  rfl

theorem ends_examine_iff {found : Finding} :
    Ends limit (c.examine.under spans) w (.finished found) w' ↔
      ∃ setup body, setup.isSome = c.before.isSome ∧ body.isSome = (failureOf setup).isNone ∧
        examined setup body = found ∧
          Chain (c.Does limit spans) (examination setup body) w w' := by
  rw [examine_eq, Program.under_bind, ends_bind_finished_iff]
  simp only [examination, chain_append_iff, chain_map_iff]
  constructor
  · rintro ⟨r, w₁, hSetup, hRest⟩
    obtain ⟨setup, hSome, hResult, hChain⟩ := Hook.ends_invokeOption_iff.mp hSetup
    cases r with
    | error f =>
      have hFailure := failureOf_eq_some_iff.mpr hResult
      rw [Program.under_notice, ends_notice_iff, Program.under_pure, ends_pure_iff] at hRest
      obtain ⟨hFound, rfl⟩ := hRest
      refine ⟨setup, none, hSome, by simp [hFailure], ?_, _, ⟨w₁, hChain, ?_⟩, rfl⟩
      · simp [examined, hFailure, (Ending.finished.inj hFound).symm]
      · simp [hFailure, Does]
    | ok _ =>
      have hFailure := failureOf_eq_none_iff.mpr hResult
      rw [Program.under_bind, ends_bind_finished_iff] at hRest
      obtain ⟨r, w₂, hBody, hRest⟩ := hRest
      rw [Program.under_pure, ends_pure_iff] at hRest
      obtain ⟨hFound, rfl⟩ := hRest
      obtain ⟨x, hRun, rfl⟩ := Hook.ends_invoke_finished_iff.mp hBody
      refine ⟨setup, some x, hSome, by simp [hFailure], ?_, w₁, ⟨w₁, hChain, ?_⟩, ?_⟩
      · simp [examined, hFailure, (Ending.finished.inj hFound).symm, resultOf]
      · simp [hFailure]
      · exact ⟨_, hRun, rfl⟩
  · rintro ⟨setup, body, hSome, hBody, rfl, w₂, ⟨w₁, hChain, hNoted⟩, hRun⟩
    refine ⟨resultOf setup, w₁, Hook.ends_invokeOption_iff.mpr ⟨setup, hSome, rfl, hChain⟩, ?_⟩
    cases hFailure : failureOf setup with
    | some f =>
      rw [failureOf_eq_some_iff.mp hFailure]
      cases body with
      | some x => simp [hFailure] at hBody
      | none =>
        simp only [hFailure, Option.toList_some, chain_cons_iff, Does, chain_nil_iff,
          exists_eq_left, Option.toList_none] at hNoted hRun
        subst hNoted hRun
        rw [Program.under_notice, ends_notice_iff, Program.under_pure, ends_pure_iff]
        simp [examined, hFailure]
    | none =>
      rw [failureOf_eq_none_iff.mp hFailure]
      obtain ⟨x, rfl⟩ := Option.isSome_iff_exists.mp (hBody.trans (by simp [hFailure]))
      obtain rfl : w₁ = w₂ := by simpa [hFailure] using hNoted
      obtain ⟨_, hRun, rfl⟩ := hRun
      rw [Program.under_bind, ends_bind_finished_iff]
      refine ⟨x.result, _, Hook.ends_invoke_finished_iff.mpr ⟨x, hRun, rfl⟩, ?_⟩
      rw [Program.under_pure, ends_pure_iff]
      simp [examined, hFailure, resultOf]

theorem ends_tearDown_iff {found found' : Finding} :
    Ends limit ((c.tearDown found).under spans) w (.finished found') w' ↔
      ∃ teardown, teardown.isSome = c.after.isSome ∧ closed found teardown = found' ∧
        Chain (c.Does limit spans) (closing found teardown) w w' := by
  rw [tearDown_eq, Program.under_bind, ends_bind_finished_iff]
  simp only [closing, chain_append_iff, chain_map_iff]
  constructor
  · rintro ⟨r, w₁, hTeardown, hRest⟩
    obtain ⟨teardown, hSome, hResult, hChain⟩ := Hook.ends_invokeOption_iff.mp hTeardown
    refine ⟨teardown, hSome, ?_⟩
    cases r with
    | error f =>
      have hFailure := failureOf_eq_some_iff.mpr hResult
      rw [Program.under_notice, ends_notice_iff, Program.under_pure, ends_pure_iff] at hRest
      obtain ⟨hFound, rfl⟩ := hRest
      refine ⟨by simp [closed, hFailure, (Ending.finished.inj hFound).symm], w₁, hChain, ?_⟩
      simp [hFailure, Does]
    | ok _ =>
      have hFailure := failureOf_eq_none_iff.mpr hResult
      rw [Program.under_pure, ends_pure_iff] at hRest
      obtain ⟨hFound, rfl⟩ := hRest
      exact ⟨by simp [closed, hFailure, (Ending.finished.inj hFound).symm], _, hChain, by simp [hFailure]⟩
  · rintro ⟨teardown, hSome, rfl, w₁, hChain, hNoted⟩
    refine ⟨resultOf teardown, w₁, Hook.ends_invokeOption_iff.mpr ⟨teardown, hSome, rfl, hChain⟩, ?_⟩
    cases hFailure : failureOf teardown with
    | some f =>
      rw [failureOf_eq_some_iff.mp hFailure]
      simp only [hFailure, Option.toList_some, chain_cons_iff, Does, chain_nil_iff,
        exists_eq_left] at hNoted
      subst hNoted
      rw [Program.under_notice, ends_notice_iff, Program.under_pure, ends_pure_iff]
      simp [closed, hFailure]
    | none =>
      rw [failureOf_eq_none_iff.mp hFailure, Program.under_pure, ends_pure_iff]
      simp only [hFailure, Option.toList_none, chain_nil_iff] at hNoted
      exact ⟨by simp [closed, hFailure], hNoted.symm⟩

theorem ends_conclude_iff {found : Finding} {o : Outcome} :
    Ends limit ((c.conclude found).under spans) w (.finished o) w' ↔
      o = Outcome.make o.id c.name found.kind found.cause ∧
        Chain (c.Does limit spans)
          [.numbered o, .noted (.testFinished o.kind), .recorded o] w w' := by
  rw [conclude_eq]
  simp only [Program.under_act, Program.under_notice, Program.under_report, Program.under_pure,
    ends_act_iff, ends_notice_iff, ends_report_iff, ends_pure_iff, perform, chain_cons_iff, Does,
    chain_nil_iff, List.append_nil]
  constructor
  · rintro ⟨ho, rfl⟩
    obtain rfl := Ending.finished.inj ho
    exact ⟨rfl, _, ⟨rfl, rfl⟩, _, rfl, _, rfl, rfl⟩
  · rintro ⟨ho, _, ⟨hId, rfl⟩, _, rfl, _, rfl, rfl⟩
    rw [← hId, ← ho]
    exact ⟨rfl, rfl⟩

/-- A run of a case yields an outcome exactly if the parts of a course go through, and then it is the
outcome that the course calls for. -/
theorem ends_run_iff {o : Outcome} :
    Ends limit (c.run.under spans) w (.finished o) w' ↔
      ∃ k : Course, k.Of c ∧ o = Outcome.make o.id c.name k.finding.kind k.finding.cause ∧
        Chain (c.Does limit (spans ++ [.case c.name])) (k.parts o) w w' := by
  rw [run_eq, Program.under_within]
  simp only [Program.under_bind, ends_bind_finished_iff, ends_examine_iff, ends_tearDown_iff,
    ends_conclude_iff, parts, invocations, chain_append_iff]
  constructor
  · rintro ⟨found', w₂, ⟨found, w₁, ⟨setup, body, hSetup, hBody, rfl, hExamined⟩,
      teardown, hTeardown, rfl, hClosed⟩, ho, hRest⟩
    exact ⟨⟨setup, body, teardown⟩, ⟨hSetup, hBody, hTeardown⟩, ho, w₂, ⟨w₁, hExamined, hClosed⟩, hRest⟩
  · rintro ⟨⟨setup, body, teardown⟩, ⟨hSetup, hBody, hTeardown⟩, ho, w₂, ⟨w₁, hExamined, hClosed⟩, hRest⟩
    exact ⟨_, w₂, ⟨_, w₁, ⟨setup, body, hSetup, hBody, rfl, hExamined⟩,
      teardown, hTeardown, rfl, hClosed⟩, ho, hRest⟩

/-- Once all that a run invokes came to its end the run yields an outcome. Nothing else is left to do but to
number it, to note the end and to record it. -/
theorem ends_run_of_invocations {k : Course} {w₁ : World} (hk : k.Of c)
    (hInvoked : Chain (c.Does limit (spans ++ [.case c.name])) k.invocations w w₁) :
    let o := Outcome.make w₁.nextOutcome c.name k.finding.kind k.finding.cause
    Ends limit (c.run.under spans) w (.finished o)
      { w₁ with
        nextOutcome := w₁.nextOutcome + 1
        events := w₁.events ++ [⟨spans ++ [.case c.name], .testFinished o.kind⟩]
        reports := w₁.reports ++ [.outcome o] } := by
  intro o
  refine ends_run_iff.mpr ⟨k, hk, rfl, chain_append_iff.mpr ⟨w₁, hInvoked, ?_⟩⟩
  exact ⟨_, ⟨rfl, rfl⟩, _, rfl, _, rfl, rfl⟩

theorem neverPanics_run : NeverPanics limit (c.run.under spans) := by
  rw [run_eq, Program.under_within]
  simp only [Program.under_bind, examine_eq, tearDown_eq, conclude_eq]
  refine ((Hook.neverPanics_invokeOption.bind ?_).bind fun found =>
    Hook.neverPanics_invokeOption.bind ?_).bind fun found => ?_
  · rintro (f | _)
    · simpa using .notice (.pure _)
    · simp only [Program.under_bind, Program.under_pure]
      exact Hook.neverPanics_invoke.bind fun _ => .pure _
  · rintro (f | _)
    · simpa using .notice (.pure _)
    · simpa using .pure _
  · simpa using .act fun _ => .notice (.report (.pure _))

theorem id_of_ends_run {o : Outcome} (h : Ends limit (c.run.under spans) w (.finished o) w') :
    w.nextOutcome ≤ o.id ∧ o.id < w'.nextOutcome := by
  obtain ⟨k, -, -, hParts⟩ := ends_run_iff.mp h
  obtain ⟨w₁, hInvoked, _, ⟨hId, rfl⟩, _, rfl, _, rfl, rfl⟩ := chain_append_iff.mp hParts
  have hGrows : w.Grows w₁ := Chain.grows (fun _ _ _ => grows_of_does) hInvoked
  exact ⟨hId ▸ hGrows.nextOutcome, hId ▸ Nat.lt_succ_self _⟩

end Case

end TestBench
