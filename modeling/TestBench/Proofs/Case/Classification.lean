import TestBench.Proofs.Case.Course

/-! # The outcome of a case

A case whose invoked parts all come to an end yields one outcome. Its kind and cause depend only on
how set-up, body and teardown ended: the first fatal error decides, and without one a failed assertion
of the body.
-/

namespace TestBench

open World

namespace Ended

def WentWell (x : Option Ended) : Prop := x = none ∨ x = some (.ok (.ok ()))

/-- The message of what went wrong: that of the failure returned, or the text of the panic. -/
def message? : Ended → Option String
  | .ok (.ok ()) => none
  | .ok (.error f) => f.message?
  | .error (.text s) => some s
  | .error .other => none

def errorCause (e : Ended) : String :=
  match e.message? with
  | some m => if m = "" then Failure.unknownError else m
  | none => Failure.unknownError

theorem wentWell_iff {x : Option Ended} : WentWell x ↔ resultOf x = .ok () := by
  rcases x with _ | (q | ⟨f | ⟨⟩⟩) <;> simp [WentWell, resultOf, result]

theorem mild_or_fatal (e : Ended) :
    (e = .ok (.ok ()) ∨ ∃ m, e = .ok (.error (.assertion m))) ∨
      (e ≠ .ok (.ok ()) ∧ ∀ m, e ≠ .ok (.error (.assertion m))) := by
  rcases e with q | (m | m) | ⟨⟩ <;> simp

theorem eq_of_result_assertion {e : Ended} {m : String} (h : e.result = .error (.assertion m)) :
    e = .ok (.error (.assertion m)) := by
  rcases e with (s | _) | f | ⟨⟩
  · by_cases hs : s = "" <;> simp [result, Failure.ofPayload, Failure.ofMessage, hs] at h
  · simp [result, Failure.ofPayload, Failure.unknown] at h
  · exact congrArg Except.ok h
  · cases h

theorem exists_failure_of_ne {e : Ended} (h : e ≠ .ok (.ok ())) :
    ∃ f, e.result = .error f ∧ Outcome.causeFor .error f.message? = some e.errorCause := by
  have hFilter (m : String) : Outcome.causeFor .error (some m) =
      some (if m = "" then Failure.unknownError else m) := by
    by_cases hm : m = "" <;> simp [Outcome.causeFor, Option.filter, hm]
  rcases e with q | f | ⟨⟩
  · refine ⟨.ofPayload q, rfl, ?_⟩
    cases q with
    | other => rfl
    | text s =>
      by_cases hs : s = ""
      · subst hs
        rfl
      · simp [Failure.ofPayload, Failure.ofMessage, hs, Failure.message?, hFilter, errorCause, message?]
  · refine ⟨f, rfl, ?_⟩
    cases hm : f.message? with
    | none => simp [errorCause, message?, hm, Outcome.causeFor]
    | some m => simp [errorCause, message?, hm, hFilter]
  · exact absurd rfl h

end Ended

namespace Case.Course

open Ended (WentWell resultOf)

inductive Verdict (k : Course) : Kind → Option String → Prop
  | pass (hSetup : WentWell k.setup) (hBody : k.body = some (.ok (.ok ())))
      (hTeardown : WentWell k.teardown) : Verdict k .pass none
  | fail {m : String} (hSetup : WentWell k.setup) (hBody : k.body = some (.ok (.error (.assertion m))))
      (hTeardown : WentWell k.teardown) : Verdict k .fail (if m = "" then none else some m)
  | setup {e : Ended} (hSetup : k.setup = some e) (he : e ≠ .ok (.ok ())) :
      Verdict k .error (some e.errorCause)
  | body {e : Ended} (hSetup : WentWell k.setup) (hBody : k.body = some e) (he : e ≠ .ok (.ok ()))
      (hAssertion : ∀ m, e ≠ .ok (.error (.assertion m))) : Verdict k .error (some e.errorCause)
  | teardown {e : Ended} (hSetup : WentWell k.setup)
      (hBody : k.body = some (.ok (.ok ())) ∨ ∃ m, k.body = some (.ok (.error (.assertion m))))
      (hTeardown : k.teardown = some e) (he : e ≠ .ok (.ok ())) : Verdict k .error (some e.errorCause)

variable {k : Course} {c : Case}

theorem examined_of_setup {f : Failure} (h : resultOf k.setup = .error f) :
    examined k.setup k.body = ⟨.error, f.message?⟩ := by
  simp [examined, Ended.failureOf_eq_some_iff.mpr h, Finding.ofSetupFailure]

theorem examined_of_wentWell (h : WentWell k.setup) :
    examined k.setup k.body = .ofBody (resultOf k.body) := by
  simp [examined, Ended.failureOf_eq_none_iff.mpr (Ended.wentWell_iff.mp h)]

theorem closed_of_wentWell {found : Finding} (h : WentWell k.teardown) :
    closed found k.teardown = found := by
  simp [closed, Ended.failureOf_eq_none_iff.mpr (Ended.wentWell_iff.mp h)]

theorem closed_of_error {found : Finding} (h : found.kind = .error) :
    closed found k.teardown = found := by
  cases hf : Ended.failureOf k.teardown <;> simp [closed, hf, Finding.afterTeardownFailure, h]

theorem closed_of_failure {found : Finding} {f : Failure} (hTeardown : resultOf k.teardown = .error f)
    (h : found.kind ≠ .error) : closed found k.teardown = ⟨.error, f.message?⟩ := by
  simp [closed, Ended.failureOf_eq_some_iff.mpr hTeardown, Finding.afterTeardownFailure, h]

theorem exists_verdict (hk : k.Of c) : ∃ kind cause, Verdict k kind cause := by
  by_cases hSetup : WentWell k.setup
  · have hBody : k.body.isSome := by
      simp [hk.body, Ended.failureOf_eq_none_iff.mpr (Ended.wentWell_iff.mp hSetup)]
    obtain ⟨b, hb⟩ := Option.isSome_iff_exists.mp hBody
    rcases Ended.mild_or_fatal b with hMild | ⟨he, hAssertion⟩
    · have hMild : k.body = some (.ok (.ok ())) ∨ ∃ m, k.body = some (.ok (.error (.assertion m))) := by
        simpa only [hb, Option.some.injEq] using hMild
      by_cases hTeardown : WentWell k.teardown
      · rcases hMild with hb | ⟨m, hb⟩
        · exact ⟨_, _, .pass hSetup hb hTeardown⟩
        · exact ⟨_, _, .fail hSetup hb hTeardown⟩
      · rw [WentWell, not_or] at hTeardown
        obtain ⟨e, he⟩ := Option.ne_none_iff_exists'.mp hTeardown.1
        exact ⟨_, _, .teardown hSetup hMild he fun h => hTeardown.2 (he.trans (h ▸ rfl))⟩
    · exact ⟨_, _, .body hSetup hb he hAssertion⟩
  · rw [WentWell, not_or] at hSetup
    obtain ⟨e, he⟩ := Option.ne_none_iff_exists'.mp hSetup.1
    exact ⟨_, _, .setup he fun h => hSetup.2 (he.trans (h ▸ rfl))⟩

theorem Verdict.finding {kind : Kind} {cause : Option String} (h : Verdict k kind cause) :
    k.finding.kind = kind ∧ Outcome.causeFor k.finding.kind k.finding.cause = cause := by
  unfold Course.finding
  cases h with
  | pass hSetup hBody hTeardown =>
    rw [closed_of_wentWell hTeardown, examined_of_wentWell hSetup, hBody]
    exact ⟨rfl, rfl⟩
  | @fail m hSetup hBody hTeardown =>
    rw [closed_of_wentWell hTeardown, examined_of_wentWell hSetup, hBody]
    by_cases hm : m = "" <;>
      simp [resultOf, Ended.result, Finding.ofBody, Outcome.causeFor, Option.filter, hm]
  | @setup e hSetup he =>
    obtain ⟨f, hResult, hCause⟩ := Ended.exists_failure_of_ne he
    rw [closed_of_error] <;> rw [examined_of_setup (f := f) (by simp [hSetup, resultOf, hResult])]
    exact ⟨rfl, hCause⟩
  | @body e hSetup hBody he hAssertion =>
    obtain ⟨f, hResult, hCause⟩ := Ended.exists_failure_of_ne he
    have hFound : examined k.setup k.body = ⟨.error, f.message?⟩ := by
      rw [examined_of_wentWell hSetup]
      rcases f with m | m
      · exact absurd (Ended.eq_of_result_assertion hResult) (hAssertion m)
      · simp [hBody, resultOf, hResult, Finding.ofBody, Failure.message?]
    rw [closed_of_error (by rw [hFound]), hFound]
    exact ⟨rfl, hCause⟩
  | @teardown e hSetup hBody hTeardown he =>
    obtain ⟨f, hResult, hCause⟩ := Ended.exists_failure_of_ne he
    have hKind : (examined k.setup k.body).kind ≠ .error := by
      rw [examined_of_wentWell hSetup]
      rcases hBody with hb | ⟨m, hb⟩ <;> simp [hb, resultOf, Ended.result, Finding.ofBody]
    rw [closed_of_failure (f := f) (by simp [hTeardown, resultOf, hResult]) hKind]
    exact ⟨rfl, hCause⟩

theorem verdict_iff (hk : k.Of c) {kind : Kind} {cause : Option String} :
    Verdict k kind cause ↔
      k.finding.kind = kind ∧ Outcome.causeFor k.finding.kind k.finding.cause = cause := by
  constructor
  · exact Verdict.finding
  · rintro ⟨rfl, rfl⟩
    obtain ⟨kind, cause, h⟩ := exists_verdict hk
    obtain ⟨rfl, rfl⟩ := h.finding
    exact h

end Case.Course

namespace Case

open Course (Verdict)

variable {c : Case} {w w₁ : World} {limit : Option Nat} {k : Course}

/-- If all parts that a run of the case invokes come to their end, the run yields exactly one outcome.
It bears the name of the case and is of the kind and cause that the rules give. -/
theorem run_yields_verdict (hk : k.Of c)
    (hParts : Chain (c.Does (limit.map (w.now + ·)) [.case c.name]) k.invocations w w₁) :
    ∃ o w', (∃ bound, ∀ turns, bound ≤ turns → World.run turns limit c.run w = (.finished o, w')) ∧
      o.test = c.name ∧ w'.reports = w₁.reports ++ [.outcome o] ∧
      ∀ kind cause, k.Verdict kind cause ↔ o.kind = kind ∧ o.cause = cause := by
  let o := Outcome.make w₁.nextOutcome c.name k.finding.kind k.finding.cause
  have hEnds : Ends (limit.map (w.now + ·)) (c.run.under []) w (.finished o)
      { w₁ with
        nextOutcome := w₁.nextOutcome + 1
        events := w₁.events ++ [⟨[.case c.name], .testFinished o.kind⟩]
        reports := w₁.reports ++ [.outcome o] } := by
    refine ends_run_iff.mpr ⟨k, hk, rfl, ?_⟩
    exact chain_append_iff.mpr ⟨w₁, hParts, _, ⟨rfl, rfl⟩, _, rfl, _, rfl, rfl⟩
  exact ⟨o, _, (ends_iff_run.mp hEnds).2, rfl, rfl, fun _ _ => Course.verdict_iff hk⟩

/-- A teardown that panics without a text turns the failed assertion of the body into an error. -/
theorem run_yields_verdict_of_panicking_teardown :
    let c : Case :=
      { name := "reads", before := some (.ofWork (.pure (.ok ()))),
        body := .ofWork (.pure (.error (.assertion "low"))), after := some (.panic .other) }
    let k : Course :=
      ⟨some (.ok (.ok ())), some (.ok (.error (.assertion "low"))), some (.error .other)⟩
    let w₁ : World := { events := [⟨[.case "reads"], .teardownFailed .unknown⟩] }
    k.Of c ∧ Chain (c.Does none [.case "reads"]) k.invocations {} w₁ ∧
      ∃ o w', (∃ bound, ∀ turns, bound ≤ turns → World.run turns none c.run {} = (.finished o, w')) ∧
        o.test = "reads" ∧ o.kind = .error ∧ o.cause = some "Unknown error" := by
  intro c k w₁
  have hOf : k.Of c := ⟨rfl, rfl, rfl⟩
  have hParts : Chain (c.Does none [.case "reads"]) k.invocations {} w₁ :=
    ⟨{}, ⟨_, rfl, rfl, rfl⟩, {}, ⟨rfl, rfl⟩, {}, ⟨_, rfl, rfl, rfl⟩, w₁, rfl, rfl⟩
  obtain ⟨o, w', hRun, hName, _, hVerdict⟩ := @run_yields_verdict c {} w₁ none k hOf hParts
  obtain ⟨hKind, hCause⟩ := (hVerdict .error (some "Unknown error")).mp
    (Course.Verdict.teardown (e := .error .other) (.inr rfl) (.inr ⟨"low", rfl⟩) rfl nofun)
  exact ⟨hOf, hParts, o, w', hRun, hName, hKind, hCause⟩

end Case

end TestBench
