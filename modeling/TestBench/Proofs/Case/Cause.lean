import TestBench.Proofs.Case.Classification
import Mathlib.Logic.ExistsUnique

/-! # The failure that decides and the cause that is recorded

One failure decides a case that does not pass. Main statement: unless its message is the empty text,
what is shown for this failure anywhere is what the outcome has as its cause
(`Case.run_records_message`). An empty message counts as no cause.
-/

namespace TestBench

open World

def Notice.failure? : Notice → Option Failure
  | setupFailed f | teardownFailed f | teardownFailedLate f | setSetupFailed f | setTeardownFailed f => some f
  | _ => none

namespace Failure

/-- The texts that are shown for a failure: on its own, in notices, and for a set run that was given up. -/
inductive ShownAs (f : Failure) : String → Prop
  | alone : f.ShownAs f.message
  | notice {n : Notice} {text : String} (hTells : n.failure? = some f) (hField : ("failure", text) ∈ n.fields) :
      f.ShownAs text
  | abort {phase : Phase} {text : String}
      (h : (⟨phase, f⟩ : Abort).message = "test set " ++ phase.name ++ " failed: " ++ text) : f.ShownAs text

variable {f : Failure}

theorem shownAs_iff {text : String} : f.ShownAs text ↔ text = f.message := by
  constructor
  · intro h
    cases h with
    | alone => rfl
    | @notice n _ hTells hField =>
      cases n <;> simp_all [Notice.failure?, Notice.fields]
    | abort h => exact ((String.append_right_inj _).mp h).symm
  · rintro rfl
    exact .alone

theorem causeFor_error_of_ne (h : f.message? ≠ some "") :
    Outcome.causeFor .error f.message? = some f.message := by
  rcases f with m | _ | m
  · have hm : m ≠ "" := fun hm => h (congrArg some hm)
    simp [Outcome.causeFor, message?, message, Option.filter, hm]
  · rfl
  · have hm : m ≠ "" := fun hm => h (congrArg some hm)
    simp [Outcome.causeFor, message?, message, Option.filter, hm]

end Failure

namespace Case.Course

open Ended (WentWell resultOf wentWell_iff)

variable {k : Course} {f g : Failure}

/-- The first fatal failure decides, and without one a failed assertion of the body. -/
inductive DecidedBy (k : Course) (f : Failure) : Prop
  | setup (hSetup : resultOf k.setup = .error f)
  | body (hSetup : WentWell k.setup) (hBody : resultOf k.body = .error f)
      (hTeardown : f.isAssertion → WentWell k.teardown)
  | teardown (hSetup : WentWell k.setup) (hBody : ∀ g, resultOf k.body = .error g → g.isAssertion)
      (hTeardown : resultOf k.teardown = .error f)

theorem DecidedBy.unique (hf : k.DecidedBy f) (hg : k.DecidedBy g) : f = g := by
  have hNot {x : Option Ended} {f : Failure} (hWell : WentWell x) : resultOf x ≠ .error f := by
    rw [wentWell_iff.mp hWell]
    simp
  have hSame {x : Option Ended} {f g : Failure} (hf : resultOf x = .error f) (hg : resultOf x = .error g) :
      f = g := Except.error.inj (hf.symm.trans hg)
  cases hf with
  | setup hSetup =>
    cases hg with
    | setup hSetup' => exact hSame hSetup hSetup'
    | body hWell => exact absurd hSetup (hNot hWell)
    | teardown hWell => exact absurd hSetup (hNot hWell)
  | body hWell hBody hTeardown =>
    cases hg with
    | setup hSetup => exact absurd hSetup (hNot hWell)
    | body _ hBody' => exact hSame hBody hBody'
    | teardown _ hMild hFailed => exact absurd hFailed (hNot (hTeardown (hMild f hBody)))
  | teardown hWell hMild hFailed =>
    cases hg with
    | setup hSetup => exact absurd hSetup (hNot hWell)
    | body _ hBody hTeardown => exact absurd hFailed (hNot (hTeardown (hMild g hBody)))
    | teardown _ _ hFailed' => exact hSame hFailed hFailed'

theorem DecidedBy.finding (h : k.DecidedBy f) :
    (∃ m, f = .assertion m ∧ k.finding = ⟨.fail, some m⟩) ∨ k.finding = ⟨.error, f.message?⟩ := by
  unfold Course.finding
  cases h with
  | setup hSetup =>
    right
    rw [closed_of_error] <;> rw [examined_of_setup hSetup]
  | body hSetup hBody hTeardown =>
    rw [examined_of_wentWell hSetup, hBody]
    cases f with
    | assertion m => exact .inl ⟨m, rfl, closed_of_wentWell (hTeardown rfl)⟩
    | unexpected m => exact .inr (closed_of_error rfl)
  | teardown hSetup hBody hTeardown =>
    refine .inr (closed_of_failure hTeardown ?_)
    rw [examined_of_wentWell hSetup]
    cases hResult : resultOf k.body with
    | ok _ => nofun
    | error g =>
      cases g with
      | assertion m => nofun
      | unexpected m => cases hBody _ hResult

theorem exists_decidedBy (h : k.finding.kind ≠ .pass) : ∃ f, k.DecidedBy f := by
  cases hSetup : resultOf k.setup with
  | error f => exact ⟨f, .setup hSetup⟩
  | ok _ =>
    have hSetup : WentWell k.setup := wentWell_iff.mpr hSetup
    by_cases hMild : ∀ g, resultOf k.body = .error g → g.isAssertion
    · cases hTeardown : resultOf k.teardown with
      | error f => exact ⟨f, .teardown hSetup hMild hTeardown⟩
      | ok _ =>
        have hTeardown : WentWell k.teardown := wentWell_iff.mpr hTeardown
        cases hBody : resultOf k.body with
        | error f => exact ⟨f, .body hSetup hBody fun _ => hTeardown⟩
        | ok _ =>
          refine absurd ?_ h
          rw [finding, closed_of_wentWell hTeardown, examined_of_wentWell hSetup, hBody]
          rfl
    · obtain ⟨g, hMild⟩ := Classical.not_forall.mp hMild
      obtain ⟨hBody, hFatal⟩ := Classical.not_imp.mp hMild
      exact ⟨g, .body hSetup hBody fun hAssertion => absurd hAssertion hFatal⟩

theorem kind_ne_pass_iff : k.finding.kind ≠ .pass ↔ ∃! f, k.DecidedBy f := by
  constructor
  · intro h
    obtain ⟨f, hf⟩ := exists_decidedBy h
    exact ⟨f, hf, fun g hg => hg.unique hf⟩
  · rintro ⟨f, hf, -⟩
    rcases hf.finding with ⟨m, -, hFinding⟩ | hFinding <;> simp [hFinding]

theorem DecidedBy.cause_of_ne (h : k.DecidedBy f) (hMessage : f.message? ≠ some "") :
    Outcome.causeFor k.finding.kind k.finding.cause = some f.message := by
  rcases h.finding with ⟨m, rfl, hFinding⟩ | hFinding
  · have hm : m ≠ "" := fun hm => hMessage (congrArg some hm)
    simp [hFinding, Outcome.causeFor, Option.filter, hm, Failure.message]
  · rw [hFinding]
    exact Failure.causeFor_error_of_ne hMessage

theorem DecidedBy.cause_of_empty (h : k.DecidedBy f) (hMessage : f.message? = some "") :
    Outcome.causeFor k.finding.kind k.finding.cause =
      if k.finding.kind = .fail then none else some Failure.unknownError := by
  rcases h.finding with ⟨m, rfl, hFinding⟩ | hFinding
  · obtain rfl : m = "" := Option.some.inj hMessage
    rw [hFinding]
    rfl
  · rw [hFinding, hMessage]
    rfl

end Case.Course

namespace Case

variable {c : Case} {w w₁ : World} {limit : Option Nat} {k : Course}

/-- If all parts that a run of the case invokes come to their end, the run yields an outcome, and it is
no pass exactly if one failure decides. If the message of this failure is not the empty text, the cause
of the outcome is what is shown for the failure; an empty message counts as no cause. -/
theorem run_records_message (hk : k.Of c)
    (hParts : Chain (c.Does (limit.map (w.now + ·)) [.case c.name]) k.invocations w w₁) :
    ∃ o w', (∃ bound, ∀ turns, bound ≤ turns → World.run turns limit c.run w = (.finished o, w')) ∧
      (o.kind ≠ .pass ↔ ∃! f, k.DecidedBy f) ∧
      ∀ f, k.DecidedBy f →
        (f.message? ≠ some "" → ∀ text, f.ShownAs text ↔ o.cause = some text) ∧
        (f.message? = some "" → o.cause = if o.kind = .fail then none else some "Unknown error") := by
  let o := Outcome.make w₁.nextOutcome c.name k.finding.kind k.finding.cause
  have hEnds : Ends (limit.map (w.now + ·)) (c.run.under []) w (.finished o) _ :=
    ends_run_of_invocations hk hParts
  refine ⟨o, _, (ends_iff_run.mp hEnds).2, Course.kind_ne_pass_iff, fun f hf => ⟨?_, ?_⟩⟩
  · intro hMessage text
    have hCause : o.cause = some f.message := hf.cause_of_ne hMessage
    rw [Failure.shownAs_iff, hCause, Option.some.injEq, eq_comm]
  · exact fun hMessage => hf.cause_of_empty hMessage

/-- The teardown decides, and the notice of it has the text of the cause. -/
theorem run_records_message_of_failed_teardown :
    let f : Failure := .unexpected (some "gone")
    let c : Case :=
      { name := "reads", body := .ofWork (.pure (.error (.assertion "low"))),
        after := some (.ofWork (.pure (.error f))) }
    let k : Course := ⟨none, some (.ok (.error (.assertion "low"))), some (.ok (.error f))⟩
    let w₁ : World := { events := [⟨[.case "reads"], .teardownFailed f⟩] }
    k.Of c ∧ Chain (c.Does none [.case "reads"]) k.invocations {} w₁ ∧ k.DecidedBy f ∧
      ∃ o w', (∃ bound, ∀ turns, bound ≤ turns → World.run turns none c.run {} = (.finished o, w')) ∧
        o.kind ≠ .pass ∧ o.cause = some "gone" ∧ ("failure", "gone") ∈ (Notice.teardownFailed f).fields := by
  intro f c k w₁
  have hOf : k.Of c := ⟨rfl, rfl, rfl⟩
  have hParts : Chain (c.Does none [.case "reads"]) k.invocations {} w₁ :=
    ⟨{}, ⟨rfl, rfl⟩, {}, ⟨_, rfl, rfl, rfl⟩, w₁, rfl, rfl⟩
  have hDecided : k.DecidedBy f := by
    refine .teardown (.inl rfl) (fun g hg => ?_) rfl
    obtain rfl := Except.error.inj hg
    rfl
  obtain ⟨o, w', hRun, hKind, hCause⟩ := @run_records_message c {} w₁ none k hOf hParts
  have hFails : o.kind ≠ .pass := hKind.mpr ⟨f, hDecided, fun g hg => hg.unique hDecided⟩
  have hField : ("failure", "gone") ∈ (Notice.teardownFailed f).fields := List.mem_singleton_self _
  have hShown := ((hCause f hDecided).1 (by decide) "gone").mp (.notice rfl hField)
  exact ⟨hOf, hParts, hDecided, o, w', hRun, hFails, hShown, hField⟩

def failing (f : Failure) : Case := { name := "reads", body := .ofWork (.pure (.error f)) }

/-- An assertion with an empty message makes a fail without a cause, and another failure with an empty message an
error whose cause is not this message. -/
theorem exists_cause_other_than_message :
    let k (f : Failure) : Course := ⟨none, some (.ok (.error f)), none⟩
    let f : Failure := .assertion ""
    let g : Failure := .unexpected (some "")
    (∃ o w, (k f).Of (failing f) ∧ Chain ((failing f).Does none [.case "reads"]) (k f).invocations {} {} ∧
      (k f).DecidedBy f ∧ World.run 0 none (failing f).run {} = (.finished o, w) ∧ o.kind = .fail ∧
      o.cause ≠ some f.message) ∧
    ∃ o w, (k g).Of (failing g) ∧ Chain ((failing g).Does none [.case "reads"]) (k g).invocations {} {} ∧
      (k g).DecidedBy g ∧ World.run 0 none (failing g).run {} = (.finished o, w) ∧ o.kind = .error ∧
      o.cause ≠ some g.message := by
  intro k f g
  constructor
  · let o : Outcome := ⟨1, "reads", .fail, none⟩
    refine ⟨o, _, ⟨rfl, rfl, rfl⟩, ⟨{}, ⟨rfl, rfl⟩, rfl⟩, ?_, rfl, rfl, by decide⟩
    exact .body (.inl rfl) rfl fun _ => .inl rfl
  · let o : Outcome := ⟨1, "reads", .error, some "Unknown error"⟩
    refine ⟨o, _, ⟨rfl, rfl, rfl⟩, ⟨{}, ⟨rfl, rfl⟩, rfl⟩, ?_, rfl, rfl, by decide⟩
    exact .body (.inl rfl) rfl nofun

end Case

end TestBench
