import TestBench.Proofs.Case.Course
import TestBench.Proofs.World.Silence
import Mathlib.Data.Set.Insert
import Mathlib.Logic.Function.Basic

/-! # Hooks that share no state

Each call of a hook ends in a way that depends on nothing but the number of earlier calls of the same hook
(`Isolated`). A case with such hooks yields an outcome that depends on its own hooks alone
(`Isolated.caseRun`).
-/

namespace TestBench

open World

/-! ## Hooks that share no state -/

inductive Role
  | setup
  | body
  | teardown
  deriving DecidableEq

def Case.hook (c : Case) : Role → Option Hook
  | .setup => c.before
  | .body => some c.body
  | .teardown => c.after

inductive Place (ι : Type)
  | test (i : ι) (role : Role)
  | own (phase : Phase)
  deriving DecidableEq

def Place.hook {ι : Type} (cases : ι → Case) (ownHook : Phase → Option Hook) : Place ι → Option Hook
  | test i role => (cases i).hook role
  | own phase => ownHook phase

/-- The hooks that stand at some places share no state. `At` says of a world how often each hook was called
until then; from there the next call of any of them ends, in the way that this number calls for. What cases
and sets note down between the calls makes no difference. -/
structure Isolated {κ : Type} [DecidableEq κ] (hook? : κ → Option Hook) (ways : κ → Nat → Ended)
    (At : (κ → Nat) → World → Prop) : Prop where
  call : ∀ {calls w} k h spans, At calls w → hook? k = some h →
    ∃ w', Ends none (h.run.under spans) w (ways k (calls k)).ending w' ∧
      At (Function.update calls k (calls k + 1)) w'
  record : ∀ {calls w} events reports nextOutcome, At calls w →
    At calls { w with events, reports, nextOutcome }

/-- On the way to a world, only hooks at some of the places were called. -/
def CalledWithin {κ : Type} (At : (κ → Nat) → World → Prop) (places : Set κ) (calls : κ → Nat) (w : World) :
    Prop := ∃ calls', At calls' w ∧ ∀ k ∉ places, calls' k = calls k

namespace CalledWithin

variable {κ : Type} {At : (κ → Nat) → World → Prop} {places places' : Set κ} {calls calls' : κ → Nat} {w : World}

theorem refl (hAt : At calls w) : CalledWithin At places calls w := ⟨calls, hAt, fun _ _ => rfl⟩

theorem mono (h : CalledWithin At places calls w) (hSub : places ⊆ places') :
    CalledWithin At places' calls w :=
  h.imp fun _ h => ⟨h.1, fun k hk => h.2 k fun hMem => hk (hSub hMem)⟩

theorem trans (hKept : ∀ k ∉ places, calls' k = calls k) (h : CalledWithin At places' calls' w) :
    CalledWithin At (places ∪ places') calls w := by
  obtain ⟨calls₁, hAt, hKept'⟩ := h
  refine ⟨calls₁, hAt, fun k hk => ?_⟩
  exact (hKept' k fun hMem => hk (.inr hMem)).trans (hKept k fun hMem => hk (.inl hMem))

end CalledWithin

/-! ## What a run shows -/

/-- On the way from one world to another these reports were made, and these events are among the new
ones. -/
structure World.Shows (w w' : World) (reports : List Report) (events : List Event) : Prop where
  reports : w'.reports = w.reports ++ reports
  events : ∃ more, w'.events = w.events ++ more ∧ events.Sublist more

namespace World.Shows

variable {w w₁ w' : World} {reports reports' : List Report} {events events' : List Event}

theorem trans (h : w.Shows w₁ reports events) (h' : w₁.Shows w' reports' events') :
    w.Shows w' (reports ++ reports') (events ++ events') := by
  obtain ⟨more, hMore, hSub⟩ := h.events
  obtain ⟨more', hMore', hSub'⟩ := h'.events
  constructor
  · rw [h'.reports, h.reports, List.append_assoc]
  · exact ⟨more ++ more', by rw [hMore', hMore, List.append_assoc], hSub.append hSub'⟩

theorem of_grows (h : w.Grows w') (hReports : w'.reports = w.reports ++ reports) : w.Shows w' reports [] := by
  obtain ⟨more, hMore⟩ := h.events
  exact ⟨hReports, more, hMore.symm, List.nil_sublist _⟩

theorem refl (w : World) : w.Shows w [] [] := of_grows (.refl w) (List.append_nil _).symm

end World.Shows

/-- From a world where the hooks were called so often, a program returns a value; on the way it calls only hooks
at some of the places. The value fits the reports that were made and the events that are among the new ones. -/
def Arrives {κ α : Type} (At : (κ → Nat) → World → Prop) (places : Set κ) (calls : κ → Nat) (p : Async α)
    (w : World) (fits : α → List Report → List Event → Prop) : Prop :=
  ∃ a w' reports events, Ends none p w (.finished a) w' ∧ w.Shows w' reports events ∧
    CalledWithin At places calls w' ∧ fits a reports events

namespace Arrives

variable {κ α β : Type} {At : (κ → Nat) → World → Prop} {places : Set κ} {calls : κ → Nat} {w : World}
  {p : Async α} {fits : α → List Report → List Event → Prop}

theorem pure {a : α} (hAt : At calls w) (h : fits a [] []) : Arrives At places calls (.pure a) w fits :=
  ⟨a, w, [], [], ends_pure_iff.mpr ⟨rfl, rfl⟩, .refl w, .refl hAt, h⟩

theorem mono {places' : Set κ} (h : Arrives At places calls p w fits)
    (hSub : places ⊆ places') : Arrives At places' calls p w fits := by
  obtain ⟨a, w', reports, events, hEnds, hShows, hCalled, hFits⟩ := h
  exact ⟨a, w', reports, events, hEnds, hShows, hCalled.mono hSub, hFits⟩

theorem bind {f : α → Async β} {fits' : β → List Report → List Event → Prop}
    (h : Arrives At places calls p w fits) (places' : Set κ)
    (hRest : ∀ a w₁ reports events calls₁, Ends none p w (.finished a) w₁ → fits a reports events →
      At calls₁ w₁ → (∀ k ∉ places, calls₁ k = calls k) → Arrives At places' calls₁ (f a) w₁
        fun b reports' events' => fits' b (reports ++ reports') (events ++ events')) :
    Arrives At (places ∪ places') calls (p.bind f) w fits' := by
  obtain ⟨a, w₁, reports, events, hEnds, hShows, ⟨calls₁, hAt, hKept⟩, hFits⟩ := h
  obtain ⟨b, w', reports', events', hEnds', hShows', hCalled, hFits'⟩ :=
    hRest a w₁ reports events calls₁ hEnds hFits hAt hKept
  exact ⟨b, w', _, _, ends_bind_finished_iff.mpr ⟨a, w₁, hEnds, hEnds'⟩, hShows.trans hShows',
    hCalled.trans hKept, hFits'⟩

theorem imp {fits' : α → List Report → List Event → Prop} (h : Arrives At places calls p w fits)
    (hFits : ∀ a reports events, fits a reports events → fits' a reports events) :
    Arrives At places calls p w fits' := by
  obtain ⟨a, w', reports, events, hEnds, hShows, hCalled, hThis⟩ := h
  exact ⟨a, w', reports, events, hEnds, hShows, hCalled, hFits _ _ _ hThis⟩

theorem notice {e : Event} (h : Arrives At places calls p { w with events := w.events ++ [e] } fits) :
    Arrives At places calls (.notice e p) w fits := by
  obtain ⟨a, w', reports, events, hEnds, ⟨hReports, more, hMore, hSub⟩, hCalled, hFits⟩ := h
  refine ⟨a, w', reports, events, ends_notice_iff.mpr hEnds, ⟨hReports, [e] ++ more, ?_, ?_⟩, hCalled, hFits⟩
  · rw [hMore, List.append_assoc]
  · exact hSub.trans (List.sublist_append_right _ _)

theorem report {r : Report}
    (h : Arrives At places calls p { w with reports := w.reports ++ [r] }
      fun a reports events => fits a (r :: reports) events) :
    Arrives At places calls (.report r p) w fits := by
  obtain ⟨a, w', reports, events, hEnds, ⟨hReports, hEvents⟩, hCalled, hFits⟩ := h
  refine ⟨a, w', r :: reports, events, ends_report_iff.mpr hEnds, ⟨?_, hEvents⟩, hCalled, hFits⟩
  rw [hReports, List.append_assoc]
  rfl

theorem number {next : Nat → Async α}
    (h : Arrives At places calls (next w.nextOutcome) { w with nextOutcome := w.nextOutcome + 1 } fits) :
    Arrives At places calls (.act .newOutcome next) w fits := by
  obtain ⟨a, w', reports, events, hEnds, hShows, hRest⟩ := h
  exact ⟨a, w', reports, events, ends_act_iff.mpr hEnds, ⟨hShows.reports, hShows.events⟩, hRest⟩

end Arrives

/-! ## Hooks -/

namespace Isolated

variable {κ : Type} [DecidableEq κ] {hook? : κ → Option Hook} {ways : κ → Nat → Ended}
  {At : (κ → Nat) → World → Prop} {calls : κ → Nat} {w : World} (spans : List Span)

theorem run (h : Isolated hook? ways At) (hAt : At calls w) {k : κ} {hook : Hook}
    (hHook : hook? k = some hook) (spans : List Span) :
    ∃ w', Ends none (hook.run.under spans) w (ways k (calls k)).ending w' ∧ w.Shows w' [] [] ∧
      CalledWithin At {k} calls w' := by
  obtain ⟨w', hEnds, hAt'⟩ := h.call k hook spans hAt hHook
  refine ⟨w', hEnds, ?_, _, hAt', ?_⟩
  · apply World.Shows.of_grows hEnds.grows
    rw [hEnds.reports_eq ((Program.silent_muted _).under spans), List.append_nil]
  · intro j hj
    exact Function.update_of_ne hj _ _

theorem invoke (h : Isolated hook? ways At) (hAt : At calls w) {k : κ} {hook : Hook}
    (hHook : hook? k = some hook) : Arrives At {k} calls (hook.invoke.under spans) w
      fun r reports events => r = (ways k (calls k)).result ∧ reports = [] ∧ events = [] := by
  obtain ⟨w', hEnds, hShows, hCalled⟩ := h.run hAt hHook spans
  exact ⟨_, w', [], [], Hook.ends_invoke_finished_iff.mpr ⟨_, hEnds, rfl⟩, hShows, hCalled, rfl, rfl, rfl⟩

theorem invokeOption (h : Isolated hook? ways At) (hAt : At calls w) (k : κ) :
    Arrives At {k} calls ((Hook.invokeOption (hook? k)).under spans) w fun r reports events =>
      r = Ended.resultOf ((hook? k).map fun _ => ways k (calls k)) ∧ reports = [] ∧ events = [] := by
  cases hHook : hook? k with
  | none =>
    change Arrives At {k} calls ((Program.pure _).under spans) w _
    rw [Program.under_pure]
    exact .pure hAt ⟨rfl, rfl, rfl⟩
  | some hook => exact h.invoke spans hAt hHook

theorem runOption (h : Isolated hook? ways At) (hAt : At calls w) (k : κ)
    (hSucceeds : (hook? k).isSome → ways k (calls k) = .ok (.ok ())) :
    Arrives At {k} calls ((Hook.runOption (hook? k)).under spans) w fun r reports events =>
      r = .ok () ∧ reports = [] ∧ events = [] := by
  cases hHook : hook? k with
  | none =>
    change Arrives At {k} calls ((Program.pure _).under spans) w _
    rw [Program.under_pure]
    exact .pure hAt ⟨rfl, rfl, rfl⟩
  | some hook =>
    obtain ⟨w', hEnds, hShows, hCalled⟩ := h.run hAt hHook spans
    rw [hSucceeds (by rw [hHook]; rfl)] at hEnds
    exact ⟨_, w', [], [], hEnds, hShows, hCalled, rfl, rfl, rfl⟩

end Isolated

/-! ## Cases -/

def Outcome.verdict (o : Outcome) : String × Kind × Option String := (o.test, o.kind, o.cause)

def Outcome.lineOf (verdict : String × Kind × Option String) : Line :=
  line ⟨0, verdict.1, verdict.2.1, verdict.2.2⟩

theorem Outcome.line_eq_lineOf (o : Outcome) : o.line = lineOf o.verdict := rfl

namespace Isolated

variable {ι : Type} {cases : ι → Case} {ownHook : Phase → Option Hook} {ways : Place ι → Nat → Ended}
  {At : (Place ι → Nat) → World → Prop} {calls calls' : Place ι → Nat} {w : World} {i : ι}
  (spans : List Span)

/-- The course of a case whose hooks were called that often before. -/
def course (cases : ι → Case) (ways : Place ι → Nat → Ended) (calls : Place ι → Nat) (i : ι) : Case.Course :=
  let answer (role : Role) := ways (.test i role) (calls (.test i role))
  let setup := (cases i).before.map fun _ => answer .setup
  { setup
    body := if Ended.failureOf setup = none then some (answer .body) else none
    teardown := (cases i).after.map fun _ => answer .teardown }

def outcome (cases : ι → Case) (ways : Place ι → Nat → Ended) (calls : Place ι → Nat) (i : ι) : Outcome :=
  let found := (course cases ways calls i).finding
  .make 0 (cases i).name found.kind found.cause

/-- Only the calls of the hooks of the case itself count. -/
theorem outcome_congr (h : ∀ role, calls' (.test i role) = calls (.test i role)) :
    outcome cases ways calls' i = outcome cases ways calls i := by
  simp only [outcome, course, h]

variable [DecidableEq ι]

theorem examine (h : Isolated (Place.hook cases ownHook) ways At) (hAt : At calls w) (i : ι) :
    Arrives At {.test i .setup, .test i .body} calls ((cases i).examine.under spans) w
      fun found reports events => found = Case.Course.examined (course cases ways calls i).setup
        (course cases ways calls i).body ∧ reports = [] ∧ events = [] := by
  have hSetup : Arrives At {.test i .setup} calls ((Hook.invokeOption (cases i).before).under spans) w
      fun r reports events => r = Ended.resultOf (course cases ways calls i).setup ∧
        reports = [] ∧ events = [] := h.invokeOption spans hAt (.test i .setup)
  rw [Case.examine_eq, Program.under_bind]
  refine hSetup.bind {.test i .body} ?_
  rintro r w₁ _ _ calls₁ - ⟨rfl, rfl, rfl⟩ hAt₁ hKept
  cases hFailure : Ended.failureOf (course cases ways calls i).setup with
  | some f =>
    rw [Ended.failureOf_eq_some_iff.mp hFailure]
    simp only [Program.under_notice, Program.under_pure]
    refine .notice (.pure (h.record _ _ _ hAt₁) ⟨?_, rfl, rfl⟩)
    rw [Case.Course.examined, hFailure]
  | none =>
    have hBody : (course cases ways calls i).body = some (ways (.test i .body) (calls₁ (.test i .body))) := by
      rw [hKept (.test i .body) (by simp)]
      exact if_pos hFailure
    rw [Ended.failureOf_eq_none_iff.mp hFailure, Program.under_bind]
    have hInvoked := h.invoke spans (k := .test i .body) hAt₁ rfl
    refine (hInvoked.bind ∅ ?_).mono (by simp)
    rintro r w₂ _ _ calls₂ - ⟨rfl, rfl, rfl⟩ hAt₂ -
    rw [Program.under_pure]
    refine .pure hAt₂ ⟨?_, rfl, rfl⟩
    rw [Case.Course.examined, hFailure, hBody]
    rfl

theorem tearDown (h : Isolated (Place.hook cases ownHook) ways At) (hAt : At calls w) (i : ι)
    (found : Finding) :
    Arrives At {.test i .teardown} calls (((cases i).tearDown found).under spans) w
      fun found' reports events => found' = Case.Course.closed found (course cases ways calls i).teardown ∧
        reports = [] ∧ events = [] := by
  have hTeardown : Arrives At {.test i .teardown} calls ((Hook.invokeOption (cases i).after).under spans) w
      fun r reports events => r = Ended.resultOf (course cases ways calls i).teardown ∧
        reports = [] ∧ events = [] := h.invokeOption spans hAt (.test i .teardown)
  rw [Case.tearDown_eq, Program.under_bind]
  refine (hTeardown.bind ∅ ?_).mono (by simp)
  rintro r w₁ _ _ calls₁ - ⟨rfl, rfl, rfl⟩ hAt₁ -
  cases hFailure : Ended.failureOf (course cases ways calls i).teardown with
  | some f =>
    rw [Ended.failureOf_eq_some_iff.mp hFailure]
    simp only [Program.under_notice, Program.under_pure]
    refine .notice (.pure (h.record _ _ _ hAt₁) ⟨?_, rfl, rfl⟩)
    rw [Case.Course.closed, hFailure]
    rfl
  | none =>
    rw [Ended.failureOf_eq_none_iff.mp hFailure, Program.under_pure]
    refine .pure hAt₁ ⟨?_, rfl, rfl⟩
    rw [Case.Course.closed, hFailure]
    rfl

theorem conclude (h : Isolated (Place.hook cases ownHook) ways At) (hAt : At calls w) (c : Case)
    (found : Finding) :
    Arrives At ∅ calls ((c.conclude found).under spans) w fun o reports events =>
      o.verdict = (Outcome.make 0 c.name found.kind found.cause).verdict ∧
        reports = [.outcome o] ∧ events = [] := by
  rw [Case.conclude_eq]
  simp only [Program.under_act, Program.under_notice, Program.under_report, Program.under_pure]
  refine .number (.notice (.report (.pure ?_ ⟨rfl, rfl, rfl⟩)))
  exact h.record _ _ _ (h.record _ _ _ (h.record _ _ _ hAt))

theorem caseRun (h : Isolated (Place.hook cases ownHook) ways At) (hAt : At calls w) (i : ι) :
    Arrives At (Set.range (Place.test i)) calls ((cases i).run.under spans) w fun o reports events =>
      o.verdict = (outcome cases ways calls i).verdict ∧ reports = [.outcome o] ∧ events = [] := by
  rw [Case.run_eq, Program.under_within, Program.under_bind, Program.under_bind, Program.bind_assoc]
  refine ((h.examine _ hAt i).bind {.test i .teardown} ?_).mono ?_
  · rintro found w₁ _ _ calls₁ - ⟨rfl, rfl, rfl⟩ hAt₁ hKept
    refine ((h.tearDown _ hAt₁ i _).bind ∅ ?_).mono (by simp)
    rintro found w₂ _ _ calls₂ - ⟨rfl, rfl, rfl⟩ hAt₂ -
    have hTeardown : (course cases ways calls₁ i).teardown = (course cases ways calls i).teardown := by
      simp only [course, hKept (.test i .teardown) (by simp)]
    rw [hTeardown]
    exact h.conclude _ hAt₂ (cases i) _
  · rintro k ((rfl | rfl) | rfl) <;> exact ⟨_, rfl⟩

end Isolated

end TestBench
