import TestBench.Proofs.SelfTest.Ticker
import TestBench.Proofs.Set.Steps

/-! # Runs of the suite

On a bench a run of the suite comes to its end. The first four tests always pass, and the fifth passes if its
set-up finds a tick on the board; its teardown removes the tick (`Bench.ends_suite`).
-/

namespace TestBench

open World

/-! ## Cases in a set -/

theorem Case.ends_of_chain {c : Case} {spans : List Span} {k : Course} {w w' : World} (hOf : k.Of c)
    (hChain : Chain (c.Does none (spans ++ [.case c.name])) k.invocations w w') :
    ∃ o w'', Ends none (c.run.under spans) w (.finished o) w'' ∧ w'.Recorded w'' ∧
      o.verdict = (c.name, k.finding.kind, Outcome.causeFor k.finding.kind k.finding.cause) := by
  exact ⟨_, _, ends_run_of_invocations hOf hChain, ⟨_, _, _, rfl⟩, rfl⟩

theorem Case.ends_of_body {c : Case} {spans : List Span} {w w' : World} (hBefore : c.before = none)
    (hAfter : c.after = none)
    (hBody : Ends none (c.body.run.under (spans ++ [.case c.name])) w (.finished (.ok ())) w') :
    ∃ o w'', Ends none (c.run.under spans) w (.finished o) w'' ∧ w'.Recorded w'' ∧
      o.verdict = (c.name, .pass, none) := by
  have hOf : Course.Of ⟨none, some (.ok (.ok ())), none⟩ c := ⟨by rw [hBefore]; rfl, rfl, by rw [hAfter]; rfl⟩
  exact ends_of_chain (k := ⟨none, some (.ok (.ok ())), none⟩) hOf ⟨w', hBody, rfl⟩

/-- A case that passes whatever its world, and that nobody else notices. -/
def Case.Plain (c : Case) : Prop :=
  ∀ spans w, ∃ o w', Ends none (c.run.under spans) w (.finished o) w' ∧ w.Recorded w' ∧
    o.verdict = (c.name, .pass, none)

namespace TestSet

variable (print : Bool) (sink : Sink) {spans : List Span} {w w₁ w' : World}

theorem ends_emit (spans : List Span) (line : Line) (w : World) :
    ∃ w', Ends none ((emit print sink line).under spans) w (.finished ()) w' ∧ w.Recorded w' := by
  cases print with
  | false => exact ⟨w, by rw [emit, if_neg Bool.false_ne_true, Program.under_pure]; exact ⟨rfl, rfl⟩, .refl w⟩
  | true =>
    rw [emit, if_pos rfl]
    rcases sink with _ | color | _
    · change ∃ w', Ends none ((Program.report _ (.pure ())).under spans) w _ w' ∧ _
      rw [Program.under_report, Program.under_pure]
      exact ⟨_, ⟨rfl, rfl⟩, _, _, _, rfl⟩
    · change ∃ w', Ends none ((Program.report _ (.pure ())).under spans) w _ w' ∧ _
      rw [Program.under_report, Program.under_pure]
      exact ⟨_, ⟨rfl, rfl⟩, _, _, _, rfl⟩
    · change ∃ w', Ends none ((Program.notice _ (.pure ())).under spans) w _ w' ∧ _
      rw [Program.under_notice, Program.under_pure]
      exact ⟨_, ⟨rfl, rfl⟩, _, _, _, rfl⟩

theorem ends_runTests_cons {c : Case} (rest : List Case) {s : Summary} {o : Outcome}
    (hSeen : ∀ id ∈ s.seen, id < w.nextOutcome) (hRun : Ends none (c.run.under spans) w (.finished o) w₁) :
    ∃ w₂, w₁.Recorded w₂ ∧ (∀ id ∈ (s.extend [o]).seen, id < w₂.nextOutcome) ∧
      ∀ e w', Ends none ((runTests print sink rest (s.extend [o])).under spans) w₂ e w' →
        Ends none ((runTests print sink (c :: rest) s).under spans) w e w' := by
  obtain ⟨hEnter, hSeen₁⟩ := enter_of_ends_run hSeen hRun
  obtain ⟨w₂, hEmit, hRecorded⟩ := ends_emit print sink spans o.line w₁
  refine ⟨w₂, hRecorded, fun id hMem => ?_, fun e w' hRest => ?_⟩
  · exact Nat.lt_of_lt_of_le (hSeen₁ id hMem) hEmit.grows.nextOutcome
  · rw [runTests_cons, Program.under_bind, World.ends_bind_iff]
    refine .inl ⟨o, w₁, hRun, ?_⟩
    rw [hEnter, Program.under_bind, Program.under_pure]
    change Ends none (((emit print sink o.line).bind _).under _) w₁ e w'
    rw [Program.under_bind, World.ends_bind_iff]
    exact .inl ⟨(), w₂, hEmit, hRest⟩

theorem ends_runTests_plain (spans : List Span) {cases : List Case} (hPlain : ∀ c ∈ cases, c.Plain)
    (rest : List Case) {s : Summary} (hSeen : ∀ id ∈ s.seen, id < w.nextOutcome) :
    ∃ outcomes w₁, w.Recorded w₁ ∧ outcomes.map Outcome.verdict = cases.map (fun c => (c.name, .pass, none)) ∧
      (∀ id ∈ (s.extend outcomes).seen, id < w₁.nextOutcome) ∧
      ∀ e w', Ends none ((runTests print sink rest (s.extend outcomes)).under spans) w₁ e w' →
        Ends none ((runTests print sink (cases ++ rest) s).under spans) w e w' := by
  induction cases generalizing s w with
  | nil =>
    rw [List.nil_append]
    exact ⟨[], w, .refl w, rfl, by rwa [Summary.extend_nil], fun e w' hEnds => by rwa [Summary.extend_nil] at hEnds⟩
  | cons c cases ih =>
    obtain ⟨o, w₁, hRun, hRecorded, hVerdict⟩ := hPlain c List.mem_cons_self spans w
    obtain ⟨w₂, hRecorded₁, hSeen₂, hRest⟩ :=
      ends_runTests_cons print sink (cases ++ rest) hSeen hRun
    obtain ⟨outcomes, w₃, hRecorded₂, hOutcomes, hSeen₃, hRest₃⟩ :=
      ih (fun c hc => hPlain c (List.mem_cons_of_mem _ hc)) hSeen₂
    refine ⟨o :: outcomes, w₃, (hRecorded.trans hRecorded₁).trans hRecorded₂, ?_, ?_, fun e w' hEnds => ?_⟩
    · rw [List.map_cons, List.map_cons, hVerdict, hOutcomes]
    · rwa [Summary.extend_cons]
    · rw [Summary.extend_cons] at hEnds
      exact hRest e w' (hRest₃ e w' hEnds)

theorem ends_run_of_tests {set : TestSet} {s : Summary} (hBefore : set.before = none) (hAfter : set.after = none)
    (hTests : Ends none ((runTests print sink set.tests {}).under [.set set.tests.length]) w (.finished s) w₁) :
    ∃ w', Ends none (set.run print sink) w (.finished (.ok s)) w' ∧ w₁.Recorded w' := by
  obtain ⟨w₂, hEmit, hRecorded⟩ := ends_emit print sink [.set set.tests.length] s.line w₁
  let w' : World :=
    { w₂ with
      events := w₂.events ++ [⟨[.set set.tests.length] ++ [], .setFinished s.tally⟩]
      reports := w₂.reports ++ [.summary s] }
  refine ⟨w', ?_, hRecorded.trans ⟨_, _, _, rfl⟩⟩
  rw [run_eq, hBefore]
  change Ends none (((runTests print sink set.tests {}).bind (set.finish print sink)).under _) w _ _
  rw [Program.under_bind, World.ends_bind_iff]
  refine .inl ⟨s, w₁, hTests, ?_⟩
  rw [finish, hAfter, Program.under_bind, World.ends_bind_iff]
  refine .inl ⟨(), w₂, hEmit, ?_⟩
  change Ends none ((Program.notice ⟨[], .setFinished s.tally⟩ (.report (.summary s)
    (.pure (.ok s))) : Async (Except Abort Summary)).under _) w₂ _ _
  rw [Program.under_notice, Program.under_report, Program.under_pure]
  exact ends_notice_iff.mpr (ends_report_iff.mpr (ends_pure_iff.mpr ⟨rfl, rfl⟩))

end TestSet

namespace SelfTest

variable {w : World} {chores : List (Nat × Chore)}

/-! ## The tests without a ticker -/

theorem render_pass (id : Nat) : (Outcome.make id "render" .pass none).render = "✓ [Pass] render" := by
  have hUpper : Text.uppercase 'p' = ['P'] := by decide
  have hLabel : Kind.pass.label = "Pass" := by
    simp [Kind.label, Kind.name, Text.capitalize, Text.capitalizeChars, hUpper]
  simp only [Outcome.make, Outcome.render, Outcome.causeFor, Kind.symbol, hLabel]
  decide

theorem run_assertsTruth : assertsTruth.run = .pure (.ok ()) := rfl

theorem run_reportsMismatch : reportsMismatch.run = .pure (.ok ()) := rfl

theorem run_rendersKind : rendersKind.run = .act .newOutcome fun _ => .pure (.ok ()) := by
  have hSame (id : Nat) : (Value.text (Outcome.make id "render" .pass none).render).checkEquals
      (.text "✓ [Pass] render") = .ok () := by
    rw [render_pass]
    rfl
  exact congrArg (Program.act .newOutcome) (funext fun id => congrArg Program.pure (hSame id))

theorem run_countsOnce : countsOnce.run =
    .act .newOutcome fun _ => .notice ⟨[], .alreadyCounted "dedup"⟩ (.pure (.ok ())) := by
  refine congrArg (Program.act .newOutcome) (funext fun id => ?_)
  let o := Outcome.make id "dedup" .pass none
  have hFirst : Summary.enter {} o = .pure (true, .extend {} [o]) := Summary.enter_eq_of_not_mem List.not_mem_nil
  have hSeen : id ∈ (Summary.extend {} [o]).seen := List.mem_singleton.mpr rfl
  have hSecond : (Summary.extend {} [o]).enter o =
      .notice ⟨[], .alreadyCounted "dedup"⟩ (.pure (false, .extend {} [o])) := by
    have hAdd : (Summary.extend {} [o]).add o = (false, .extend {} [o]) := if_pos hSeen
    rw [Summary.enter_eq, hAdd]
    rfl
  change Program.muted ((Summary.enter {} o).bind fun added => (added.2.enter o).bind fun added =>
    .pure ((Value.int added.2.tally.total).checkEquals (.int 1))) = _
  rw [hFirst]
  change Program.muted (((Summary.extend {} [o]).enter o).bind _) = _
  rw [hSecond]
  rfl

def verdicts (passed : Bool) : List (String × Kind × Option String) :=
  [("assert accepts truthy values", .pass, none),
    ("assert_equals reports mismatches as assertion failures", .pass, none),
    ("outcomes render their kind label", .pass, none),
    ("summary counts an outcome once", .pass, none),
    ("until observes a timer-driven callback", if passed then .pass else .error,
      if passed then none else some "ticker did not fire before the timeout")]

def tickerCase (timeout : Option Nat) : Case :=
  { name := "until observes a timer-driven callback", body := tickerFired
    before := some (startTicker timeout), after := some clearTicker }

theorem run_tickerFired : tickerFired.run =
    .act (.look tickKey) fun note => .pure ((Value.bool note.isSome).check) := rfl

theorem run_clearTicker : clearTicker.run = .act (.remove tickKey) fun _ => .pure (.ok ()) := rfl

theorem look_remove (w : World) (key : String) : (w.remove key).look key = none := by
  refine List.lookup_eq_none_iff.mpr fun t ht => ?_
  have hne := (List.mem_filter.mp ht).2
  simp only [bne_iff_ne, ne_eq] at hne
  simpa using fun hEq : key = t.1 => hne hEq.symm

def View.cleared (v : View) : View := { v with ticked := False }

theorem Bench.recorded {w' : World} (h : Bench w chores) (hRecorded : w.Recorded w') :
    Bench w' chores ∧ view w' chores = view w chores := by
  obtain ⟨_, _, _, rfl⟩ := hRecorded
  exact ⟨h.idle rfl rfl (Nat.le_refl _) rfl rfl rfl (fun _ => id) fun _ => id, rfl⟩

theorem Bench.cleared (h : Bench w chores) :
    Bench (w.remove tickKey) chores ∧ view (w.remove tickKey) chores = (view w chores).cleared := by
  have hNone := look_remove w tickKey
  refine ⟨h.idle rfl rfl (Nat.le_refl _) rfl rfl rfl (fun note hNote => ?_) fun _ => id, ?_⟩
  · rw [hNone] at hNote
    cases hNote
  · have hTicked : Ticked (w.remove tickKey) = False := by simp [Ticked, hNone]
    exact congrArg (View.mk w.now _) hTicked

theorem Bench.ends_tickerCase (h : Bench w chores) (timeout : Option Nat) (spans : List Span) :
    ∃ o w₁ w' chores', Ends none ((tickerCase timeout).run.under spans) w (.finished o) w' ∧
      Started timeout (view w chores) w₁ chores' ∧ Bench w' chores' ∧
      view w' chores' = (view w₁ chores').cleared ∧
      o.verdict = ("until observes a timer-driven callback", if Ticked w₁ then .pass else .error,
        if Ticked w₁ then none else some "ticker did not fire before the timeout") := by
  let inner := spans ++ [Span.case (tickerCase timeout).name]
  obtain ⟨w₁, chores', hStarted, hSetup, -⟩ := h.ends_startTicker timeout inner
  have hTeardown (w : World) : Ends none (clearTicker.run.under inner) w (.finished (.ok ()))
      (w.remove tickKey) := by
    rw [run_clearTicker, Program.under_act, ends_act_iff, Program.under_pure]
    exact ends_pure_iff.mpr ⟨rfl, rfl⟩
  by_cases hTicked : Ticked w₁
  · rw [if_pos hTicked] at hSetup
    have hBody : Ends none (tickerFired.run.under inner) w₁ (.finished (.ok ())) w₁ := by
      have hLook : (w₁.look tickKey).isSome = true := hTicked
      rw [run_tickerFired, Program.under_act, ends_act_iff, Program.under_pure]
      refine ends_pure_iff.mpr ⟨?_, rfl⟩
      change Ending.finished (.ok ()) = .finished ((Value.bool (w₁.look tickKey).isSome).check)
      rw [hLook]
      rfl
    obtain ⟨hBench, hView⟩ := hStarted.bench.cleared
    obtain ⟨o, w', hEnds, hRecorded, hVerdict⟩ := Case.ends_of_chain
      (k := ⟨some (.ok (.ok ())), some (.ok (.ok ())), some (.ok (.ok ()))⟩) (c := tickerCase timeout)
      ⟨rfl, rfl, rfl⟩ ⟨w₁, ⟨_, rfl, hSetup⟩, w₁, hBody, _, ⟨_, rfl, hTeardown w₁⟩, rfl⟩
    obtain ⟨hBench', hView'⟩ := hBench.recorded hRecorded
    refine ⟨o, w₁, w', chores', hEnds, hStarted, hBench', hView'.trans hView, ?_⟩
    rw [hVerdict, if_pos hTicked, if_pos hTicked]
    rfl
  · rw [if_neg hTicked] at hSetup
    let noted : World := { w₁ with events := w₁.events ++ [⟨inner, .setupFailed notFired⟩] }
    have hNoted : Bench noted chores' :=
      hStarted.bench.idle rfl rfl (Nat.le_refl _) rfl rfl rfl (fun _ => id) fun _ => id
    obtain ⟨hBench, hView⟩ := hNoted.cleared
    obtain ⟨o, w', hEnds, hRecorded, hVerdict⟩ := Case.ends_of_chain
      (k := ⟨some (.ok (.error notFired)), none, some (.ok (.ok ()))⟩) (c := tickerCase timeout)
      ⟨rfl, rfl, rfl⟩ ⟨w₁, ⟨_, rfl, hSetup⟩, noted, rfl, _, ⟨_, rfl, hTeardown noted⟩, rfl⟩
    obtain ⟨hBench', hView'⟩ := hBench.recorded hRecorded
    refine ⟨o, w₁, w', chores', hEnds, hStarted, hBench', hView'.trans hView, ?_⟩
    rw [hVerdict, if_neg hTicked, if_neg hTicked]
    rfl

theorem Bench.halts_tickerCase (h : Bench w chores) (timeout : Option Nat) (spans : List Span) :
    Halts (2 * (patience w chores + 12)) ((tickerCase timeout).run.under spans) w := by
  obtain ⟨-, -, -, -, hHalts⟩ := h.ends_startTicker timeout (spans ++ [Span.case (tickerCase timeout).name])
  refine Case.halts_run rfl hHalts ⟨trivial, fun _ => trivial⟩ fun hook hAfter => ?_
  obtain rfl : clearTicker = hook := Option.some.inj hAfter
  exact ⟨trivial, fun _ => trivial⟩

/-! ## The whole run -/

def plainTests : List Case :=
  [{ name := "assert accepts truthy values", body := assertsTruth },
    { name := "assert_equals reports mismatches as assertion failures", body := reportsMismatch },
    { name := "outcomes render their kind label", body := rendersKind },
    { name := "summary counts an outcome once", body := countsOnce }]

theorem tests_suite (timeout : Option Nat) : (suite timeout).tests = plainTests ++ [tickerCase timeout] := rfl

theorem plain_of_mem_plainTests : ∀ c ∈ plainTests, c.Plain := by
  have hPure (spans : List Span) (w : World) :
      Ends none ((Program.pure (.ok ()) : Async Result).under spans) w (.finished (.ok ())) w := by
    rw [Program.under_pure]
    exact ends_pure_iff.mpr ⟨rfl, rfl⟩
  have hPlain (name : String) (body : Hook) (hBody : ∀ spans w,
      ∃ w', Ends none (body.run.under spans) w (.finished (.ok ())) w' ∧ w.Recorded w') :
      Case.Plain { name, body } := by
    intro spans w
    obtain ⟨w₁, hBody, hRecorded⟩ := hBody (spans ++ [.case name]) w
    obtain ⟨o, w', hEnds, hRecorded', hVerdict⟩ := Case.ends_of_body (c := { name, body }) rfl rfl hBody
    exact ⟨o, w', hEnds, hRecorded.trans hRecorded', hVerdict⟩
  simp only [plainTests, List.forall_mem_cons, List.not_mem_nil, false_implies, implies_true, and_true]
  refine ⟨hPlain _ _ fun spans w => ⟨w, ?_, .refl w⟩, hPlain _ _ fun spans w => ⟨w, ?_, .refl w⟩,
    hPlain _ _ fun spans w => ⟨{ w with nextOutcome := w.nextOutcome + 1 }, ?_, _, _, _, rfl⟩,
    hPlain _ _ fun spans w => ⟨{ w with
      nextOutcome := w.nextOutcome + 1, events := w.events ++ [⟨spans ++ [], .alreadyCounted "dedup"⟩] },
      ?_, _, _, _, rfl⟩⟩
  · rw [run_assertsTruth]
    exact hPure spans w
  · rw [run_reportsMismatch]
    exact hPure spans w
  · rw [run_rendersKind, Program.under_act, ends_act_iff]
    exact hPure spans _
  · rw [run_countsOnce, Program.under_act, ends_act_iff, Program.under_notice, ends_notice_iff]
    exact hPure spans _

theorem prompt_of_mem_plainTests : ∀ c ∈ plainTests, c.run.Prompt (· = .newOutcome) := by
  have hPrompt (name : String) (body : Hook) (hBody : body.run.Prompt (· = .newOutcome)) :
      (Case.run { name, body }).Prompt (· = .newOutcome) :=
    Case.prompt_run rfl (fun _ => nofun) hBody fun _ => nofun
  simp only [plainTests, List.forall_mem_cons, List.not_mem_nil, false_implies, implies_true, and_true]
  refine ⟨hPrompt _ _ trivial, hPrompt _ _ trivial, hPrompt _ _ ?_, hPrompt _ _ ?_⟩
  · rw [run_rendersKind]
    exact ⟨rfl, fun _ => trivial⟩
  · rw [run_countsOnce]
    exact ⟨rfl, fun _ => trivial⟩

/-- On a bench a run of the suite takes as many steps as it has to wait for the ticker. -/
theorem Bench.halts_suite (h : Bench w chores) (timeout : Option Nat) (print : Bool) (sink : Sink) :
    Halts (2 * (patience w chores + 12)) ((suite timeout).run print sink) w := by
  have hDone (spans : List Span) (s : Summary) (w : World) :
      Halts 0 ((TestSet.runTests print sink [] s).under spans) w := by
    change Halts 0 ((Program.pure s).under spans) w
    rw [Program.under_pure]
    exact .pure s
  have hTicker (spans : List Span) (w₁ : World) (s : Summary) (hRecorded : w.Recorded w₁) :
      Halts (2 * (patience w chores + 12)) ((TestSet.runTests print sink [tickerCase timeout] s).under spans) w₁ := by
    obtain ⟨hBench, -⟩ := h.recorded hRecorded
    obtain ⟨_, _, _, rfl⟩ := hRecorded
    exact TestSet.halts_runTests_cons (m := 0) (hBench.halts_tickerCase timeout spans) fun _ _ w₂ s _ _ =>
      hDone spans s w₂
  have hTests (spans : List Span) :
      Halts (2 * (patience w chores + 12)) ((TestSet.runTests print sink (suite timeout).tests {}).under spans) w := by
    rw [tests_suite]
    exact TestSet.halts_runTests_append prompt_of_mem_plainTests (hTicker spans)
  exact TestSet.halts_run rfl rfl (hTests _)

/-- On a bench a run of the suite returns a summary. Its last test passes if there is a tick on the board when
its set-up looks, and then the board is cleared. -/
theorem Bench.ends_suite (h : Bench w chores) (timeout : Option Nat) (print : Bool) (sink : Sink) :
    ∃ s w₁ w' chores', Ends none ((suite timeout).run print sink) w (.finished (.ok s)) w' ∧
      Started timeout (view w chores) w₁ chores' ∧ Bench w' chores' ∧
      view w' chores' = (view w₁ chores').cleared ∧
      s.results.map Outcome.verdict = verdicts (Ticked w₁) ∧ s = .ofOutcomes s.results := by
  let spans := [Span.set (suite timeout).tests.length]
  obtain ⟨outcomes, w₂, hRecorded, hOutcomes, hSeen, hPlain⟩ := TestSet.ends_runTests_plain print sink spans
    plain_of_mem_plainTests [tickerCase timeout] (s := {}) (w := w) nofun
  obtain ⟨hBench, hView⟩ := h.recorded hRecorded
  obtain ⟨o, w₁, w₃, chores', hCase, hStarted, hBench', hView', hVerdict⟩ := hBench.ends_tickerCase timeout spans
  obtain ⟨w₄, hRecorded₄, -, hLast⟩ := TestSet.ends_runTests_cons print sink [] hSeen hCase
  let s : Summary := ((Summary.extend {} outcomes).extend [o])
  have hSummary : s = .ofOutcomes (outcomes ++ [o]) := by
    simp [s, Summary.extend, Summary.ofOutcomes, Tally.ofKinds]
  have hTests : Ends none ((TestSet.runTests print sink (suite timeout).tests {}).under spans) w (.finished s) w₄ := by
    refine hPlain _ _ (hLast _ _ ?_)
    change Ends none ((Program.pure s).under spans) w₄ _ _
    rw [Program.under_pure]
    exact ends_pure_iff.mpr ⟨rfl, rfl⟩
  obtain ⟨w', hEnds, hRecorded'⟩ := TestSet.ends_run_of_tests print sink rfl rfl hTests
  obtain ⟨hBench₄, hView₄⟩ := hBench'.recorded (hRecorded₄.trans hRecorded')
  refine ⟨s, w₁, w', chores', hEnds, hView ▸ hStarted, hBench₄, hView₄.trans hView', ?_, ?_⟩
  · rw [hSummary]
    change (outcomes ++ [o]).map Outcome.verdict = _
    rw [List.map_append, hOutcomes, List.map_singleton, hVerdict]
    by_cases hTicked : Ticked w₁ <;> simp [hTicked, plainTests, verdicts]
  · rw [hSummary]
    rfl

end SelfTest

end TestBench
