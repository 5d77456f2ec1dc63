import TestBench.Session
import TestBench.Proofs.SelfTest.Suite
import TestBench.Proofs.Set.Lines

/-! # The verdict of the self-check

A run of the suite in a fresh world has only its own ticker. So its last test passes if the timeout is longer
than the delay of the ticker, and is an error otherwise; at the same time the one who waits comes first. The
command says so in its exit code and by the line of the summary (`check_verdict`).
-/

namespace TestBench.SelfTest

open World

def sentence (passed : Bool) : String :=
  if passed then "5 tests executed: All passed." else "5 tests executed: 4 passed and 1 with errors."

theorem tally_of_verdicts {s : Summary} {passed : Bool} (h : s.results.map Outcome.verdict = verdicts passed)
    (hSummary : s = .ofOutcomes s.results) : s.tally = .ofKinds ((verdicts passed).map (·.2.1)) := by
  have hKinds : s.results.map (·.kind) = (verdicts passed).map (·.2.1) := by
    rw [← h, List.map_map]
    rfl
  rw [← hKinds]
  exact congrArg Summary.tally hSummary

theorem line_of_verdicts {s : Summary} {passed : Bool} (h : s.results.map Outcome.verdict = verdicts passed)
    (hSummary : s = .ofOutcomes s.results) : s.line = ⟨.log, sentence passed⟩ := by
  rw [Summary.line, tally_of_verdicts h hSummary]
  cases passed <;> exact congrArg (Line.mk .log) (by decide)

theorem isSuccess_of_verdicts {s : Summary} {passed : Bool} (h : s.results.map Outcome.verdict = verdicts passed)
    (hSummary : s = .ofOutcomes s.results) : s.isSuccess = passed := by
  rw [Summary.isSuccess, tally_of_verdicts h hSummary]
  cases passed <;> decide

/-! ## Fresh worlds -/

theorem bench_fresh : Bench {} [] where
  tasks := rfl
  alert := ⟨List.nodup_nil, fun _ => nofun, fun _ => nofun⟩
  yielding := rfl
  opened := fun _ => nofun
  punctual := fun _ => nofun
  noted := fun _ => nofun
  backed := World.backed_init

theorem Started.ticked_iff_of_fresh {timeout : Option Nat} {w' : World} {chores' : List (Nat × Chore)}
    (h : Started timeout (view {} []) w' chores') : Ticked w' ↔ ringsWithin timeout := by
  refine ⟨fun hTicked => Decidable.byContradiction fun hNot => ?_, h.ticked⟩
  have hOnly : ∀ due ∈ (view {} []).started.pending, due = tickDelay := by
    rintro due (hDue | ⟨slot, t, hMem, -⟩)
    · exact hDue.trans (Nat.zero_add _)
    · cases hMem
  have hNow : w'.now = waitFor timeout := h.now.trans (Nat.zero_add _)
  -- only the ticker of this run can have left a tick, and the wait was over before it rang
  cases timeout with
  | none => exact hNot rfl
  | some ms =>
    have hShort : ms ≤ tickDelay := Nat.le_of_not_lt fun hLong => hNot (decide_eq_true hLong)
    have hWait : waitFor (some ms) = ms := Nat.min_eq_left hShort
    by_cases hZero : ms = 0
    · obtain hTicked | ⟨due, hPending, hDue⟩ := h.rings.rung hTicked
      · cases hTicked
      · have hDue : due ≤ w'.now := hDue
        rw [hOnly due hPending, hNow, hWait, hZero] at hDue
        exact absurd hDue (by decide)
    · obtain hTicked | ⟨due, hPending, hDue⟩ := h.early hNot (fun hEq => hZero (Option.some.inj hEq)) hTicked
      · cases hTicked
      · rw [hOnly due hPending, hNow, hWait] at hDue
        omega

/-- What a run of the suite in a fresh world comes to. -/
structure Fresh (timeout : Option Nat) (s : Summary) (w' : World) : Prop where
  verdicts : s.results.map Outcome.verdict = verdicts (ringsWithin timeout)
  summary : s = .ofOutcomes s.results
  now : w'.now = waitFor timeout

theorem ends_suite_of_fresh (timeout : Option Nat) (print : Bool) (sink : Sink) :
    ∃ s w', Ends none ((suite timeout).run print sink) {} (.finished (.ok s)) w' ∧ Fresh timeout s w' := by
  obtain ⟨s, w₁, w', chores', hEnds, hStarted, -, hView, hVerdicts, hSummary⟩ :=
    bench_fresh.ends_suite timeout print sink
  have hNow : w'.now = w₁.now := congrArg View.now hView
  have hTicked : decide (Ticked w₁) = ringsWithin timeout := by
    rw [Bool.eq_iff_iff, decide_eq_true_iff]
    exact hStarted.ticked_iff_of_fresh
  exact ⟨s, w', hEnds, hTicked ▸ hVerdicts, hSummary, hNow.trans (hStarted.now.trans (Nat.zero_add _))⟩

theorem halts_suite_of_fresh (timeout : Option Nat) (print : Bool) (sink : Sink) :
    Halts turns ((suite timeout).run print sink) {} :=
  (bench_fresh.halts_suite timeout print sink).mono (by decide)

/-! ## The command -/

/-- What the command makes of a run: without printing it still hands over the line of the summary. -/
def report (noColor : Option String) (config : Config) : Except Abort Summary → Async (Except Complaint Unit)
  | .error a => .pure (.error { message := a.message })
  | .ok s => (TestSet.emit (!config.print) (.ofConfig noColor config) s.line).bind fun _ =>
      .pure (if s.isSuccess then .ok () else .error { message := "" })

theorem check_eq (noColor : Option String) (config : Config) : check noColor config =
    ((suite config.timeout).run config.print (.ofConfig noColor config)).bind (report noColor config) := by
  refine congrArg (Program.bind _) (funext fun r => ?_)
  rcases r with a | s
  · rfl
  · cases hPrint : config.print <;> cases hSuccess : s.isSuccess <;>
      simp [report, TestSet.emit, hPrint, hSuccess] <;> rfl

def written (noColor : Option String) (config : Config) (lines : List Line) : List Report :=
  lines.map fun line => .written line.channel (line.consoleText (config.color.enabled noColor))

theorem flatMap_reports (noColor : Option String) (config : Config) (lines : List Line) :
    lines.flatMap ((Sink.ofConfig noColor config).reports true) = written noColor config lines := by
  induction lines with
  | nil => rfl
  | cons line lines ih => exact congrArg (List.cons _) ih

theorem ends_check_of_fresh (noColor : Option String) (config : Config) :
    ∃ s w', Ends none (check noColor config) {}
        (.finished (if ringsWithin config.timeout then .ok () else .error { message := "", exitCode := 1 })) w' ∧
      Fresh config.timeout s w' ∧
      w'.lines = written noColor config ((if config.print then s.results.map Outcome.line else []) ++ [s.line]) := by
  let sink := Sink.ofConfig noColor config
  obtain ⟨s, w₁, hRun, hFresh⟩ := ends_suite_of_fresh config.timeout config.print sink
  have hLines := TestSet.lines_of_ends_run hRun
  have hSuccess := isSuccess_of_verdicts hFresh.verdicts hFresh.summary
  obtain ⟨w', hEmit, hRecorded⟩ := TestSet.ends_emit (!config.print) sink [] s.line w₁
  have hLast := TestSet.lines_of_ends_emit hEmit
  refine ⟨s, w', ?_, { hFresh with now := ?_ }, ?_⟩
  · rw [check_eq, ends_bind_finished_iff]
    refine ⟨_, w₁, hRun, ends_bind_finished_iff.mpr ⟨(), w', hEmit, ends_pure_iff.mpr ⟨?_, rfl⟩⟩⟩
    rw [hSuccess]
  · obtain ⟨_, _, _, rfl⟩ := hRecorded
    exact hFresh.now
  · rw [hLast, hLines, ← flatMap_reports]
    cases config.print <;> simp [World.lines, sink]

theorem halts_check_of_fresh (noColor : Option String) (config : Config) :
    Halts turns (check noColor config) {} := by
  rw [check_eq]
  refine (halts_suite_of_fresh config.timeout config.print _).bind (m := 0) fun r w₁ _ => ?_
  cases r with
  | error a => exact .pure _
  | ok s =>
    have hReport : (report noColor config (.ok s)).Prompt (· = .newOutcome) :=
      (TestSet.prompt_emit s.line).bind fun _ => trivial
    exact hReport.halts 0 w₁

/-- The self-check in a fresh world, for every timeout, with and without printing and in every colour. A run of
the suite returns five outcomes. The first four pass; the fifth passes if the timeout is longer than the five
milliseconds of the ticker, or there is none, and otherwise it is an error. The run is over when the ticker has
rung or the timeout has passed, whichever is first. The command succeeds if the fifth test passed and else exits
with code 1 and no further message. The line of the summary is the last that it writes, and the only one unless
the outcomes are printed. -/
theorem check_verdict (noColor : Option String) (config : Config) (sink : Sink) (more : Nat) :
    let session : Session := { turns := turns + more }
    let passed := ringsWithin config.timeout
    (∃ s : Summary,
      let r := session.runSet (suite config.timeout) ((suite config.timeout).run config.print sink)
      r.ending = .finished (.ok s) ∧ s.results.map Outcome.verdict = verdicts passed ∧
        r.session.world.now = waitFor config.timeout) ∧
    ∃ s : Summary, s.results.map Outcome.verdict = verdicts passed ∧ s.line = ⟨.log, sentence passed⟩ ∧
      let (ending, reports, after) := session.run (check noColor config)
      ending = .finished (if passed then .ok () else .error { message := "", exitCode := 1 }) ∧
        reports.filter (·.isLine) = written noColor config
          ((if config.print then s.results.map Outcome.line else []) ++ [s.line]) ∧
        after.world.now = waitFor config.timeout := by
  intro session passed
  obtain ⟨s, w₁, hRun, hFresh⟩ := ends_suite_of_fresh config.timeout config.print sink
  obtain ⟨s', w₂, hCheck, hFresh', hLines⟩ := ends_check_of_fresh noColor config
  have hRun := (halts_suite_of_fresh config.timeout config.print sink).run_eq hRun (Nat.le_add_right turns more)
  have hCheck := (halts_check_of_fresh noColor config).run_eq hCheck (Nat.le_add_right turns more)
  have hLine := line_of_verdicts hFresh'.verdicts hFresh'.summary
  refine ⟨⟨s, ?_⟩, s', hFresh'.verdicts, hLine, ?_⟩
  · simp only [Session.runSet, Session.run, session, hRun, true_and]
    exact ⟨hFresh.verdicts, hFresh.now⟩
  · simp only [Session.run, session, hCheck]
    exact ⟨rfl, hLines, hFresh'.now⟩

end TestBench.SelfTest
