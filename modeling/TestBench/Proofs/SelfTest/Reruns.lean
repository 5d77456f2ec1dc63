import TestBench.Proofs.SelfTest.Verdict
import TestBench.Proofs.Set.Memory

/-! # Reruns of the suite

The ticker of a run goes on if the timeout passes before it rings. Its tick is left on the board after the
teardown of that run has cleared it, and a later run takes it for its own. So a run passes if its own ticker
rings in time, or if the ticker of an earlier run rings between the end of the run before it and its own end
(`suite_reruns`).
-/

namespace TestBench

open World

/-! ## Sets that were run before -/

namespace TestSet

variable (print : Bool) (sink : Sink)

theorem runTests_recordOutcomes (cases : List Case) (outcomes : List Outcome) (s : Summary) :
    runTests print sink (recordOutcomes cases outcomes) s = runTests print sink cases s := by
  induction cases generalizing outcomes s with
  | nil => cases outcomes <;> rfl
  | cons c cases ih =>
    cases outcomes with
    | nil => rfl
    | cons o outcomes =>
      rw [recordOutcomes, runTests_cons, runTests_cons]
      simp only [ih]
      rfl

theorem run_afterRun (set : TestSet) (reports : List Report) :
    (set.afterRun reports).run print sink = set.run print sink := by
  rw [run_eq, run_eq]
  simp only [afterRun, runTests_recordOutcomes, length_recordOutcomes]
  rfl

end TestSet

namespace SelfTest

/-! ## Resting on a bench -/

section

variable {w : World} {chores : List (Nat × Chore)}

theorem Bench.ends_rest_of_budget (h : Bench w chores) (ms : Nat) (hBudget : w.budget ≠ 0) :
    ∃ w' chores', Ends none (Async.rest ms) w (.finished ()) w' ∧ Halts (patience w chores) (Async.rest ms) w ∧
      Bench w' chores' ∧ (view w chores).Rings (view w' chores') := by
  have hDone {w : World} (hBudget : w.budget ≠ 0) :
      w.turnMain none (Async.rest 0) = .ended (.finished ()) w.spend := by
    simp only [Async.rest, turnMain, Program.turn, hBudget, if_false, if_true]
  by_cases hms : ms = 0
  · subst hms
    refine ⟨w.spend, chores, ?_, ?_, h.idle rfl rfl (Nat.le_refl _) rfl rfl rfl (fun _ => id) fun _ => id, ?_⟩
    · unfold Ends
      rw [hDone hBudget]
      exact ⟨rfl, rfl⟩
    · unfold Halts
      rw [hDone hBudget]
      exact .ended
    · exact ⟨Nat.le_refl _, fun _ => id, fun _ => .inl, .inl, id⟩
  · let main : Waiting Unit := .sleeping (w.dueAfter ms) (.pure ())
    have hWait : w.turnMain none (Async.rest ms) = .waits main w := by
      simp only [Async.rest, turnMain, Program.turn, hBudget, hms, if_false]
      rfl
    have hLater : ¬ main.isDue w.now := not_isDue_iff.mpr fun due hDue => Option.some.inj hDue ▸ w.lt_dueAfter hms
    obtain ⟨w₂, chores₂, hReached⟩ := h.exists_reached main hLater (.inr (.inl rfl))
    have hDue : w.dueAfter ms ≤ w₂.now := of_decide_eq_true hReached.resumes
    have hTurn : w₂.beginTurn.turnMain none (main.resume w₂.now) = .ended (.finished ()) w₂.beginTurn.spend := by
      have hResume : main.resume w₂.now = Async.rest 0 :=
        congrArg Async.rest (Nat.sub_eq_zero_of_le hDue)
      rw [hResume]
      exact hDone (by decide : turnBudget ≠ 0)
    refine ⟨w₂.beginTurn.spend, chores₂, ?_, ?_,
      hReached.bench.idle rfl rfl (Nat.le_refl _) rfl rfl rfl (fun _ => id) fun _ => id, hReached.passes.rings⟩
    · unfold Ends
      rw [hWait]
      exact hReached.turn _ _ (hTurn ▸ ⟨rfl, rfl⟩)
    · unfold Halts
      rw [hWait]
      exact hReached.soon 0 (hTurn ▸ .ended)

theorem Bench.ends_rest (h : Bench w chores) (ms : Nat) :
    ∃ w' chores', Ends none (Async.rest ms) w (.finished ()) w' ∧
      Halts (2 * patience w chores) (Async.rest ms) w ∧ Bench w' chores' ∧
      (view w chores).Rings (view w' chores') := by
  by_cases hBudget : w.budget = 0
  · let main : Waiting Unit := .ready (Async.rest ms)
    have hYield : w.turnMain none (Async.rest ms) = .waits main w := by
      simp only [Async.rest, turnMain, Program.turn, hBudget, if_true]
      rfl
    obtain ⟨w₂, chores₂, hReached⟩ := h.exists_reached main Bool.false_ne_true (.inl rfl)
    have hBegun : Bench w₂.beginTurn chores₂ :=
      hReached.bench.idle rfl rfl (Nat.le_refl _) rfl rfl rfl (fun _ => id) fun _ => id
    obtain ⟨w', chores', hEnds, hHalts, hBench, hRings⟩ :=
      hBegun.ends_rest_of_budget ms (by decide : turnBudget ≠ 0)
    have hCalmer : patience w₂.beginTurn chores₂ ≤ patience w chores := hReached.calmer
    refine ⟨w', chores', ?_, ?_, hBench, hReached.passes.rings.trans hRings⟩
    · unfold Ends
      rw [hYield]
      exact hReached.turn _ _ hEnds
    · unfold Halts
      rw [hYield, Nat.two_mul]
      exact hReached.soon _ (hHalts.mono hCalmer)
  · obtain ⟨w', chores', hEnds, hHalts, hBench, hRings⟩ := h.ends_rest_of_budget ms hBudget
    exact ⟨w', chores', hEnds, hHalts.mono (by omega), hBench, hRings⟩

end

/-! ## Runs one after the other -/

/-- When one of several runs began and ended, and what it came to. -/
structure Rerun where
  began : Nat
  ended : Nat
  ending : Ending (Except Abort Summary)

def Rerun.due (x : Rerun) : Nat := x.began + tickDelay

def reruns (print : Bool) (sink : Sink) : List (Option Nat) → Session → TestSet → List Rerun
  | [], _, _ => []
  | wait :: waits, session, set =>
      let session := wait.elim session session.rest
      let r := session.runSet set (set.run print sink)
      ⟨session.world.now, r.session.world.now, r.ending⟩ :: reruns print sink waits r.session r.set

/-- What a run of the suite comes to after earlier ones, given whether its last test passes. It passes if its own
ticker rings in time, and also if the ticker of an earlier run rings after the end of the run before and before
its own end; there is no other reason. A run with a timeout of zero takes no time, and whether it finds the tick of
a ticker that is due at that very time is left open. -/
structure Rerun.Lawful (timeout : Option Nat) (earlier : List Rerun) (x : Rerun) (passed : Bool) : Prop where
  summary : ∃ s : Summary, x.ending = .finished (.ok s) ∧ s.results.map Outcome.verdict = verdicts passed
  ended : x.ended = x.began + waitFor timeout
  own : ringsWithin timeout → passed
  stale : ∀ y ∈ earlier, ∀ last ∈ earlier.getLast?, last.ended ≤ y.due → y.due < x.ended →
    (timeout = some 0 → last.ended < y.due) → passed
  reason : passed → ringsWithin timeout ∨ ∃ y ∈ earlier, ∃ last ∈ earlier.getLast?,
    last.ended ≤ y.due ∧ y.due ≤ x.ended ∧ (timeout ≠ some 0 → y.due < x.ended)

/-! ## What earlier runs leave -/

/-- What earlier runs, the last of which ended at some time, have left when a run begins. -/
structure Left (timeout : Option Nat) (earlier : List Rerun) (since : Nat) (v : View) : Prop where
  tickers : ∀ due ∈ v.pending, since ≤ due ∧ ∃ y ∈ earlier, y.due = due
  waiting : ∀ y ∈ earlier, v.now < y.due → y.due ∈ v.pending
  heard : ¬ ringsWithin timeout → ∀ y ∈ earlier, since ≤ y.due → (timeout = some 0 → since < y.due) →
    y.due ∈ v.pending ∨ v.ticked
  ticks : v.ticked → ∃ y ∈ earlier, since ≤ y.due ∧ y.due ≤ v.now

namespace Left

variable {timeout : Option Nat} {earlier : List Rerun} {since : Nat} {v v' : View}

theorem rings (h : Left timeout earlier since v) (hRings : v.Rings v') : Left timeout earlier since v' where
  tickers due hDue := h.tickers due (hRings.kept due hDue)
  waiting y hy hLt := by
    have hBefore := h.waiting y hy (Nat.lt_of_le_of_lt hRings.now hLt)
    exact (hRings.gone _ hBefore).resolve_right fun hGone => Nat.not_le.mpr hLt hGone.1
  heard hNot y hy hSince hZero := by
    obtain hPending | hTicked := h.heard hNot y hy hSince hZero
    · exact (hRings.gone _ hPending).imp id And.right
    · exact .inr (hRings.stays hTicked)
  ticks hTicked := by
    obtain hBefore | ⟨due, hPending, hDue⟩ := hRings.rung hTicked
    · obtain ⟨y, hy, hSince, hLe⟩ := h.ticks hBefore
      exact ⟨y, hy, hSince, Nat.le_trans hLe hRings.now⟩
    · obtain ⟨hSince, y, hy, rfl⟩ := h.tickers due hPending
      exact ⟨y, hy, hSince, hDue⟩

theorem fresh (timeout : Option Nat) : Left timeout [] 0 (view {} []) where
  tickers due hDue := by
    obtain ⟨slot, t, hMem, -⟩ := hDue
    cases hMem
  waiting _ := nofun
  heard _ _ := nofun
  ticks := nofun

variable {w w₁ : World} {chores chores₁ : List (Nat × Chore)}

theorem ticked_of_stale (h : Left timeout earlier since (view w chores))
    (hStarted : Started timeout (view w chores) w₁ chores₁) {y : Rerun} (hy : y ∈ earlier)
    (hSince : since ≤ y.due) (hDue : y.due < w₁.now) (hZero : timeout = some 0 → since < y.due) : Ticked w₁ := by
  by_cases hWithin : ringsWithin timeout
  · exact hStarted.ticked hWithin
  · obtain hPending | hTicked := h.heard hWithin y hy hSince hZero
    · obtain hStill | hGone := hStarted.rings.gone y.due (.inr hPending)
      · exact absurd hDue (Nat.not_lt.mpr (hStarted.bench.le_of_pending hStill))
      · exact hGone.2
    · exact hStarted.rings.stays hTicked

theorem stale_of_ticked (h : Left timeout earlier since (view w chores))
    (hStarted : Started timeout (view w chores) w₁ chores₁) (hTicked : Ticked w₁) :
    ringsWithin timeout ∨ ∃ y ∈ earlier, since ≤ y.due ∧ y.due ≤ w₁.now ∧
      (timeout ≠ some 0 → y.due < w₁.now) := by
  have hNow : w₁.now = w.now + waitFor timeout := hStarted.now
  have hShort := waitFor_le timeout
  by_cases hWithin : ringsWithin timeout
  · exact .inl hWithin
  · refine .inr ?_
    by_cases hZero : timeout = some 0
    · have hSame : w₁.now = w.now := by rw [hNow, hZero]; rfl
      obtain hBefore | ⟨due, hPending | hPending, hDue⟩ := hStarted.rings.rung hTicked
      · obtain ⟨y, hy, hSince, hLe⟩ := h.ticks hBefore
        exact ⟨y, hy, hSince, hSame ▸ hLe, absurd hZero⟩
      · have hOwn : w.now + tickDelay ≤ w₁.now := hPending ▸ hDue
        exact absurd (hSame ▸ hOwn) (Nat.not_le.mpr (Nat.lt_add_of_pos_right (by decide)))
      · obtain ⟨hSince, y, hy, rfl⟩ := h.tickers due hPending
        exact ⟨y, hy, hSince, hDue, absurd hZero⟩
    · have hLater : w.now < w₁.now := hNow ▸ Nat.lt_add_of_pos_right (waitFor_pos hZero)
      obtain hBefore | ⟨due, hPending | hPending, hDue⟩ := hStarted.early hWithin hZero hTicked
      · obtain ⟨y, hy, hSince, hLe⟩ := h.ticks hBefore
        have hLt : y.due < w₁.now := Nat.lt_of_le_of_lt hLe hLater
        exact ⟨y, hy, hSince, Nat.le_of_lt hLt, fun _ => hLt⟩
      · have hOwn : w.now + tickDelay < w₁.now := hPending ▸ hDue
        omega
      · obtain ⟨hSince, y, hy, rfl⟩ := h.tickers due hPending
        exact ⟨y, hy, hSince, Nat.le_of_lt hDue, fun _ => hDue⟩

theorem after (h : Left timeout earlier since (view w chores))
    (hStarted : Started timeout (view w chores) w₁ chores₁) {x : Rerun} (hBegan : x.began = w.now) :
    Left timeout (earlier ++ [x]) w₁.now (view w₁ chores₁).cleared := by
  have hOwn : x.due = w.now + tickDelay := congrArg (· + tickDelay) hBegan
  have hNow : w₁.now = w.now + waitFor timeout := hStarted.now
  -- whatever was due later than the begin of the run was pending then, the ticker of the run among it
  have hWaiting {y : Rerun} (hy : y ∈ earlier ++ [x]) (hLater : y ∈ earlier → w.now < y.due) :
      y.due ∈ (view w chores).started.pending := by
    rcases List.mem_append.mp hy with hy | hy
    · exact .inr (h.waiting y hy (hLater hy))
    · obtain rfl := List.mem_singleton.mp hy
      exact .inl hOwn
  have hStill : ∀ y ∈ earlier ++ [x], w₁.now < y.due → y.due ∈ (view w₁ chores₁).pending := by
    intro y hy hLt
    have hBefore := hWaiting hy fun _ => Nat.lt_of_le_of_lt hStarted.rings.now hLt
    exact (hStarted.rings.gone y.due hBefore).resolve_right fun hGone => Nat.not_le.mpr hLt hGone.1
  refine ⟨fun due hDue => ⟨hStarted.bench.le_of_pending hDue, ?_⟩, hStill,
    fun hNot y hy hSince hZero => .inl ?_, nofun⟩
  · rcases hStarted.rings.kept due hDue with hEq | hPending
    · exact ⟨x, List.mem_append_right _ (List.mem_singleton.mpr rfl), hOwn.trans hEq.symm⟩
    · obtain ⟨-, y, hy, rfl⟩ := h.tickers due hPending
      exact ⟨y, List.mem_append_left _ hy, rfl⟩
  · by_cases hTimeout : timeout = some 0
    · exact hStill y hy (hZero hTimeout)
    · have hPos := waitFor_pos hTimeout
      exact hStarted.left hNot hTimeout y.due (hWaiting hy fun _ => by omega) hSince

end Left

/-! ## The law of reruns -/

variable {timeout : Option Nat} {w : World} {chores : List (Nat × Chore)}

theorem Left.lawful {earlier : List Rerun} {since : Nat} {w₁ : World} {chores₁ : List (Nat × Chore)} {x : Rerun}
    {s : Summary} (h : Left timeout earlier since (view w chores))
    (hSince : ∀ last ∈ earlier.getLast?, last.ended = since)
    (hStarted : Started timeout (view w chores) w₁ chores₁) (hBegan : x.began = w.now) (hEnded : x.ended = w₁.now)
    (hEnding : x.ending = .finished (.ok s)) (hVerdicts : s.results.map Outcome.verdict = verdicts (Ticked w₁)) :
    x.Lawful timeout earlier (Ticked w₁) where
  summary := ⟨s, hEnding, hVerdicts⟩
  ended := by
    rw [hEnded, hBegan]
    exact hStarted.now
  own hOwn := decide_eq_true (hStarted.ticked hOwn)
  stale y hy last hLast hLe hLt hZero := by
    rw [hSince last hLast] at hLe hZero
    exact decide_eq_true (h.ticked_of_stale hStarted hy hLe (hEnded ▸ hLt) hZero)
  reason hPassed := by
    refine (h.stale_of_ticked hStarted (of_decide_eq_true hPassed)).imp id ?_
    rintro ⟨y, hy, hLe, hDue, hStrict⟩
    have hLast := List.getLast?_eq_some_getLast (List.ne_nil_of_mem hy)
    rw [← hSince _ hLast] at hLe
    exact ⟨y, hy, _, hLast, hLe, hEnded ▸ hDue, hEnded ▸ hStrict⟩

theorem Bench.exists_rested (h : Bench w chores) (wait : Option Nat) :
    ∃ w₀ chores₀ bound, Bench w₀ chores₀ ∧ (view w chores).Rings (view w₀ chores₀) ∧
      ∀ turns, bound ≤ turns →
        wait.elim { world := w, turns } (Session.rest { world := w, turns }) = { world := w₀, turns } := by
  cases wait with
  | none => exact ⟨w, chores, 0, h, ⟨Nat.le_refl _, fun _ => id, fun _ => .inl, .inl, id⟩, fun _ _ => rfl⟩
  | some ms =>
    obtain ⟨w₀, chores₀, hEnds, hHalts, hBench, hRings⟩ := h.ends_rest ms
    refine ⟨w₀, chores₀, 2 * patience w chores, hBench, hRings, fun turns enough => ?_⟩
    simp only [Option.elim_some, Session.rest, hHalts.run_eq hEnds enough]

theorem Bench.exists_rerun (h : Bench w chores) {earlier : List Rerun} {since : Nat}
    (hLeft : Left timeout earlier since (view w chores)) (hSince : ∀ last ∈ earlier.getLast?, last.ended = since)
    (print : Bool) (sink : Sink) {set : TestSet} (hSet : set.run print sink = (suite timeout).run print sink)
    (wait : Option Nat) :
    ∃ x w' chores' set' bound, Bench w' chores' ∧ Left timeout (earlier ++ [x]) x.ended (view w' chores') ∧
      set'.run print sink = (suite timeout).run print sink ∧ (∃ passed, x.Lawful timeout earlier passed) ∧
      ∀ turns waits, bound ≤ turns → reruns print sink (wait :: waits) { world := w, turns } set =
        x :: reruns print sink waits { world := w', turns } set' := by
  obtain ⟨w₀, chores₀, boundRest, hBench₀, hRings, hRest⟩ := h.exists_rested wait
  -- a run begins with no reports, and nothing else is changed for it
  let emptied : World := { w₀ with reports := [] }
  have hEmptied : Bench emptied chores₀ := hBench₀.idle rfl rfl (Nat.le_refl _) rfl rfl rfl (fun _ => id) fun _ => id
  have hLeft₀ : Left timeout earlier since (view emptied chores₀) := hLeft.rings hRings
  obtain ⟨s, w₁, w', chores', hEnds, hStarted, hBench', hView, hVerdicts, -⟩ :=
    hEmptied.ends_suite timeout print sink
  have hHalts := hEmptied.halts_suite timeout print sink
  have hEnded : w'.now = w₁.now := congrArg View.now hView
  let x : Rerun := ⟨w₀.now, w'.now, .finished (.ok s)⟩
  have hLawful := hLeft₀.lawful (x := x) hSince hStarted rfl hEnded rfl hVerdicts
  have hAfter := hLeft₀.after hStarted (x := x) rfl
  rw [← hView, ← hEnded] at hAfter
  refine ⟨x, w', chores', set.afterRun w'.reports, max boundRest (2 * (patience emptied chores₀ + 12)), hBench',
    hAfter, (set.run_afterRun print sink _).trans hSet, ⟨_, hLawful⟩, fun turns waits enough => ?_⟩
  have hRun := hHalts.run_eq hEnds (Nat.le_trans (Nat.le_max_right _ _) enough)
  have hRun : World.run turns none (set.run print sink) { w₀ with reports := [] } = (.finished (.ok s), w') :=
    hSet ▸ hRun
  rw [reruns, hRest turns (Nat.le_trans (Nat.le_max_left _ _) enough)]
  simp only [Session.runSet, Session.run, hRun, x]

theorem exists_reruns (timeout : Option Nat) (print : Bool) (sink : Sink) (waits : List (Option Nat))
    (h : Bench w chores) {earlier : List Rerun} {since : Nat} (hLeft : Left timeout earlier since (view w chores))
    (hSince : ∀ last ∈ earlier.getLast?, last.ended = since) {set : TestSet}
    (hSet : set.run print sink = (suite timeout).run print sink) :
    ∃ (runs : List Rerun) (bound : Nat), runs.length = waits.length ∧
      (∀ (k : Nat) (x : Rerun), runs[k]? = some x → ∃ passed, x.Lawful timeout (earlier ++ runs.take k) passed) ∧
      ∀ turns, bound ≤ turns → reruns print sink waits { world := w, turns } set = runs := by
  induction waits generalizing w chores earlier since set with
  | nil => exact ⟨[], 0, rfl, fun _ _ => nofun, fun _ _ => rfl⟩
  | cons wait waits ih =>
    obtain ⟨x, w', chores', set', bound, hBench', hLeft', hSet', hLawful, hFirst⟩ :=
      h.exists_rerun hLeft hSince print sink hSet wait
    have hSince' : ∀ last ∈ (earlier ++ [x]).getLast?, last.ended = x.ended := by
      intro last hLast
      rw [List.getLast?_concat] at hLast
      exact congrArg Rerun.ended (Option.some.inj hLast).symm
    obtain ⟨runs, bound', hLength, hRuns, hRest⟩ := ih hBench' hLeft' hSince' hSet'
    refine ⟨x :: runs, max bound bound', congrArg (· + 1) hLength, fun k y hy => ?_, fun turns enough => ?_⟩
    · cases k with
      | zero =>
        obtain rfl : x = y := Option.some.inj hy
        rwa [List.take_zero, List.append_nil]
      | succ k =>
        have hLawful := hRuns k y hy
        rwa [List.append_assoc, List.singleton_append] at hLawful
    · rw [hFirst turns waits (Nat.le_trans (Nat.le_max_left _ _) enough),
        hRest turns (Nat.le_trans (Nat.le_max_right _ _) enough)]

/-- Runs of the suite in one session, for every timeout and with or without waits before them: each returns a
summary after waiting for the ticker as long as the timeout allows, and its last test passes exactly as the law
says. So the tick of an earlier run is taken for the run's own. -/
theorem suite_reruns (timeout : Option Nat) (print : Bool) (sink : Sink) (waits : List (Option Nat)) :
    ∃ bound, ∀ turns, bound ≤ turns →
      let runs := reruns print sink waits { turns } (suite timeout)
      runs.length = waits.length ∧
        ∀ (k : Nat) (x : Rerun), runs[k]? = some x → ∃ passed, x.Lawful timeout (runs.take k) passed := by
  obtain ⟨runs, bound, hLength, hLawful, hRuns⟩ :=
    exists_reruns timeout print sink waits bench_fresh (.fresh timeout) (fun _ => nofun) rfl
  refine ⟨bound, fun turns enough => ?_⟩
  simp only [hRuns turns enough]
  exact ⟨hLength, hLawful⟩

def Rerun.verdicts? (x : Rerun) : Option (List (String × Kind × Option String)) :=
  match x.ending with
  | .finished (.ok s) => some (s.results.map Outcome.verdict)
  | _ => none

/-- Two runs with a timeout of three milliseconds, one right after the other. The ticker of the first rings after
five, while the second waits, and the second passes. -/
theorem exists_rerun_with_other_verdicts :
    let runs := reruns false .memory [none, none] { turns } (suite (some 3))
    runs.map Rerun.verdicts? = [some (verdicts false), some (verdicts true)] ∧
      ¬ ∀ x ∈ runs, ∀ y ∈ runs, x.verdicts? = y.verdicts? := by
  decide +kernel

end SelfTest

end TestBench
