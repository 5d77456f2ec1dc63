import TestBench.Proofs.Set.Memory
import TestBench.Proofs.World.Returns

/-! # The summary of a run is complete

A summary leaves out an outcome that it has seen, so it is complete only if every outcome of the run is
new to it. That the numbers of outcomes are never given twice makes it so, whatever the tests do and
whatever goes on beside the run (`TestSet.summary_complete`).
-/

namespace TestBench

open Program

/-- The outcomes are numbered one by one on the way from one world to another. Whatever else is numbered
meanwhile is numbered in one of the stretches between. -/
inductive World.Numbering : World → List Outcome → List (World × World) → World → Prop
  | last {w w' : World} (h : w.nextOutcome ≤ w'.nextOutcome) : Numbering w [] [(w, w')] w'
  | next {w v v' w' : World} {o : Outcome} {outcomes : List Outcome} {stretches : List (World × World)}
      (h : w.nextOutcome ≤ v.nextOutcome) (hId : o.id = v.nextOutcome)
      (hNext : v'.nextOutcome = v.nextOutcome + 1) (rest : Numbering v' outcomes stretches w') :
      Numbering w (o :: outcomes) ((w, v) :: stretches) w'

namespace World.Numbering

variable {w v w' : World} {outcomes : List Outcome} {stretches : List (World × World)}

theorem earlier (h : v.Numbering outcomes stretches w') (hLe : w.nextOutcome ≤ v.nextOutcome) :
    ∃ stretches, w.Numbering outcomes stretches w' := by
  cases h with
  | last h => exact ⟨_, .last (Nat.le_trans hLe h)⟩
  | next h hId hNext rest => exact ⟨_, .next (Nat.le_trans hLe h) hId hNext rest⟩

theorem append {first rest : List Outcome} {stretches' : List (World × World)}
    (h : w.Numbering first stretches v) (hRest : v.Numbering rest stretches' w') :
    ∃ stretches, w.Numbering (first ++ rest) stretches w' := by
  induction h with
  | last h => exact hRest.earlier h
  | next h hId hNext _ ih =>
    obtain ⟨stretches, hRest⟩ := ih hRest
    exact ⟨_, .next h hId hNext hRest⟩

theorem bounds (h : w.Numbering outcomes stretches w') :
    w.nextOutcome ≤ w'.nextOutcome ∧
      ∀ o ∈ outcomes, w.nextOutcome ≤ o.id ∧ o.id < w'.nextOutcome := by
  induction h with
  | last h => exact ⟨h, nofun⟩
  | @next w v v' w' o outcomes stretches h hId hNext rest ih =>
    refine ⟨by omega, fun p hp => ?_⟩
    rcases List.mem_cons.mp hp with rfl | hp
    · omega
    · have hRest := ih.2 p hp
      omega

theorem increasing (h : w.Numbering outcomes stretches w') : (outcomes.map (·.id)).Pairwise (· < ·) := by
  induction h with
  | last h => exact .nil
  | @next w v v' w' o outcomes stretches h hId hNext rest ih =>
    refine .cons (fun id hMem => ?_) ih
    obtain ⟨p, hp, rfl⟩ := List.mem_map.mp hMem
    have hBounds := (rest.bounds.2 p hp).1
    show o.id < p.id
    omega

theorem stretch_bounds (h : w.Numbering outcomes stretches w') :
    ∀ stretch ∈ stretches, w.nextOutcome ≤ stretch.1.nextOutcome ∧
      stretch.2.nextOutcome ≤ w'.nextOutcome := by
  induction h with
  | last h => simp
  | @next w v v' w' o outcomes stretches h hId hNext rest ih =>
    intro stretch hMem
    have hRest := rest.bounds.1
    rcases List.mem_cons.mp hMem with rfl | hMem
    · exact ⟨Nat.le_refl _, by simp only; omega⟩
    · obtain ⟨hFirst, hLast⟩ := ih stretch hMem
      exact ⟨by omega, hLast⟩

/-- What is numbered before, between or after the outcomes is none of them. -/
theorem apart (h : w.Numbering outcomes stretches w') {id : Nat}
    (hElsewhere : id < w.nextOutcome ∨ w'.nextOutcome ≤ id ∨
      ∃ stretch ∈ stretches, stretch.1.nextOutcome ≤ id ∧ id < stretch.2.nextOutcome) :
    ∀ o ∈ outcomes, o.id ≠ id := by
  induction h with
  | last h => exact nofun
  | @next w v v' w' o outcomes stretches h hId hNext rest ih =>
    intro p hp
    rcases List.mem_cons.mp hp with rfl | hp
    · have hRest := rest.bounds.1
      rcases hElsewhere with hBefore | hAfter | ⟨stretch, hMem, hFirst, hLast⟩
      · omega
      · omega
      · rcases List.mem_cons.mp hMem with rfl | hMem
        · exact fun hEq => by simp only at hLast; omega
        · have hStretch := (rest.stretch_bounds stretch hMem).1
          omega
    · refine ih ?_ p hp
      rcases hElsewhere with hBefore | hAfter | ⟨stretch, hMem, hFirst, hLast⟩
      · exact .inl (by omega)
      · exact .inr (.inl hAfter)
      · rcases List.mem_cons.mp hMem with rfl | hMem
        · exact .inl (by simp only at hLast; omega)
        · exact .inr (.inr ⟨stretch, hMem, hFirst, hLast⟩)

end World.Numbering

/-! ## Cases -/

variable {w w' : World} {reports : List Report}

theorem Case.of_returns_run {c : Case} {o : Outcome} (h : c.run.Returns w reports o w') :
    reports = [.outcome o] ∧ o.test = c.name ∧ ∃ stretches, w.Numbering [o] stretches w' := by
  rw [run_eq] at h
  obtain ⟨found, v, first, rest, hInvoked, hConcluded, rfl⟩ := h.of_within.of_bind
  obtain rfl : first = [] := hInvoked.reports_eq_nil (c.silent_invocations [])
  rw [conclude_eq] at hConcluded
  cases hConcluded with
  | act h =>
    cases h with
    | notice hNoticed h =>
      cases h with
      | report hReported h =>
        obtain ⟨rfl, rfl, rfl⟩ := h.eq_of_pure
        have hLast := Nat.le_trans hNoticed hReported
        exact ⟨rfl, rfl, _, .next hInvoked.nextOutcome_le rfl rfl (.last hLast)⟩

/-! ## Sets -/

namespace TestSet

variable {print : Bool} {sink : Sink} {set : TestSet}

theorem of_returns_emit {line : Line} (h : (emit print sink line).Returns w reports () w') :
    reports.filterMap Report.outcome? = [] ∧ reports.filterMap Report.summary? = [] := by
  have hReport {r : Report} (h : (Program.report r (.pure ()) : Async Unit).Returns w reports () w') :
      reports = [r] := by
    cases h with
    | report _ h => rw [h.eq_of_pure.2.2]
  cases print with
  | false => simp [h.eq_of_pure.2.2]
  | true =>
    rcases sink with _ | color | _
    · rw [hReport h]; exact ⟨rfl, rfl⟩
    · rw [hReport h]; exact ⟨rfl, rfl⟩
    · cases h with
      | notice _ h => rw [h.eq_of_pure.2.2]; exact ⟨rfl, rfl⟩

theorem of_returns_runTests {cases : List Case} {s s' : Summary} (hSeen : ∀ id ∈ s.seen, id < w.nextOutcome)
    (h : (runTests print sink cases s).Returns w reports s' w') :
    ∃ outcomes, s' = s.extend outcomes ∧ List.Forall₂ (fun c o => o.test = c.name) cases outcomes ∧
      (∃ stretches, w.Numbering outcomes stretches w') ∧
      reports.filterMap Report.outcome? = outcomes ∧ reports.filterMap Report.summary? = [] := by
  induction cases generalizing s w reports with
  | nil =>
    obtain ⟨hSummary, rfl, rfl⟩ := h.eq_of_pure
    exact ⟨[], hSummary.trans s.extend_nil.symm, .nil, ⟨_, .last (Nat.le_refl _)⟩, rfl, rfl⟩
  | cons c rest ih =>
    rw [runTests_cons] at h
    obtain ⟨o, w₁, first, others, hRun, hOthers, hReports⟩ := h.of_bind
    obtain ⟨rfl, hName, _, hNumbering⟩ := Case.of_returns_run hRun
    obtain ⟨hNew, hId⟩ := hNumbering.bounds.2 o List.mem_cons_self
    have hUnseen : o.id ∉ s.seen := fun hMem => Nat.lt_irrefl _ (Nat.lt_of_lt_of_le (hSeen _ hMem) hNew)
    rw [Summary.enter_eq_of_not_mem hUnseen] at hOthers
    change ((emit print sink o.line).bind fun _ => runTests print sink rest (s.extend [o])).Returns
      w₁ others s' w' at hOthers
    obtain ⟨_, w₂, printed, last, hEmit, hLast, rfl⟩ := hOthers.of_bind
    have hGrows := hEmit.nextOutcome_le
    have hSeen' : ∀ id ∈ (s.extend [o]).seen, id < w₂.nextOutcome := by
      intro id hMem
      rcases List.mem_append.mp hMem with hMem | hMem
      · have hOld := hSeen id hMem
        omega
      · obtain rfl : id = o.id := by simpa using hMem
        omega
    obtain ⟨outcomes, rfl, hNames, ⟨_, hRest⟩, hOutcomes, hSummaries⟩ := ih hSeen' hLast
    obtain ⟨hPrinted, hPrinted'⟩ := of_returns_emit hEmit
    obtain ⟨_, hRest⟩ := hRest.earlier hGrows
    refine ⟨o :: outcomes, (s.extend_cons o outcomes).symm, .cons hName hNames, hNumbering.append hRest, ?_, ?_⟩
    · rw [hReports, List.filterMap_append, List.filterMap_append, hPrinted, hOutcomes]
      rfl
    · rw [hReports, List.filterMap_append, List.filterMap_append, hPrinted', hSummaries]
      rfl

/-- A run that returns a summary numbers its outcomes, one for each test, and hands them over. -/
theorem of_returns_run {summary : Summary} (h : (set.run print sink).Returns w reports (.ok summary) w') :
    ∃ outcomes, summary = .ofOutcomes outcomes ∧
      List.Forall₂ (fun c o => o.test = c.name) set.tests outcomes ∧
      (∃ stretches, w.Numbering outcomes stretches w') ∧
      reports.filterMap Report.outcome? = outcomes ∧ reports.filterMap Report.summary? = [summary] := by
  have hHook (h? : Option Hook) : (Hook.runOption h?).Silent := by
    cases h? with
    | none => exact .pure _
    | some h => exact Program.silent_muted _
  have hGiveUp (phase : Phase) (n : Notice) (f : Failure) (w : World) (reports : List Report) :
      ¬ (giveUp phase n f).Returns w reports (.ok summary) w' := by
    intro h
    cases h with
    | notice _ h => nomatch h
  rw [run_eq] at h
  obtain ⟨setup, w₁, first, afterSetup, hSetup, hCarried, rfl⟩ := h.of_under.of_bind
  obtain rfl := hSetup.reports_eq_nil (hHook _)
  cases setup with
  | error f => exact (hGiveUp _ _ _ _ _ hCarried).elim
  | ok _ =>
    obtain ⟨s, w₂, tested, afterTests, hTests, hFinish, rfl⟩ := Returns.of_bind hCarried
    obtain ⟨outcomes, rfl, hNames, ⟨_, hNumbering⟩, hOutcomes, hSummaries⟩ :=
      of_returns_runTests (by simp) hTests
    obtain ⟨_, w₃, printed, afterLine, hEmit, hClose, rfl⟩ := Returns.of_bind hFinish
    obtain ⟨hPrinted, hPrinted'⟩ := of_returns_emit hEmit
    obtain ⟨teardown, w₄, closed, last, hTeardown, hEnd, rfl⟩ := Returns.of_bind hClose
    obtain rfl := hTeardown.reports_eq_nil (hHook _)
    cases teardown with
    | error f => exact (hGiveUp _ _ _ _ _ hEnd).elim
    | ok _ =>
      have hLast := hEnd.nextOutcome_le
      cases hEnd with
      | notice hNoticed hEnd =>
        cases hEnd with
        | report hReported hEnd =>
          obtain ⟨hSummary, rfl, rfl⟩ := hEnd.eq_of_pure
          cases hSummary
          obtain ⟨_, hNumbering⟩ := hNumbering.earlier hSetup.nextOutcome_le
          have hGrows := Nat.le_trans (Nat.le_trans hEmit.nextOutcome_le hTeardown.nextOutcome_le) hLast
          have hAll := hNumbering.append (.last hGrows)
          rw [List.append_nil] at hAll
          refine ⟨outcomes, rfl, hNames, hAll, ?_, ?_⟩
          · simp [List.filterMap_append, hPrinted, hOutcomes, Report.outcome?]
          · simp [List.filterMap_append, hPrinted', hSummaries, Report.summary?]

/-- What the summary that a run returned says of the run, and what it made of the set. -/
structure Complete (set set' : TestSet) (summary : Summary) (w w' : World) : Prop where
  total : summary.tally.total = set.tests.length
  length : summary.results.length = set.tests.length
  tests : set'.tests.length = set.tests.length ∧ ∀ (i : Nat) (c : Case), set'.tests[i]? = some c →
    ∃ o, summary.results[i]? = some o ∧ o.test = c.name ∧ c.lastOutcome = some o
  kept : set'.lastSummary = some summary
  increasing : (summary.results.map (·.id)).Pairwise (· < ·)
  later : ∀ (v v' : World) (id : Nat), v.perform .newOutcome = (id, v') → v'.nextOutcome ≤ w.nextOutcome →
    ∀ o ∈ summary.results, id < o.id
  accepted : summary = .ofOutcomes summary.results ∧
    ∀ earlier o rest, summary.results = earlier ++ o :: rest →
      (Summary.ofOutcomes earlier).add o = (true, .ofOutcomes (earlier ++ [o]))
  /-- What is numbered before the run, after it, or beside it while the run numbers nothing is not in the
  summary. -/
  apart : ∃ stretches, w.Numbering summary.results stretches w' ∧ ∀ p : Outcome,
    (p.id < w.nextOutcome ∨ w'.nextOutcome ≤ p.id ∨
      ∃ stretch ∈ stretches, stretch.1.nextOutcome ≤ p.id ∧ p.id < stretch.2.nextOutcome) →
    ∀ o ∈ summary.results, ¬ o.sameInstance p

theorem add_of_increasing {earlier rest : List Outcome} {o : Outcome}
    (h : ((earlier ++ o :: rest).map (·.id)).Pairwise (· < ·)) :
    (Summary.ofOutcomes earlier).add o = (true, .ofOutcomes (earlier ++ [o])) := by
  have hNew : earlier.any o.sameInstance = false := by
    rw [List.map_append, List.pairwise_append] at h
    refine List.any_eq_false.mpr fun p hp hSame => ?_
    have hLess := h.2.2 p.id (List.mem_map_of_mem hp) o.id (by simp)
    have hEq : o.id = p.id := by simpa [Outcome.sameInstance] using hSame
    omega
  rw [Summary.add_ofOutcomes, hNew]
  rfl

theorem complete_of_numbering {outcomes : List Outcome} {set' : TestSet}
    (hNames : List.Forall₂ (fun c o => o.test = c.name) set.tests outcomes)
    (hNumbering : ∃ stretches, w.Numbering outcomes stretches w')
    (hSet : set' = { set with
      tests := recordOutcomes set.tests outcomes, lastSummary := some (.ofOutcomes outcomes) }) :
    Complete set set' (.ofOutcomes outcomes) w w' := by
  subst hSet
  obtain ⟨stretches, hNumbering⟩ := hNumbering
  have hLength := hNames.length_eq.symm
  refine ⟨?_, hLength, ⟨length_recordOutcomes _ _, fun i c hc => ?_⟩, rfl, hNumbering.increasing,
    fun v v' id hId hBefore o ho => ?_, ⟨rfl, ?_⟩, stretches, hNumbering, fun p hp o ho hSame => ?_⟩
  · simpa [Summary.ofOutcomes] using hLength
  · simp only [getElem?_recordOutcomes, Option.map_eq_some_iff] at hc
    obtain ⟨d, hd, rfl⟩ := hc
    obtain ⟨hi, rfl⟩ := List.getElem?_eq_some_iff.mp hd
    have hi' : i < outcomes.length := hLength ▸ hi
    have hName := hNames.get hi hi'
    have ho : outcomes[i]? = some outcomes[i] := List.getElem?_eq_getElem hi'
    refine ⟨outcomes[i], ho, hName, ?_⟩
    rw [ho]
    rfl
  · obtain ⟨rfl, rfl⟩ := Prod.mk.inj hId
    exact Nat.lt_of_lt_of_le hBefore (hNumbering.bounds.2 o ho).1
  · intro earlier o rest hResults
    obtain rfl : outcomes = earlier ++ o :: rest := hResults
    exact add_of_increasing hNumbering.increasing
  · exact hNumbering.apart hp o ho (by simpa [Outcome.sameInstance] using hSame)

theorem complete_of_returns {v : World} {summary : Summary}
    (h : (set.run print sink).Returns w reports (.ok summary) w') (hBegin : v.nextOutcome ≤ w.nextOutcome) :
    Complete set (set.afterRun reports) summary v w' := by
  obtain ⟨outcomes, rfl, hNames, ⟨_, hNumbering⟩, hOutcomes, hSummaries⟩ := of_returns_run h
  refine complete_of_numbering hNames (hNumbering.earlier hBegin) ?_
  exact congrArg₂ (fun outcomes summaries => { set with
    tests := recordOutcomes set.tests outcomes
    lastSummary := (List.getLast? summaries).or set.lastSummary }) hOutcomes hSummaries

theorem returns_of_runSet {s : Session} {summary : Summary} {p : Async (Except Abort Summary)}
    (h : (s.runSet set p).ending = .finished (.ok summary)) :
    p.Returns { s.world with reports := [] } (s.runSet set p).reports (.ok summary)
      (s.runSet set p).session.world := by
  have hRun : World.run s.turns s.limit p { s.world with reports := [] } =
      (.finished (.ok summary), (s.runSet set p).session.world) := Prod.ext h rfl
  obtain ⟨made, hMade, hReturns⟩ := (World.ends_of_run hRun nofun).returns
  have hReports : (s.runSet set p).reports = made := hMade
  exact hReports ▸ hReturns

/-- Every run that returns a summary returns a complete one, be it the run of a session or a part of
another program, whether or not that program keeps the reports. Runs that follow each other share no
outcome. -/
theorem summary_complete (set : TestSet) (print : Bool) (sink : Sink) (summary : Summary) :
    (∀ s : Session, (s.runSet set (set.run print sink)).ending = .finished (.ok summary) →
      Complete set (s.runSet set (set.run print sink)).set summary s.world
        (s.runSet set (set.run print sink)).session.world) ∧
    (∀ w reports w', (set.run print sink).Returns w reports (.ok summary) w' →
      Complete set (set.afterRun reports) summary w w' ∧
      ∀ (set₂ : TestSet) (print₂ : Bool) (sink₂ : Sink) (summary₂ : Summary) (w₂ : World)
        (reports₂ : List Report) (w₂' : World),
        (set₂.run print₂ sink₂).Returns w₂ reports₂ (.ok summary₂) w₂' →
        w'.nextOutcome ≤ w₂.nextOutcome →
        ∀ o ∈ summary.results, ∀ p ∈ summary₂.results, ¬ o.sameInstance p) ∧
    ∀ w reports made w', ((set.run print sink).collect []).Returns w reports (.ok summary, made) w' →
      Complete set (set.afterRun made) summary w w' := by
  refine ⟨fun s hEnding => ?_, fun w reports w' h => ⟨complete_of_returns h (Nat.le_refl _), ?_⟩,
    fun w reports made w' h => ?_⟩
  · exact complete_of_returns (returns_of_runSet hEnding) (Nat.le_refl _)
  · intro set₂ print₂ sink₂ summary₂ w₂ reports₂ w₂' h₂ hAfter o ho p hp
    obtain ⟨stretches, -, hApart⟩ := (complete_of_returns h (Nat.le_refl _)).apart
    obtain ⟨outcomes, rfl, -, ⟨_, hNumbering⟩, -⟩ := of_returns_run h₂
    have hLater := (hNumbering.bounds.2 p hp).1
    exact hApart p (.inr (.inl (Nat.le_trans hAfter hLater))) o ho
  · obtain ⟨_, rfl, h⟩ := h.of_collect
    exact complete_of_returns h (Nat.le_refl _)

/-- Two tests of the same name, one of which fails. -/
def twins : TestSet :=
  { tests := [⟨"twin", .ofWork (.pure (.ok ())), none, none, none⟩,
      ⟨"twin", .ofWork (.pure (.error (.assertion "no"))), none, none, none⟩] }

theorem summary_complete_of_rerun :
    let first := Session.runSet { turns := 0 } twins (twins.run true .memory)
    let second := first.session.runSet first.set (first.set.run true .memory)
    let s₁ := Summary.ofOutcomes [⟨1, "twin", .pass, none⟩, ⟨2, "twin", .fail, some "no"⟩]
    let s₂ := Summary.ofOutcomes [⟨3, "twin", .pass, none⟩, ⟨4, "twin", .fail, some "no"⟩]
    Complete twins first.set s₁ {} first.session.world ∧
      Complete first.set second.set s₂ first.session.world second.session.world ∧
      ∀ o ∈ s₁.results, ∀ p ∈ s₂.results, ¬ o.sameInstance p := by
  intro first second s₁ s₂
  have hEnding₁ : first.ending = .finished (.ok s₁) := rfl
  have hEnding₂ : second.ending = .finished (.ok s₂) := rfl
  have hFirst := summary_complete twins true .memory s₁
  have hSecond := summary_complete first.set true .memory s₂
  refine ⟨hFirst.1 _ hEnding₁, hSecond.1 _ hEnding₂, ?_⟩
  exact (hFirst.2.1 _ _ _ (returns_of_runSet hEnding₁)).2 first.set true .memory s₂ _ _ _
    (returns_of_runSet hEnding₂) (Nat.le_refl _)

end TestSet

end TestBench
