import TestBench.Proofs.Case.Isolation
import TestBench.Proofs.Set.Course

/-! # Tests do not touch each other

A set whose hooks share no state gives the same outcomes as its tests do when each of them is run on its own. So a
test may be replaced without any effect on the others, and tests may change places (`TestSet.tests_isolated`).
-/

namespace TestBench

open World

namespace Isolated

variable {ι : Type} [DecidableEq ι] {cases : ι → Case} {ownHook : Phase → Option Hook}
  {ways : Place ι → Nat → Ended} {At : (Place ι → Nat) → World → Prop} {calls : Place ι → Nat} {w : World}
  (spans : List Span)

theorem emit (h : Isolated (Place.hook cases ownHook) ways At) (hAt : At calls w) (print : Bool) (sink : Sink)
    (line : Line) :
    Arrives At ∅ calls ((TestSet.emit print sink line).under spans) w fun _ reports events =>
      reports = sink.reports print line ∧ events = sink.events print spans line := by
  cases print with
  | false =>
    change Arrives At ∅ calls ((Program.pure ()).under spans) w _
    rw [Program.under_pure]
    refine .pure hAt ?_
    cases sink <;> exact ⟨rfl, rfl⟩
  | true =>
    rcases sink with _ | color | _
    · change Arrives At ∅ calls ((Program.report _ (.pure ())).under spans) w _
      rw [Program.under_report, Program.under_pure]
      exact .report (.pure (h.record _ _ _ hAt) ⟨rfl, rfl⟩)
    · change Arrives At ∅ calls ((Program.report _ (.pure ())).under spans) w _
      rw [Program.under_report, Program.under_pure]
      exact .report (.pure (h.record _ _ _ hAt) ⟨rfl, rfl⟩)
    · change Arrives At ∅ calls ((Program.notice _ (.pure ())).under spans) w _
      rw [Program.under_notice, Program.under_pure]
      refine ⟨(), { w with events := w.events ++ [⟨spans ++ [], .report line⟩] }, [],
        [⟨spans ++ [], .report line⟩], ?_, ⟨?_, _, rfl, .refl _⟩, .refl (h.record _ _ _ hAt), rfl, ?_⟩
      · exact ends_notice_iff.mpr (ends_pure_iff.mpr ⟨rfl, rfl⟩)
      · exact (List.append_nil _).symm
      · rw [List.append_nil]
        rfl

theorem runTests (h : Isolated (Place.hook cases ownHook) ways At) (hAt : At calls w) (print : Bool)
    (sink : Sink) (labels : List ι) (hNodup : labels.Nodup) {s : Summary}
    (hSeen : ∀ id ∈ s.seen, id < w.nextOutcome) :
    Arrives At {k | ∃ i ∈ labels, ∃ role, k = .test i role} calls
      ((TestSet.runTests print sink (labels.map cases) s).under spans) w fun s' reports events =>
        ∃ outcomes, s' = s.extend outcomes ∧
          outcomes.map (·.verdict) = labels.map (fun i => (outcome cases ways calls i).verdict) ∧
          reports = outcomes.flatMap (fun o => .outcome o :: sink.reports print o.line) ∧
          events = outcomes.flatMap (fun o => sink.events print spans o.line) := by
  induction labels generalizing calls w s with
  | nil =>
    change Arrives At _ calls ((Program.pure s).under spans) w _
    rw [Program.under_pure]
    exact .pure hAt ⟨[], s.extend_nil.symm, rfl, rfl, rfl⟩
  | cons i rest ih =>
    obtain ⟨hFresh, hNodup⟩ := List.nodup_cons.mp hNodup
    rw [List.map_cons, TestSet.runTests_cons, Program.under_bind]
    refine ((h.caseRun spans hAt i).bind (∅ ∪ {k | ∃ j ∈ rest, ∃ role, k = .test j role}) ?_).mono ?_
    · rintro o w₁ _ _ calls₁ hRun ⟨hVerdict, rfl, rfl⟩ hAt₁ hKept
      obtain ⟨hEnter, hSeen₁⟩ := TestSet.enter_of_ends_run hSeen hRun
      rw [hEnter, Program.under_bind, Program.under_pure]
      change Arrives At _ calls₁ (Program.under spans ((TestSet.emit print sink o.line).bind _)) w₁ _
      rw [Program.under_bind]
      refine (h.emit spans hAt₁ print sink o.line).bind _ ?_
      rintro _ w₂ _ _ calls₂ hEmit ⟨rfl, rfl⟩ hAt₂ hKept₂
      have hSeen₂ : ∀ id ∈ (s.extend [o]).seen, id < w₂.nextOutcome :=
        fun id hMem => Nat.lt_of_lt_of_le (hSeen₁ id hMem) hEmit.grows.nextOutcome
      refine (ih hAt₂ hNodup hSeen₂).imp ?_
      rintro s' _ _ ⟨outcomes, rfl, hVerdicts, rfl, rfl⟩
      refine ⟨o :: outcomes, (s.extend_cons o outcomes).symm, ?_, rfl, rfl⟩
      rw [List.map_cons, List.map_cons, hVerdict, hVerdicts]
      congr 1
      refine List.map_congr_left fun j hj => ?_
      have hOther (role : Role) : calls₂ (.test j role) = calls (.test j role) := by
        rw [hKept₂ _ (Set.notMem_empty _)]
        refine hKept _ ?_
        rintro ⟨role', hEq⟩
        cases hEq
        exact hFresh hj
      rw [outcome_congr hOther]
    · rintro k (⟨role, rfl⟩ | ⟨⟨⟩⟩ | ⟨j, hj, role, rfl⟩)
      · exact ⟨i, List.mem_cons_self, role, rfl⟩
      · exact ⟨j, List.mem_cons_of_mem _ hj, role, rfl⟩

def setOf (cases : ι → Case) (ownHook : Phase → Option Hook) (labels : List ι) : TestSet :=
  { tests := labels.map cases, before := ownHook .setup, after := ownHook .teardown }

theorem setRun (h : Isolated (Place.hook cases ownHook) ways At) (hAt : At calls w) (print : Bool)
    (sink : Sink) (labels : List ι) (hNodup : labels.Nodup)
    (hSucceed : ∀ phase, (ownHook phase).isSome → ways (.own phase) (calls (.own phase)) = .ok (.ok ())) :
    Arrives At Set.univ calls ((setOf cases ownHook labels).run print sink) w fun e reports events =>
      ∃ outcomes, e = .ok (.ofOutcomes outcomes) ∧
        outcomes.map (·.verdict) = labels.map (fun i => (outcome cases ways calls i).verdict) ∧
        reports = outcomes.flatMap (fun o => .outcome o :: sink.reports print o.line) ++
          sink.reports print (Summary.ofOutcomes outcomes).line ++ [.summary (.ofOutcomes outcomes)] ∧
        events = outcomes.flatMap (fun o => sink.events print [.set labels.length] o.line) ++
          sink.events print [.set labels.length] (Summary.ofOutcomes outcomes).line := by
  have hLength : (setOf cases ownHook labels).tests.length = labels.length := List.length_map _
  rw [TestSet.run_eq, Program.under_bind, hLength]
  have hSetup := h.runOption [.set labels.length] hAt (.own .setup) (hSucceed .setup)
  refine (hSetup.bind Set.univ ?_).mono (Set.subset_univ _)
  rintro r w₁ _ _ calls₁ - ⟨rfl, rfl, rfl⟩ hAt₁ hKept₁
  simp only
  rw [Program.under_bind]
  have hTests := h.runTests [.set labels.length] hAt₁ print sink labels hNodup (s := {}) (by simp)
  refine (hTests.bind Set.univ ?_).mono (Set.subset_univ _)
  rintro s w₂ _ _ calls₂ - ⟨outcomes, hSummary, hVerdicts, rfl, rfl⟩ hAt₂ hKept₂
  obtain rfl : s = .ofOutcomes outcomes := hSummary
  rw [TestSet.finish, Program.under_bind]
  refine ((h.emit _ hAt₂ print sink _).bind Set.univ ?_).mono (Set.subset_univ _)
  rintro _ w₃ _ _ calls₃ - ⟨rfl, rfl⟩ hAt₃ hKept₃
  rw [Program.under_bind]
  have hSucceeds : (ownHook .teardown).isSome →
      ways (.own .teardown) (calls₃ (.own .teardown)) = .ok (.ok ()) := by
    rw [hKept₃ _ (Set.notMem_empty _), hKept₂ _ (by simp), hKept₁ _ (by simp)]
    exact hSucceed .teardown
  have hTeardown := h.runOption [.set labels.length] hAt₃ (.own .teardown) hSucceeds
  refine (hTeardown.bind Set.univ ?_).mono (Set.subset_univ _)
  rintro r w₄ _ _ calls₄ - ⟨rfl, rfl, rfl⟩ hAt₄ -
  simp only [Program.under_notice, Program.under_report, Program.under_pure]
  refine .notice (.report (.pure (h.record _ _ _ (h.record _ _ _ hAt₄)) ⟨outcomes, rfl, ?_, ?_, ?_⟩))
  · rw [hVerdicts]
    refine List.map_congr_left fun i _ => ?_
    rw [outcome_congr fun role => hKept₁ (.test i role) (by simp)]
  · simp only [List.nil_append, List.append_assoc]
  · simp only [List.nil_append, List.append_nil]

theorem runAndPrint (h : Isolated (Place.hook cases ownHook) ways At) (hAt : At calls w) (sink : Sink)
    (i : ι) :
    Arrives At Set.univ calls ((cases i).runAndPrint sink) w fun o reports events =>
      o.verdict = (outcome cases ways calls i).verdict ∧
        reports = .outcome o :: sink.reports true o.line ∧ events = sink.events true [] o.line := by
  have hRun := h.caseRun [] hAt i
  refine (hRun.bind Set.univ ?_).mono (Set.subset_univ _)
  rintro o w₁ _ _ calls₁ - ⟨hVerdict, rfl, rfl⟩ hAt₁ -
  have hPut := h.emit [] hAt₁ true sink o.line
  refine (hPut.bind Set.univ ?_).mono (Set.subset_univ _)
  rintro _ w₂ _ _ calls₂ - ⟨rfl, rfl⟩ hAt₂ -
  exact .pure hAt₂ ⟨hVerdict, congrArg _ (List.append_nil _), List.append_nil _⟩

end Isolated

/-! ## The law -/

namespace TestSet

open Isolated (setOf)

/-- How the runs of isolated tests go together. All of them start when the hooks were called so often. -/
structure Apart {ι : Type} (cases : ι → Case) (ownHook : Phase → Option Hook)
    (At : (Place ι → Nat) → World → Prop) (calls : Place ι → Nat)
    (verdict : ι → String × Kind × Option String) : Prop where
  /-- On its own, a test comes to its verdict wherever its own hooks were called as often, and it calls no
  others. -/
  alone : ∀ i calls' w, At calls' w → (∀ role, calls' (.test i role) = calls (.test i role)) →
    ∃ o w', Ends none (cases i).run w (.finished o) w' ∧ o.verdict = verdict i ∧
      CalledWithin At (Set.range (Place.test i)) calls' w'
  printed : ∀ i sink calls' w, At calls' w → (∀ role, calls' (.test i role) = calls (.test i role)) →
    ∃ o w', Ends none ((cases i).runAndPrint sink) w (.finished o) w' ∧ o.verdict = verdict i ∧
      w.Shows w' (.outcome o :: sink.reports true (Outcome.lineOf (verdict i)))
        (sink.events true [] (Outcome.lineOf (verdict i)))
  together : ∀ labels print sink w, labels.Nodup → At calls w →
    ∃ s w', Ends none ((setOf cases ownHook labels).run print sink) w (.finished (.ok s)) w' ∧
      s.results.map (·.verdict) = labels.map verdict ∧
      s.results.map (·.line) = labels.map (fun i => Outcome.lineOf (verdict i)) ∧ w.Shows w'
        (s.results.flatMap (fun o => .outcome o :: sink.reports print o.line) ++
          sink.reports print s.line ++ [.summary s])
        (s.results.flatMap (fun o => sink.events print [.set labels.length] o.line) ++
          sink.events print [.set labels.length] s.line)
  replaced : ∀ labels k i print sink w s w', labels.Nodup → (labels.set k i).Nodup → At calls w →
    Ends none ((setOf cases ownHook labels).run print sink) w (.finished (.ok s)) w' →
    ∀ print₂ sink₂ w₂ s₂ w₂', At calls w₂ →
      Ends none ((setOf cases ownHook (labels.set k i)).run print₂ sink₂) w₂ (.finished (.ok s₂)) w₂' →
      ∀ j, j ≠ k → s₂.results[j]?.map (·.verdict) = s.results[j]?.map (·.verdict)
  permuted : ∀ labels labels₂ print sink w s w', labels.Nodup → labels₂.Perm labels → At calls w →
    Ends none ((setOf cases ownHook labels).run print sink) w (.finished (.ok s)) w' →
    ∀ print₂ sink₂ w₂ s₂ w₂', At calls w₂ →
      Ends none ((setOf cases ownHook labels₂).run print₂ sink₂) w₂ (.finished (.ok s₂)) w₂' →
      (s₂.results.map (·.verdict)).Perm (s.results.map (·.verdict)) ∧ s₂.line = s.line

variable {ι : Type} [DecidableEq ι] {cases : ι → Case} {ownHook : Phase → Option Hook}
  {ways : Place ι → Nat → Ended} {At : (Place ι → Nat) → World → Prop} {calls : Place ι → Nat}

theorem verdicts_of_run (h : Isolated (Place.hook cases ownHook) ways At)
    (hSucceed : ∀ phase, (ownHook phase).isSome → ways (.own phase) (calls (.own phase)) = .ok (.ok ()))
    {labels : List ι} {print : Bool} {sink : Sink} {w w' : World} {s : Summary} (hNodup : labels.Nodup)
    (hAt : At calls w)
    (hEnds : Ends none ((setOf cases ownHook labels).run print sink) w (.finished (.ok s)) w') :
    s = .ofOutcomes s.results ∧
      s.results.map (·.verdict) = labels.map fun i => (Isolated.outcome cases ways calls i).verdict := by
  obtain ⟨_, _, _, _, hEnds', -, -, outcomes, rfl, hVerdicts, -⟩ :=
    h.setRun hAt print sink labels hNodup hSucceed
  obtain ⟨hSame, -⟩ := hEnds.unique hEnds'
  cases hSame
  exact ⟨rfl, hVerdicts⟩

theorem line_eq_of_verdicts {outcomes outcomes₂ : List Outcome}
    (h : (outcomes₂.map (·.verdict)).Perm (outcomes.map (·.verdict))) :
    (Summary.ofOutcomes outcomes₂).line = (Summary.ofOutcomes outcomes).line := by
  have hKinds : (outcomes₂.map (·.kind)).Perm (outcomes.map (·.kind)) := by
    have hMapped := h.map (·.2.1)
    rw [List.map_map, List.map_map] at hMapped
    exact hMapped
  exact congrArg (fun t : Tally => Line.mk .log t.sentence) (Tally.ofKinds_perm hKinds)

/-- Tests whose hooks share no state do not touch each other. Each comes to the verdict in a set that it
comes to on its own, so it does not matter which other tests are in the set, nor in which order. -/
theorem tests_isolated (h : Isolated (Place.hook cases ownHook) ways At)
    (hSucceed : ∀ phase, (ownHook phase).isSome → ways (.own phase) (calls (.own phase)) = .ok (.ok ())) :
    ∃ verdict, Apart cases ownHook At calls verdict := by
  refine ⟨fun i => (Isolated.outcome cases ways calls i).verdict, ?_, ?_, ?_, ?_, ?_⟩
  · intro i calls' w hAt hOwn
    obtain ⟨o, w', _, _, hEnds, -, hCalled, hVerdict, -⟩ := h.caseRun [] hAt i
    exact ⟨o, w', hEnds, hVerdict.trans (by rw [Isolated.outcome_congr hOwn]), hCalled⟩
  · intro i sink calls' w hAt hOwn
    obtain ⟨o, w', _, _, hEnds, hShows, -, hVerdict, rfl, rfl⟩ := h.runAndPrint hAt sink i
    rw [Isolated.outcome_congr hOwn] at hVerdict
    rw [Outcome.line_eq_lineOf, hVerdict] at hShows
    exact ⟨o, w', hEnds, hVerdict, hShows⟩
  · intro labels print sink w hNodup hAt
    obtain ⟨_, w', _, _, hEnds, hShows, -, outcomes, rfl, hVerdicts, rfl, rfl⟩ :=
      h.setRun hAt print sink labels hNodup hSucceed
    refine ⟨_, w', hEnds, hVerdicts, ?_, hShows⟩
    have hLines := congrArg (List.map Outcome.lineOf) hVerdicts
    rw [List.map_map, List.map_map] at hLines
    exact hLines
  · intro labels k i print sink w s w' hNodup hNodup₂ hAt hEnds print₂ sink₂ w₂ s₂ w₂' hAt₂ hEnds₂ j hj
    have hVerdicts := (verdicts_of_run h hSucceed hNodup hAt hEnds).2
    have hVerdicts₂ := (verdicts_of_run h hSucceed hNodup₂ hAt₂ hEnds₂).2
    rw [← List.getElem?_map, ← List.getElem?_map, hVerdicts, hVerdicts₂, List.getElem?_map, List.getElem?_map,
      List.getElem?_set_ne hj.symm]
  · intro labels labels₂ print sink w s w' hNodup hPerm hAt hEnds print₂ sink₂ w₂ s₂ w₂' hAt₂ hEnds₂
    obtain ⟨hSummary, hVerdicts⟩ := verdicts_of_run h hSucceed hNodup hAt hEnds
    obtain ⟨hSummary₂, hVerdicts₂⟩ := verdicts_of_run h hSucceed (hPerm.nodup_iff.mpr hNodup) hAt₂ hEnds₂
    have hSame : (s₂.results.map (·.verdict)).Perm (s.results.map (·.verdict)) := by
      rw [hVerdicts, hVerdicts₂]
      exact hPerm.map _
    refine ⟨hSame, ?_⟩
    rw [hSummary, hSummary₂]
    exact line_eq_of_verdicts hSame

end TestSet

/-! ## Hooks that count their calls -/

theorem World.callsOf_perform_countCall (w : World) (hook other : String) :
    (w.perform (.countCall hook)).2.callsOf other =
      if other = hook then w.callsOf hook + 1 else w.callsOf other := by
  have hFilter (calls : List (String × Nat)) (h : other ≠ hook) :
      (calls.filter (·.1 != hook)).lookup other = calls.lookup other := by
    induction calls with
    | nil => rfl
    | cons c calls ih =>
      by_cases hSame : c.1 = hook
      · have hOther : (other == c.1) = false := by simpa [hSame] using h
        rw [List.filter_cons_of_neg (by simpa using hSame), ih, List.lookup_cons, hOther]
      · rw [List.filter_cons_of_pos (by simpa using hSame), List.lookup_cons, List.lookup_cons, ih]
  change (((hook, w.callsOf hook + 1) :: w.calls.filter (·.1 != hook)).lookup other).getD 0 = _
  rw [List.lookup_cons]
  by_cases h : other = hook
  · simp [h]
  · rw [if_neg h, hFilter w.calls h, beq_false_of_ne h]
    rfl

def Ended.hook : Ended → Hook
  | .ok r => .pure (.pure r)
  | .error q => .panic q

theorem Ended.ends_hook (x : Ended) (spans : List Span) (w : World) :
    Ends none (x.hook.run.under spans) w x.ending w := by
  cases x with
  | ok r =>
    change Ends none ((Program.pure r).under spans) w _ w
    rw [Program.under_pure, ends_pure_iff]
    exact ⟨rfl, rfl⟩
  | error q =>
    change Ends none ((Program.panic q).under spans) w _ w
    rw [Program.under_panic, ends_panic_iff]
    exact ⟨rfl, rfl⟩

/-- A hook that counts its calls, and ends as the number of earlier calls calls for. -/
def Hook.counting (counter : String) (ways : Nat → Ended) : Hook :=
  .act (.countCall counter) fun (earlier : Nat) => (ways earlier).hook

theorem Hook.ends_counting (counter : String) (ways : Nat → Ended) (spans : List Span) (w : World) :
    Ends none ((counting counter ways).run.under spans) w (ways (w.callsOf counter)).ending
      (w.perform (.countCall counter)).2 := by
  have hRun := Program.under_act spans (.countCall counter) fun (earlier : Nat) =>
    ((ways earlier).hook.run : Async Result)
  change Ends none (Program.under spans (.act (.countCall counter) _)) w _ _
  exact hRun ▸ ends_act_iff.mpr ((ways (w.callsOf counter)).ends_hook spans _)

def CountedBy {κ : Type} (counter : κ → String) (hook? : κ → Option Hook) (calls : κ → Nat) (w : World) : Prop :=
  ∀ k, (hook? k).isSome → w.callsOf (counter k) = calls k

theorem isolated_counting {κ : Type} [DecidableEq κ] {hook? : κ → Option Hook} {ways : κ → Nat → Ended}
    {counter : κ → String} (hCounting : ∀ k h, hook? k = some h → h = .counting (counter k) (ways k))
    (hCounter : ∀ k j, (hook? k).isSome → (hook? j).isSome → counter k = counter j → k = j) :
    Isolated hook? ways (CountedBy counter hook?) where
  call {calls w} k h spans hAt hHook := by
    obtain rfl := hCounting k h hHook
    have hSome : (hook? k).isSome := by rw [hHook]; rfl
    refine ⟨(w.perform (.countCall (counter k))).2, ?_, fun j hj => ?_⟩
    · rw [← hAt k hSome]
      exact Hook.ends_counting (counter k) (ways k) spans w
    · rw [World.callsOf_perform_countCall]
      by_cases hSame : j = k
      · rw [hSame, if_pos rfl, hAt k hSome, Function.update_self]
      · rw [if_neg fun hEq => hSame (hCounter j k hj hSome hEq), hAt j hj, Function.update_of_ne hSame]
  record _ _ _ hAt := hAt

/-! ## Two tests -/

/-- A body that passes once and fails from then on, and a body that panics. -/
def flakyOrBroken : Place Bool → Nat → Ended
  | .test false _, earlier => if earlier = 0 then .ok (.ok ()) else .ok (.error (.assertion "again"))
  | .test true _, _ => .error (.text "boom")
  | .own _, _ => .ok (.ok ())

def flakyOrBrokenName : Place Bool → String
  | .test false _ => "flaky"
  | .test true _ => "broken"
  | .own _ => "set"

def flakyOrBrokenCase (broken : Bool) : Case :=
  { name := flakyOrBrokenName (.test broken .body)
    body := .counting (flakyOrBrokenName (.test broken .body)) (flakyOrBroken (.test broken .body)) }

def ranOnce : Place Bool → Nat
  | .test false .body => 1
  | _ => 0

theorem TestSet.tests_isolated_of_flaky_or_broken :
    let hook? := Place.hook flakyOrBrokenCase fun _ => none
    let At := CountedBy flakyOrBrokenName hook?
    Isolated hook? flakyOrBroken At ∧ At ranOnce { calls := [("flaky", 1)] } ∧
      ∃ verdict, Apart flakyOrBrokenCase (fun _ => none) At ranOnce verdict ∧
        verdict false = ("flaky", .fail, some "again") ∧ verdict true = ("broken", .error, some "boom") := by
  intro hook? At
  have hIsolated : Isolated hook? flakyOrBroken At := by
    apply isolated_counting
    · rintro (⟨broken, _ | _ | _⟩ | phase) h ⟨⟩
      rfl
    · rintro (⟨_ | _, _ | _ | _⟩ | _) (⟨_ | _, _ | _ | _⟩ | _) ⟨⟩ ⟨⟩ hName
      · rfl
      · exact absurd hName (by decide)
      · exact absurd hName (by decide)
      · rfl
  have hAt : At ranOnce { calls := [("flaky", 1)] } := by
    rintro (⟨_ | _, _ | _ | _⟩ | _) ⟨⟩ <;> rfl
  obtain ⟨verdict, hApart⟩ : ∃ verdict, Apart flakyOrBrokenCase (fun _ => none) At ranOnce verdict :=
    tests_isolated hIsolated nofun
  refine ⟨hIsolated, hAt, verdict, hApart, ?_, ?_⟩
  · obtain ⟨o, w', hEnds, hVerdict, -⟩ := hApart.alone false _ _ hAt fun _ => rfl
    obtain ⟨⟨⟩, -⟩ := hEnds
    exact hVerdict.symm
  · obtain ⟨o, w', hEnds, hVerdict, -⟩ := hApart.alone true _ _ hAt fun _ => rfl
    obtain ⟨⟨⟩, -⟩ := hEnds
    exact hVerdict.symm

end TestBench
