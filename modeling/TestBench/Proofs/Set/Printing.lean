import TestBench.Proofs.World.Sifting
import TestBench.Proofs.Set.Passage
import TestBench.Proofs.Case.Isolation

/-! # Printing

Lines that are printed reach whoever reads them and nobody else. A run of a set that prints and a run that
does not, or that prints to another sink, are the same program once the lines are sifted out of both
(`TestSet.sift_run`). So they go the same way, and without printing no sink receives anything
(`TestSet.printing_changes_nothing`).
-/

namespace TestBench

open World

def Report.isLine : Report → Bool
  | .printed _ | .written .. => true
  | .outcome _ | .summary _ => false

def Notice.isReport : Notice → Bool
  | .report _ => true
  | _ => false

namespace World

def unprinted (w : World) : World :=
  { w with
    reports := w.reports.filter (!·.isLine)
    events := w.events.filter (!·.notice.isReport) }

theorem Agrees.unprinted_eq {w w' : World}
    (h : w.Agrees (!·.isReport) (fun a b => b = a.filter (!·.isLine)) w') : w'.unprinted = w.unprinted := by
  obtain ⟨_, _, rfl, rfl, hEvents⟩ := h
  simp only [unprinted, hEvents, List.filter_filter, Bool.and_self]

theorem agrees_unprinted {w : World} (h : w.reports = []) :
    w.Agrees (!·.isReport) (fun a b => b = a.filter (!·.isLine)) w :=
  ⟨w.reports, w.events, rfl, by simp [h], rfl⟩

end World

namespace Program

theorem Silent.recast {α : Type} {f : Report → List Report} {p : Async α} (h : p.Silent) :
    p.recast f (fun _ => true) = p := by
  induction h <;> simp_all [Program.recast]

end Program

/-! ## Hooks that log their calls -/

def Hook.logged (line : String) (h : Hook) : Hook := .act (.log line) fun _ => h

namespace TestSet

/-- The set in which every hook and body logs its calls, under the label of its place. -/
def logged (label : Place Nat → String) (set : TestSet) : TestSet :=
  { set with
    before := set.before.map (·.logged (label (.own .setup)))
    after := set.after.map (·.logged (label (.own .teardown)))
    tests := set.tests.mapIdx fun i c =>
      { c with
        before := c.before.map (·.logged (label (.test i .setup)))
        body := c.body.logged (label (.test i .body))
        after := c.after.map (·.logged (label (.test i .teardown))) } }

/-! ## Runs without their lines -/

theorem sift_emit (print : Bool) (sink : Sink) (line : Line) :
    (emit print sink line).sift (!·.isLine) (!·.isReport) = .pure () := by
  cases print with
  | false => rfl
  | true => cases sink <;> rfl

variable (print print' : Bool) (sink sink' : Sink)

theorem sift_runTests (cases : List Case) (s : Summary) :
    (runTests print' sink' cases s).sift (!·.isLine) (!·.isReport) =
      (runTests print sink cases s).sift (!·.isLine) (!·.isReport) := by
  induction cases generalizing s with
  | nil => rfl
  | cons c rest ih => simp only [runTests_cons, Program.sift_bind, sift_emit, Program.bind, ih]

theorem sift_finish (set : TestSet) (s : Summary) :
    (set.finish print' sink' s).sift (!·.isLine) (!·.isReport) =
      (set.finish print sink s).sift (!·.isLine) (!·.isReport) := by
  simp only [finish, Program.sift_bind, sift_emit, Program.bind]

theorem sift_run (set : TestSet) :
    (set.run print' sink').sift (!·.isLine) (!·.isReport) =
      (set.run print sink).sift (!·.isLine) (!·.isReport) := by
  rw [run_eq, run_eq, Program.sift_under, Program.sift_under, Program.sift_bind, Program.sift_bind]
  congr 2
  funext r
  rcases r with f | ⟨⟩
  · rfl
  · simp only [Program.sift_bind, sift_runTests print print' sink sink', sift_finish print print' sink sink']

theorem recast_run {print print' : Bool} {sink sink' : Sink} {f : Report → List Report}
    (hOutcome : ∀ o, f (.outcome o) = [.outcome o]) (hSummary : ∀ s, f (.summary s) = [.summary s])
    (hEmit : ∀ line, (emit print sink line).recast f (fun _ => true) = emit print' sink' line) (set : TestSet) :
    (set.run print sink).recast f (fun _ => true) = set.run print' sink' := by
  have hOption (h? : Option Hook) : (Hook.runOption h?).recast f (fun _ => true) = Hook.runOption h? := by
    cases h? with
    | none => rfl
    | some h => exact Program.recast_muted _
  have hCase (c : Case) : c.run.recast f (fun _ => true) = c.run := by
    have hSilent : (c.examine.bind c.tearDown).Silent := c.silent_invocations []
    have hConclude (found : Finding) : (c.conclude found).recast f (fun _ => true) = c.conclude found := by
      simp only [Case.conclude_eq, Program.recast, hOutcome]
      rfl
    rw [Case.run_eq, Program.recast_within, Program.recast_bind, hSilent.recast]
    simp only [hConclude]
  have hEnter (s : Summary) (o : Outcome) : (s.enter o).recast f (fun _ => true) = s.enter o := by
    rw [Summary.enter_eq]
    split <;> rfl
  have hTests (cases : List Case) (s : Summary) :
      (runTests print sink cases s).recast f (fun _ => true) = runTests print' sink' cases s := by
    induction cases generalizing s with
    | nil => rfl
    | cons c rest ih => simp only [runTests_cons, Program.recast_bind, hCase, hEnter, hEmit, ih]
  have hFinish (s : Summary) :
      (set.finish print sink s).recast f (fun _ => true) = set.finish print' sink' s := by
    simp only [finish, Program.recast_bind, hOption, hEmit]
    congr 1
    funext _
    congr 1
    funext r
    rcases r with f | ⟨⟩
    · rfl
    · simp only [Program.recast, hSummary]
      rfl
  rw [run_eq, run_eq, Program.recast_under, Program.recast_bind, hOption]
  congr 2
  funext r
  rcases r with f | ⟨⟩
  · rfl
  · simp only [Program.recast_bind, hTests, hFinish]

theorem sift_run_false (set : TestSet) :
    (set.run false sink).sift (!·.isLine) (fun _ => true) = set.run false sink := by
  rw [Program.sift_eq_recast]
  exact recast_run (fun _ => rfl) (fun _ => rfl) (fun _ => rfl) set

theorem run_false_eq (set : TestSet) : set.run false sink' = set.run false sink := by
  have hTests (cases : List Case) (s : Summary) : runTests false sink' cases s = runTests false sink cases s := by
    induction cases generalizing s with
    | nil => rfl
    | cons c rest ih =>
      rw [runTests_cons, runTests_cons]
      simp only [ih]
      rfl
  rw [run_eq, run_eq, hTests]
  rfl

end TestSet

/-! ## Sessions -/

namespace TestSet

/-- What a run leaves to its set are outcomes and summaries, and no line is one. -/
theorem afterRun_filter (set : TestSet) (reports : List Report) :
    set.afterRun (reports.filter (!·.isLine)) = set.afterRun reports := by
  have hMap {α : Type} (f : Report → Option α) (h : ∀ r, r.isLine → f r = none) :
      (reports.filter (!·.isLine)).filterMap f = reports.filterMap f := by
    rw [List.filterMap_filter]
    congr 1
    funext r
    by_cases hr : r.isLine
    · simp [hr, h r hr]
    · simp [hr]
  simp only [afterRun]
  rw [hMap, hMap]
  · rintro (_ | _ | _ | _) h <;> first | rfl | cases h
  · rintro (_ | _ | _ | _) h <;> first | rfl | cases h

theorem run_agrees (turns : Nat) (limit : Option Nat) (set : TestSet) (print print' : Bool)
    (sink sink' : Sink) {w : World} (h : w.reports = []) :
    (World.run turns limit (set.run print' sink') w).1 = (World.run turns limit (set.run print sink) w).1 ∧
      (World.run turns limit (set.run print' sink') w).2.unprinted =
        (World.run turns limit (set.run print sink) w).2.unprinted := by
  have hSifted := World.run_sift turns limit (!·.isLine) (!·.isReport) (set.run print sink)
    (World.agrees_unprinted h)
  have hSifted' := World.run_sift turns limit (!·.isLine) (!·.isReport) (set.run print' sink')
    (World.agrees_unprinted h)
  rw [sift_run print print' sink sink'] at hSifted'
  exact ⟨hSifted'.1.symm.trans hSifted.1, hSifted'.2.unprinted_eq.symm.trans hSifted.2.unprinted_eq⟩

theorem reports_run_false (turns : Nat) (limit : Option Nat) (set : TestSet) (sink : Sink) {w : World}
    (h : w.reports = []) :
    ∀ r ∈ (World.run turns limit (set.run false sink) w).2.reports, ¬ r.isLine := by
  have hAgrees : w.Agrees (fun _ => true) (fun a b => b = a.filter (!·.isLine)) w :=
    ⟨w.reports, w.events, rfl, by simp [h], rfl⟩
  obtain ⟨-, hAfter⟩ := World.run_sift turns limit (!·.isLine) (fun _ => true) (set.run false sink) hAgrees
  rw [sift_run_false] at hAfter
  intro r hr
  have hKept := List.mem_filter.mp (hAfter.reports ▸ hr)
  simpa using hKept.2

/-- Printing does not influence a run of a set, whatever its hooks do and wherever the run ends: a run with the
lines going to one sink, to another or to none comes to the same ending and leaves the same set, and the worlds
they leave, with their clocks, differ in those lines alone. Hooks and bodies are called in the same order and
at the same times, as the logs of their calls show. Without printing nothing depends on the sink, and nothing
is printed or written. -/
theorem printing_changes_nothing (s : Session) (set : TestSet) (print print' : Bool) (sink sink' : Sink) :
    let r := s.runSet set (set.run print sink)
    let r' := s.runSet set (set.run print' sink')
    (r'.ending = r.ending ∧ r'.set = r.set ∧ r'.session.world.now = r.session.world.now ∧
        r'.session.world.unprinted = r.session.world.unprinted) ∧
      (∀ label : Place Nat → String,
        let calls := s.runSet (set.logged label) ((set.logged label).run print sink)
        let calls' := s.runSet (set.logged label) ((set.logged label).run print' sink')
        calls'.session.world.log = calls.session.world.log) ∧
      set.run false sink' = set.run false sink ∧
      let quiet := s.runSet set (set.run false sink)
      Report.lines quiet.reports = [] ∧ ∀ channel, Report.consoleText channel quiet.reports = "" := by
  let w : World := { s.world with reports := [] }
  have hRuns (set : TestSet) := run_agrees s.turns s.limit set print print' sink sink' (w := w) rfl
  have hNone := reports_run_false s.turns s.limit set sink (w := w) rfl
  have hReports := congrArg World.reports (hRuns set).2
  have hNow := congrArg World.now (hRuns set).2
  have hLog (label : Place Nat → String) := congrArg World.log (hRuns (set.logged label)).2
  refine ⟨⟨(hRuns set).1, ?_, hNow, (hRuns set).2⟩, hLog, set.run_false_eq sink sink', ?_, fun channel => ?_⟩
  · exact ((set.afterRun_filter _).symm.trans (congrArg set.afterRun hReports)).trans (set.afterRun_filter _)
  · refine List.filterMap_eq_nil_iff.mpr fun r hr => ?_
    have hLine := hNone r hr
    cases r <;> first | rfl | exact absurd rfl hLine
  · refine congrArg String.join (List.filterMap_eq_nil_iff.mpr fun r hr => ?_)
    have hLine := hNone r hr
    cases r <;> first | rfl | exact absurd rfl hLine

end TestSet

end TestBench
