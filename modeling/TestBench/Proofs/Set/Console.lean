import TestBench.Proofs.Set.Printing

/-! # The console writes what the memory captures

A run on the console is the run that captures its lines in memory, with a text written in place of each line.
Main statement: the two runs come to the same, and on each channel the console got what the memory captured for
it, line by line (`TestSet.console_refines_memory`).
-/

namespace TestBench

open World

def Report.onConsole (color : Bool) : Report → List Report
  | printed line => [written line.channel (line.consoleText color)]
  | written .. => []
  | outcome o => [outcome o]
  | summary s => [summary s]

theorem ColorChoice.enabled_iff {choice : ColorChoice} {noColor : Option String} :
    choice.enabled noColor = true ↔ choice = .always ∨ choice = .auto ∧ noColor = none := by
  cases choice <;> simp [enabled]

/-! ## The lines on one channel -/

namespace Line

theorem map_mk_textsOn (channel : Channel) (lines : List Line) :
    (textsOn channel lines).map (mk channel) = lines.filter (·.channel = channel) := by
  rw [textsOn, List.map_map]
  refine (List.map_congr_left fun l hl => ?_).trans (List.map_id _)
  obtain rfl : l.channel = channel := by simpa using (List.mem_filter.mp hl).2
  rfl

theorem textsOn_sublist (channel : Channel) (lines : List Line) :
    ((textsOn channel lines).map (mk channel)).Sublist lines := by
  rw [map_mk_textsOn]
  exact List.filter_sublist

theorem textsOn_perm (lines : List Line) :
    ((textsOn .log lines).map (mk .log) ++ (textsOn .error lines).map (mk .error)).Perm lines := by
  rw [map_mk_textsOn, map_mk_textsOn]
  have hOther : lines.filter (·.channel = .error) = lines.filter fun l => ! decide (l.channel = .log) := by
    refine List.filter_congr fun l _ => ?_
    cases l.channel <;> rfl
  rw [hOther]
  exact List.filter_append_perm _ lines

end Line

namespace Report

theorem consoleText_onConsole (color : Bool) (channel : Channel) (reports : List Report) :
    consoleText channel (reports.flatMap (onConsole color)) =
      String.join ((Line.textsOn channel (lines reports)).map fun text =>
        Line.consoleText color ⟨channel, text⟩) := by
  refine congrArg String.join ?_
  induction reports with
  | nil => rfl
  | cons r reports ih =>
    rw [List.flatMap_cons, List.filterMap_append, ih]
    cases r with
    | printed line =>
      obtain ⟨c, text⟩ := line
      cases c <;> cases channel <;> rfl
    | _ => rfl

end Report

/-! ## Runs -/

namespace TestSet

theorem recast_run_memory (print color : Bool) (set : TestSet) :
    (set.run print .memory).recast (Report.onConsole color) (fun _ => true) = set.run print (.console color) := by
  refine recast_run (fun _ => rfl) (fun _ => rfl) (fun line => ?_) set
  cases print <;> rfl

theorem afterRun_onConsole (set : TestSet) (color : Bool) (reports : List Report) :
    set.afterRun (reports.flatMap (Report.onConsole color)) = set.afterRun reports := by
  have hMap {α : Type} (g : Report → Option α) (h : ∀ r, (r.onConsole color).filterMap g = (g r).toList) :
      (reports.flatMap (Report.onConsole color)).filterMap g = reports.filterMap g := by
    induction reports with
    | nil => rfl
    | cons r reports ih =>
      rw [List.flatMap_cons, List.filterMap_append, ih, h, List.filterMap_cons]
      cases g r <;> rfl
  simp only [afterRun]
  rw [hMap, hMap]
  · rintro (_ | _ | _ | _) <;> rfl
  · rintro (_ | _ | _ | _) <;> rfl

/-- A run as configured comes to the same as one with the lines captured in memory, however it ends: it has the
same ending and leaves the same set and the same world. What it wrote to the log is each line captured for the
log, with a line break behind it, in this order. So it is on the error channel, where each line is as a whole in
red if colour is on. The lines captured for the two channels make up all that was captured. -/
theorem console_refines_memory (s : Session) (set : TestSet) (noColor : Option String) (config : Config) :
    let r := s.runSet set (set.runWith noColor config)
    let r' := s.runSet set (set.run config.print .memory)
    let captured := Report.lines r'.reports
    let shown (text : String) := if config.color = .always ∨ config.color = .auto ∧ noColor = none then
      Line.red ++ text ++ Line.reset else text
    (r.ending = r'.ending ∧ r.set = r'.set ∧
        { r.session.world with reports := [] } = { r'.session.world with reports := [] }) ∧
      Report.consoleText .log r.reports = String.join ((Line.textsOn .log captured).map (· ++ "\n")) ∧
      Report.consoleText .error r.reports =
        String.join ((Line.textsOn .error captured).map fun text => shown text ++ "\n") ∧
      (∀ channel, ((Line.textsOn channel captured).map (Line.mk channel)).Sublist captured) ∧
      ((Line.textsOn .log captured).map (Line.mk .log) ++
        (Line.textsOn .error captured).map (Line.mk .error)).Perm captured := by
  intro r r' captured shown
  let color := config.color.enabled noColor
  let w : World := { s.world with reports := [] }
  have hAgrees : w.Agrees (fun _ => true) (fun a b => b = a.flatMap (Report.onConsole color)) w :=
    ⟨[], w.events, rfl, rfl, rfl⟩
  obtain ⟨hEnding, reports, events, hWorld, hReports, hEvents⟩ := World.run_recast s.turns s.limit
    (Report.onConsole color) (fun _ => true) (set.run config.print .memory) hAgrees
  rw [recast_run_memory] at hEnding hWorld
  have hReports : r.reports = r'.reports.flatMap (Report.onConsole color) :=
    (congrArg World.reports hWorld).trans hReports
  rw [List.filter_true, List.filter_true] at hEvents
  refine ⟨⟨hEnding, ?_, ?_⟩, ?_, ?_, fun channel => Line.textsOn_sublist channel captured,
    Line.textsOn_perm captured⟩
  · exact (congrArg set.afterRun hReports).trans (set.afterRun_onConsole color r'.reports)
  · exact (congrArg (fun v : World => { v with reports := [] }) hWorld).trans (by rw [hEvents])
  · rw [hReports, Report.consoleText_onConsole]
    rfl
  · rw [hReports, Report.consoleText_onConsole]
    simp only [Line.consoleText, color, ColorChoice.enabled_iff, shown, captured]

end TestSet

end TestBench
