import TestBench.Proofs.Set.Printing

/-! # The lines of a run

What a run that returns a summary hands to its sink: with printing the line of each outcome, in the order of
the tests, and then the line of the summary (`TestSet.lines_of_ends_run`).
-/

namespace TestBench

open World

def World.lines (w : World) : List Report := w.reports.filter (·.isLine)

variable {limit : Option Nat} {w w' : World}

theorem World.lines_of_append (reports : List Report) (h : w'.reports = w.reports ++ reports) :
    w'.lines = w.lines ++ reports.filter (·.isLine) := by
  rw [World.lines, h, List.filter_append, World.lines]

theorem World.lines_of_reports_eq (h : w'.reports = w.reports) : w'.lines = w.lines ++ [] :=
  lines_of_append [] (h.trans (List.append_nil _).symm)

theorem Hook.lines_of_ends_run {h : Hook} {spans : List Span} {e : Ending Result}
    (hEnds : Ends limit (h.run.under spans) w e w') : w'.lines = w.lines ++ [] :=
  lines_of_reports_eq (hEnds.reports_eq (h.silent_run spans))

theorem Case.lines_of_does {spans : List Span} {c : Case} {part : Part} (h : c.Does limit spans part w w') :
    w'.lines = w.lines ++ [] := by
  cases part with
  | setup e => exact h.elim fun _ h => Hook.lines_of_ends_run h.2
  | body e => exact Hook.lines_of_ends_run h
  | teardown e => exact h.elim fun _ h => Hook.lines_of_ends_run h.2
  | noted n => exact lines_of_reports_eq (by rw [h])
  | numbered o => exact lines_of_reports_eq (by rw [h.2])
  | recorded o => exact lines_of_append [.outcome o] (congrArg reports h)

namespace TestSet

variable {print : Bool} {sink : Sink} {set : TestSet}

def Part.lines (sink : Sink) : Part → List Report
  | .printed line => sink.reports true line
  | _ => []

theorem lines_of_put {line : Line} {events : List Event}
    (h : w' = { w with reports := w.reports ++ sink.reports true line, events := w.events ++ events }) :
    w'.lines = w.lines ++ sink.reports true line := by
  rw [lines_of_append (sink.reports true line) (congrArg reports h)]
  cases sink <;> rfl

theorem lines_of_ends_emit {line : Line} (h : Ends limit (emit print sink line) w (.finished ()) w') :
    w'.lines = w.lines ++ if print then sink.reports true line else [] := by
  cases print with
  | false =>
    obtain ⟨-, rfl⟩ := h
    exact lines_of_reports_eq rfl
  | true =>
    have hPut : Ends limit ((sink.put line).under []) w (.finished ()) w' := h
    exact lines_of_put (Sink.ends_put_iff.mp hPut).2

theorem lines_of_does {part : Part} (h : set.Does limit sink part w w') :
    w'.lines = w.lines ++ part.lines sink := by
  cases part with
  | setup e => exact h.elim fun _ h => Hook.lines_of_ends_run h.2
  | test i part => exact h.elim fun _ h => Case.lines_of_does h.2
  | printed line => exact lines_of_put h
  | teardown e => exact h.elim fun _ h => Hook.lines_of_ends_run h.2
  | noted n => exact lines_of_reports_eq (by rw [h])
  | kept s => exact lines_of_append [.summary s] (congrArg reports h)

theorem lines_of_chain {parts : List Part} (h : Chain (set.Does limit sink) parts w w') :
    w'.lines = w.lines ++ parts.flatMap (Part.lines sink) := by
  induction parts generalizing w with
  | nil => exact h ▸ (List.append_nil _).symm
  | cons part parts ih =>
    obtain ⟨w₁, hPart, hRest⟩ := h
    rw [ih hRest, lines_of_does hPart, List.flatMap_cons, List.append_assoc]

theorem flatMap_lines_eq_nil {α : Type} {parts : List α} {f : α → Part} (h : ∀ a, (f a).lines sink = []) :
    (parts.map f).flatMap (Part.lines sink) = [] := by
  rw [List.flatMap_map]
  exact List.flatMap_eq_nil_iff.mpr fun a _ => h a

theorem lines_printing (line : Line) :
    (printing print line).flatMap (Part.lines sink) = if print then sink.reports true line else [] := by
  cases print with
  | false => rfl
  | true => exact List.append_nil _

theorem lines_testing (i : Nat) (tests : List (Case.Course × Outcome)) :
    (testing print i tests).flatMap (Part.lines sink) =
      if print then (tests.map (·.2.line)).flatMap (sink.reports true) else [] := by
  induction tests generalizing i with
  | nil => cases print <;> rfl
  | cons x tests ih =>
    obtain ⟨k, o⟩ := x
    rw [testing, List.flatMap_append, List.flatMap_append, flatMap_lines_eq_nil fun _ => rfl, lines_printing, ih]
    cases print <;> simp [Outcome.line]

/-- With printing a run that returns a summary hands the lines of its outcomes to the sink, in the order of the
tests, and then that of the summary. -/
theorem lines_of_ends_run {s : Summary} (h : Ends limit (set.run print sink) w (.finished (.ok s)) w') :
    w'.lines = w.lines ++
      if print then (s.results.map Outcome.line ++ [s.line]).flatMap (sink.reports true) else [] := by
  obtain ⟨k, -, hEnding, hChain⟩ := (ends_run_iff (e := .finished (.ok s)) nofun).mp h
  rcases k with (q | f) | ⟨setup, tests, teardown⟩
  · cases hEnding
  · cases hEnding
  · have hAfter : s = Course.summary tests ∧ (aftermath (Course.summary tests) teardown).flatMap
        (Part.lines sink) = [] := by
      rcases teardown with _ | q | f | ⟨⟩ <;> cases hEnding <;> exact ⟨rfl, rfl⟩
    obtain ⟨rfl, hAftermath⟩ := hAfter
    have hResults : (Course.summary tests).results.map Outcome.line = tests.map (·.2.line) := by
      simp [Course.summary, Summary.ofOutcomes]
    rw [lines_of_chain hChain, Course.parts]
    simp only [List.flatMap_append, hAftermath, lines_testing, lines_printing,
      flatMap_lines_eq_nil (f := Part.setup) fun _ => rfl, flatMap_lines_eq_nil (f := Part.teardown) fun _ => rfl,
      hResults]
    cases print <;> simp [Summary.line, Course.summary, Summary.ofOutcomes]

end TestSet

end TestBench
