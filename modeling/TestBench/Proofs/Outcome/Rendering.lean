import TestBench.Proofs.Case.Isolation

/-! # Reading an outcome off its text

The text of an outcome opens with its kind, then comes the name of the test, and a separator in front of the
cause if there is one. Main statement: as long as no name contains the separator, outcomes with the same text
are of the same kind, test and cause, whatever is in their causes, and the printed line is this text
(`Outcome.render_determines`).
-/

namespace TestBench

/-- A part without the separator ends where the separator occurs. As the separator's first character does not
come again in it, no two of its occurrences overlap. -/
theorem Text.eq_nil_of_separator {α : Type} {x : α} {t part more c c' : List α} (hx : x ∉ t)
    (hPart : ¬ x :: t <:+: part ++ more) (h : x :: t ++ c = more ++ (x :: t ++ c')) : more = [] := by
  rcases more with _ | ⟨y, more⟩
  · rfl
  · obtain ⟨rfl, hTail⟩ := List.cons.inj h
    rw [← List.append_eq] at hTail
    obtain ⟨rest, rfl, -⟩ | ⟨rest, rfl, hRest⟩ := List.append_eq_append_iff.mp hTail
    · exact absurd ⟨part, rest, by simp⟩ hPart
    · rcases rest with _ | ⟨z, rest⟩
      · exact absurd ⟨part, [], by simp⟩ hPart
      · obtain ⟨rfl, -⟩ := List.cons.inj hRest
        simp at hx

/-- The first occurrence of the separator is found, also if the parts around it look like pieces of it. -/
theorem Text.append_separator_inj {α : Type} {x : α} {t part part' c c' : List α} (hx : x ∉ t)
    (hPart : ¬ x :: t <:+: part) (hPart' : ¬ x :: t <:+: part')
    (h : part ++ (x :: t ++ c) = part' ++ (x :: t ++ c')) : part = part' ∧ c = c' := by
  have hSame : part = part' := by
    obtain ⟨more, rfl, hRest⟩ | ⟨more, rfl, hRest⟩ := List.append_eq_append_iff.mp h
    · rw [eq_nil_of_separator hx hPart' hRest, List.append_nil]
    · rw [eq_nil_of_separator hx hPart hRest, List.append_nil]
  subst hSame
  exact ⟨rfl, List.append_cancel_left (List.append_cancel_left h)⟩

namespace Outcome

def separator : String := ": \n  - "

def opening (k : Kind) : String := String.singleton k.symbol ++ " [" ++ k.label ++ "] "

def reason (cause : Option String) : String := cause.elim "" (separator ++ ·)

theorem render_eq (o : Outcome) : o.render = opening o.kind ++ (o.test ++ reason o.cause) := by
  rw [← String.append_assoc]
  cases h : o.cause <;> simp [render, h, opening, reason, separator]

theorem opening_append_inj {k j : Kind} {s s' : String} (h : opening k ++ s = opening j ++ s') :
    k = j ∧ s = s' := by
  -- the symbol and the first letter of the label tell the kinds apart
  have hShort (k : Kind) (s : String) : (opening k ++ s).toList.take 4 = (opening k).toList.take 4 := by
    rw [String.toList_append, List.take_append_of_le_length]
    cases k <;> decide
  have hTake : (opening k).toList.take 4 = (opening j).toList.take 4 := by
    rw [← hShort k s, h, hShort]
  obtain rfl : k = j := by
    revert hTake
    cases k <;> cases j <;> decide
  exact ⟨rfl, (String.append_right_inj _).mp h⟩

theorem test_append_reason_inj {n n' : String} {cause cause' : Option String}
    (hn : ¬ separator.toList <:+: n.toList) (hn' : ¬ separator.toList <:+: n'.toList)
    (h : n ++ reason cause = n' ++ reason cause') : n = n' ∧ cause = cause' := by
  have hAlone {n : String} (hn : ¬ separator.toList <:+: n.toList) (n' c : String) : n ≠ n' ++ (separator ++ c) := by
    rintro rfl
    exact hn ⟨n'.toList, c.toList, by simp⟩
  rcases cause with _ | c <;> rcases cause' with _ | c'
  · exact ⟨by simpa [reason] using h, rfl⟩
  · exact absurd (by simpa [reason] using h) (hAlone hn n' c')
  · exact absurd (by simpa [reason] using h.symm) (hAlone hn' n c)
  · have hChars :
        n.toList ++ (separator.toList ++ c.toList) = n'.toList ++ (separator.toList ++ c'.toList) := by
      simpa [reason] using congrArg String.toList h
    obtain ⟨hName, hCause⟩ := Text.append_separator_inj (x := ':') (by decide) hn hn' hChars
    exact ⟨String.toList_inj.mp hName, congrArg some (String.toList_inj.mp hCause)⟩

theorem symbol_prefix_render_iff (o : Outcome) : ['✓'] <+: o.render.toList ↔ o.kind = .pass := by
  have hOpening (k : Kind) : (opening k).toList = k.symbol :: (" [" ++ k.label ++ "] ").toList := by
    cases k <;> decide
  rw [render_eq, String.toList_append, hOpening, List.cons_append, List.cons_prefix_cons]
  cases o.kind <;> simp [Kind.symbol]

theorem run_put (turns : Nat) (limit : Option Nat) (sink : Sink) (line : Line) (w : World) :
    World.run turns limit (sink.put line) w = (.finished (), { w with
      reports := w.reports ++ sink.reports true line
      events := w.events ++ sink.events true [] line }) ∧
    (sink.reports true line).length + (sink.events true [] line).length = 1 := by
  cases sink <;> simp [World.run, World.turnMain, Sink.put, Async.tell, Async.announce, Program.turn,
    Sink.reports, Sink.events]

/-- Outcomes whose tests have no separator in their names have the same text only if kind, test and cause are
the same; the causes may be any texts, or absent. What is printed of an outcome is its text in one call of the
sink, and it goes to the log exactly if it begins with the symbol of a pass. -/
theorem render_determines :
    (∀ o p : Outcome, ¬ separator.toList <:+: o.test.toList → ¬ separator.toList <:+: p.test.toList →
      o.render = p.render → o.kind = p.kind ∧ o.test = p.test ∧ o.cause = p.cause) ∧
    ∀ o : Outcome, ∃ channel : Channel, (channel = .log ↔ ['✓'] <+: o.render.toList) ∧
      ∀ (sink : Sink) (turns : Nat) (limit : Option Nat) (w : World),
        World.run turns limit (sink.put o.line) w = (.finished (), { w with
          reports := w.reports ++ sink.reports true ⟨channel, o.render⟩
          events := w.events ++ sink.events true [] ⟨channel, o.render⟩ }) ∧
        (sink.reports true ⟨channel, o.render⟩).length + (sink.events true [] ⟨channel, o.render⟩).length = 1 := by
  constructor
  · intro o p ho hp hText
    rw [render_eq, render_eq] at hText
    obtain ⟨hKind, hRest⟩ := opening_append_inj hText
    obtain ⟨hTest, hCause⟩ := test_append_reason_inj ho hp hRest
    exact ⟨hKind, hTest, hCause⟩
  · intro o
    refine ⟨o.line.channel, ?_, fun sink turns limit w => run_put turns limit sink o.line w⟩
    rw [symbol_prefix_render_iff, line]
    split <;> simp_all

/-- The name ends with the beginning of a separator, and the cause begins with one. -/
theorem render_determines_of_pieces :
    let o := make 1 "reads: \n  -" .fail (some ": \n  - low")
    let p := make 2 "reads: \n  -" .fail (some ": \n  - low")
    ¬ separator.toList <:+: o.test.toList ∧ o.render = p.render ∧ o.kind = p.kind ∧ o.cause = p.cause := by
  intro o p
  have hName : ¬ separator.toList <:+: o.test.toList := by
    simp [separator, o, make, List.infix_cons_iff]
  obtain ⟨hKind, -, hCause⟩ := render_determines.1 o p hName hName rfl
  exact ⟨hName, rfl, hKind, hCause⟩

/-- A name with a separator in it may be taken for a shorter one with a cause. -/
example : (make 1 "reads: \n  - low" .fail none).render = (make 2 "reads" .fail (some "low")).render := by
  decide

end Outcome

end TestBench
