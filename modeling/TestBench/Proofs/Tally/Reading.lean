import TestBench.Proofs.Summary
import TestBench.Proofs.Tally.Sentence
import Mathlib.Data.Set.Function

/-! # Reading a tally off its sentence

The labels in a sentence tell which kinds were counted, and its numbers tell how often. Main statement: two
tallies of recorded kinds have the same sentence only if they are the same (`Tally.sentence_determines_counts`).
-/

namespace TestBench

theorem Text.number_append_blank_inj {m n : Nat} {s s' : String}
    (h : toString m ++ (" " ++ s) = toString n ++ (" " ++ s')) : m = n ∧ s = s' := by
  have hWord (n : Nat) (s : String) :
      (toString n ++ (" " ++ s)).toList.takeWhile Char.isDigit = (toString n).toList := by
    rw [String.toList_append, List.takeWhile_append_of_pos fun c hc => isDigit_of_mem_toString hc,
      String.toList_append]
    exact List.append_nil _
  have hDigits : Nat.toDigits 10 m = Nat.toDigits 10 n := by
    simp only [← Nat.toList_repr, ← Nat.toString_eq_repr]
    rw [← hWord m s, h, hWord]
  obtain rfl : m = n := calc
    m = Nat.ofDigitChars 10 (Nat.toDigits 10 m) 0 := Nat.ofDigitChars_ten_toDigits.symm
    _ = Nat.ofDigitChars 10 (Nat.toDigits 10 n) 0 := by rw [hDigits]
    _ = n := Nat.ofDigitChars_ten_toDigits
  rw [String.append_right_inj, String.append_right_inj] at h
  exact ⟨rfl, h⟩

namespace Tally

variable {t u : Tally}

theorem opening_append_inj {s s' : String} (h : t.opening ++ s = u.opening ++ s') :
    t.total = u.total ∧ s = s' := by
  have hOpening (t : Tally) (s : String) :
      t.opening ++ s = toString t.total ++ (" " ++ ("tests executed: " ++ s)) := by
    have hWords : " tests executed: " = " " ++ "tests executed: " := by decide
    rw [opening, hWords]
    simp only [String.append_assoc]
  rw [hOpening, hOpening] at h
  obtain ⟨hTotal, hRest⟩ := Text.number_append_blank_inj h
  exact ⟨hTotal, (String.append_right_inj _).mp hRest⟩

theorem counted_append_inj {k : Kind} {s s' : String} (h : t.counted k ++ s = u.counted k ++ s') :
    t.count k = u.count k ∧ s = s' := by
  simp only [counted, String.append_assoc] at h
  obtain ⟨hCount, hRest⟩ := Text.number_append_blank_inj h
  exact ⟨hCount, (String.append_right_inj _).mp hRest⟩

theorem count_eq_of_enumerate_eq {kinds : List Kind}
    (h : enumerate (kinds.map t.counted) = enumerate (kinds.map u.counted)) :
    ∀ k ∈ kinds, t.count k = u.count k := by
  induction kinds with
  | nil => exact nofun
  | cons first rest ih =>
    have hFirst : t.count first = u.count first ∧
        enumerate (rest.map t.counted) = enumerate (rest.map u.counted) := by
      rcases rest with _ | ⟨second, _ | ⟨third, rest⟩⟩
      · exact ⟨(counted_append_inj h).1, rfl⟩
      · simp only [List.map_cons, List.map_nil, enumerate, String.append_assoc] at h ⊢
        obtain ⟨hCount, hRest⟩ := counted_append_inj h
        exact ⟨hCount, (String.append_right_inj _).mp hRest⟩
      · simp only [List.map_cons, enumerate_cons_cons_cons, String.append_assoc] at h ⊢
        obtain ⟨hCount, hRest⟩ := counted_append_inj h
        exact ⟨hCount, (String.append_right_inj _).mp hRest⟩
    intro k hk
    rcases List.mem_cons.mp hk with rfl | hk
    · exact hFirst.1
    · exact ih hFirst.2 k hk

theorem present_eq_of_sentence_eq (ht : t.Balanced) (hu : u.Balanced) (h : t.sentence = u.sentence) :
    t.present = u.present := by
  refine List.filter_congr fun k _ => ?_
  rw [decide_eq_decide, ← label_infix_sentence_iff ht, ← label_infix_sentence_iff hu, h]

theorem eq_of_sentence_eq (ht : t.Balanced) (hu : u.Balanced) (h : t.sentence = u.sentence) : t = u := by
  have hPresent := present_eq_of_sentence_eq ht hu h
  refine ext_of_counts ht hu fun k => ?_
  by_cases hk : k ∈ t.present
  · have hTotal : t.total ≠ 0 := by
      rw [ne_eq, ← present_eq_nil_iff ht]
      exact List.ne_nil_of_mem hk
    rcases alone_or_several ht hTotal with ⟨j, hAlone⟩ | hSeveral
    · -- the only clause has no number, but the total is the count
      obtain rfl : k = j := List.mem_singleton.mp (hAlone ▸ hk)
      have hAlone' : u.present = [k] := hPresent ▸ hAlone
      rw [sentence_of_alone ht hAlone, sentence_of_alone hu hAlone'] at h
      simp only [String.append_assoc] at h
      have hTotals := (opening_append_inj h).1
      rw [(present_eq_singleton_iff ht (mem_present_iff.mp hk)).mp hAlone,
        (present_eq_singleton_iff hu (mem_present_iff.mp (hPresent ▸ hk))).mp hAlone', hTotals]
    · have hSeveral' : 2 ≤ u.present.length := hPresent ▸ hSeveral
      rw [sentence_of_several ht hSeveral, sentence_of_several hu hSeveral', ← hPresent] at h
      exact count_eq_of_enumerate_eq (opening_append_inj h).2 k hk
  · have hk' : k ∉ u.present := hPresent ▸ hk
    rw [mem_present_iff] at hk hk'
    omega

/-- Tallies of recorded kinds that have the same sentence are the same, so summaries with different counts never
have the same line. -/
theorem sentence_determines_counts :
    (Set.range ofKinds).InjOn sentence ∧
      ∀ steps steps', ∀ s ∈ Summary.afterSteps steps, ∀ s' ∈ Summary.afterSteps steps',
        s.tally ≠ s'.tally → s.line.text ≠ s'.line.text := by
  constructor
  · rintro _ ⟨kinds, rfl⟩ _ ⟨kinds', rfl⟩ hSentence
    exact eq_of_sentence_eq (balanced_ofKinds kinds) (balanced_ofKinds kinds') hSentence
  · intro steps steps' s hs s' hs' hTally hLine
    obtain ⟨kinds, hKinds⟩ := Summary.tally_of_mem_afterSteps hs
    obtain ⟨kinds', hKinds'⟩ := Summary.tally_of_mem_afterSteps hs'
    refine hTally (eq_of_sentence_eq ?_ ?_ hLine)
    · exact hKinds ▸ balanced_ofKinds kinds
    · exact hKinds' ▸ balanced_ofKinds kinds'

/-- The order in which kinds are recorded does not show, but the kind of a single outcome does. -/
theorem sentence_determines_counts_of_single :
    let t := ofKinds [.pass, .fail, .pass]
    let u := ofKinds [.fail, .pass, .pass]
    let o : Outcome := ⟨1, "reads", .fail, none⟩
    let p : Outcome := ⟨1, "reads", .error, some "gone"⟩
    let s := (({} : Summary).add o).2
    let s' := (({} : Summary).add p).2
    t.sentence = u.sentence ∧ t = u ∧ s ∈ Summary.afterSteps [.add 0 o] ∧
      s' ∈ Summary.afterSteps [.add 0 p] ∧ s.line.text ≠ s'.line.text := by
  intro t u o p s s'
  obtain ⟨hInjective, hLines⟩ := sentence_determines_counts
  have hSentence : t.sentence = u.sentence := rfl
  have hs : s ∈ Summary.afterSteps [.add 0 o] := List.mem_singleton_self _
  have hs' : s' ∈ Summary.afterSteps [.add 0 p] := List.mem_singleton_self _
  refine ⟨hSentence, hInjective ⟨_, rfl⟩ ⟨_, rfl⟩ hSentence, hs, hs', hLines _ _ s hs s' hs' ?_⟩
  decide

end Tally

end TestBench
