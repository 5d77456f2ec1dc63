import TestBench.Proofs.Tally.Counts
import Mathlib.Data.List.Basic

/-! # How a tally is worded

The sentence of a tally gives the total and then one clause for each kind that was counted at all. Main
statement: the sentence of any tally of recorded kinds is worded in this way, and it has the label of a
kind in it exactly if the kind was counted (`Tally.sentence_worded`).
-/

namespace TestBench

/-! ## Numbers in a text -/

namespace Text

theorem isDigit_of_mem_toString {n : Nat} {c : Char} (h : c ∈ (toString n).toList) : c.isDigit := by
  rw [Nat.toString_eq_repr, Nat.toList_repr] at h
  exact Nat.isDigit_of_mem_toDigits (by decide) (by decide) h

theorem exists_toString_eq (n : Nat) : ∃ d digits, (toString n).toList = d :: digits ∧ d.isDigit := by
  obtain ⟨d, digits, hDigits⟩ := List.exists_cons_of_ne_nil (Nat.toDigits_ne_nil (n := n) (b := 10))
  have hList : (toString n).toList = d :: digits := by
    rw [Nat.toString_eq_repr, Nat.toList_repr, hDigits]
  refine ⟨d, digits, hList, isDigit_of_mem_toString (n := n) ?_⟩
  rw [hList]
  exact List.mem_cons_self

theorem uppercase_of_isDigit {c : Char} (h : c.isDigit) : uppercase c = [c] := by
  have hBounds := Char.isDigit_iff_toNat.mp h
  have hNine : '9'.toNat = 57 := rfl
  have hAscii : c.toNat < 128 := by omega
  have hUpper : c.toUpper = c := by
    refine dif_neg fun hLower => ?_
    have hSmall : 'a'.toNat ≤ c.toNat := UInt32.le_iff_toNat_le.mp hLower.1
    have hA : 'a'.toNat = 97 := rfl
    omega
  rw [uppercase, if_pos hAscii, hUpper]

theorem capitalize_number (n : Nat) (s : String) : capitalize (toString n ++ s) = toString n ++ s := by
  obtain ⟨d, digits, hDigits, hDigit⟩ := exists_toString_eq n
  rw [← String.toList_inj, toList_capitalize, String.toList_append, hDigits, List.cons_append,
    capitalizeChars, uppercase_of_isDigit hDigit]
  rfl

theorem capitalize_all (s : String) : capitalize ("all " ++ s) = "All " ++ s := by
  rw [← String.toList_inj, toList_capitalize, String.toList_append, String.toList_append]
  rfl

end Text

/-- The letter that the label of a kind begins with. No other text of a sentence has it. -/
def Kind.initial : Kind → Char
  | .pass => 'p'
  | .fail => 'f'
  | .error => 'w'

theorem Kind.initial_mem_tallyLabel_iff {k j : Kind} : k.initial ∈ j.tallyLabel.toList ↔ k = j := by
  cases k <;> cases j <;> decide

namespace Tally

variable {t : Tally} {k : Kind}

def present (t : Tally) : List Kind := Kind.all.filter (0 < t.count ·)

def counted (t : Tally) (k : Kind) : String := toString (t.count k) ++ " " ++ k.tallyLabel

def opening (t : Tally) : String := toString t.total ++ " tests executed: "

/-- How a sentence reads. -/
structure Worded (t : Tally) : Prop where
  empty : t.present.length = 0 ↔ t.total = 0
  nothing : t.total = 0 ↔ t.sentence = "No tests executed."
  alone : ∀ k, t.present = [k] → t.sentence = t.opening ++ "All " ++ k.tallyLabel ++ "."
  several : ∀ lead last, lead ≠ [] → t.present = lead ++ [last] →
    t.sentence = t.opening ++ ", ".intercalate (lead.map t.counted) ++ " and " ++ t.counted last ++ "."
  /-- No other clause has the word "all", and only this word gets a capital. -/
  all : ∀ k ∈ t.present, t.clause k = "all " ++ k.tallyLabel ↔ t.present.length = 1
  count : ∀ k ∈ t.present, t.clause k = t.counted k ↔ 2 ≤ t.present.length
  capital : Text.capitalize (enumerate t.clauses) ≠ enumerate t.clauses ↔ t.present.length = 1
  fullStop : ∃ text, t.sentence = text ++ "." ∧ '.' ∉ text.toList
  labels : ∀ k, k.tallyLabel.toList <:+: t.sentence.toList ↔ 0 < t.count k
  clauses : t.total ≠ 0 → t.clauses ≠ []

/-! ## The kinds that are present -/

theorem mem_present_iff : k ∈ t.present ↔ 0 < t.count k := by
  simp [present, Kind.mem_all]

theorem present_eq_nil_iff (h : t.Balanced) : t.present = [] ↔ t.total = 0 := by
  rw [List.eq_nil_iff_forall_not_mem]
  simp only [mem_present_iff, Nat.not_lt, Nat.le_zero]
  constructor
  · intro hZero
    rw [h, show t.passed = 0 from hZero .pass, show t.failed = 0 from hZero .fail,
      show t.errors = 0 from hZero .error]
  · intro hTotal k
    rw [Balanced, hTotal] at h
    cases k <;> simp only [Tally.count] <;> omega

theorem present_eq_singleton_iff (h : t.Balanced) (hk : 0 < t.count k) :
    t.present = [k] ↔ t.count k = t.total := by
  have hPresent : t.present = (if 0 < t.passed then [.pass] else []) ++
      (if 0 < t.failed then [.fail] else []) ++ if 0 < t.errors then [.error] else [] := by
    simp only [present, Kind.all, List.filter_cons, List.filter_nil, Tally.count]
    split_ifs <;> simp_all
  rw [hPresent, h]
  cases k <;> simp only [Tally.count] at hk ⊢ <;> split_ifs <;> simp <;> omega

theorem length_present_eq_one_iff (h : t.Balanced) (hk : k ∈ t.present) :
    t.present.length = 1 ↔ t.count k = t.total := by
  rw [← present_eq_singleton_iff h (mem_present_iff.mp hk), List.length_eq_one_iff]
  constructor
  · rintro ⟨j, hj⟩
    rw [hj] at hk ⊢
    rw [List.mem_singleton.mp hk]
  · exact fun hAlone => ⟨k, hAlone⟩

/-! ## Clauses -/

theorem counted_ne_all : t.counted k ≠ "all " ++ k.tallyLabel := by
  intro hEq
  obtain ⟨d, digits, hDigits, hDigit⟩ := Text.exists_toString_eq (t.count k)
  simp only [counted, ← String.toList_inj, String.toList_append, List.append_assoc, hDigits] at hEq
  obtain rfl : d = 'a' := List.head_eq_of_cons_eq hEq
  exact absurd hDigit (by decide)

theorem clause_eq_all_iff : t.clause k = "all " ++ k.tallyLabel ↔ t.count k = t.total := by
  rw [clause]
  split
  · simp_all
  · rename_i hLess
    exact iff_of_false counted_ne_all hLess

theorem clause_eq_counted_iff : t.clause k = t.counted k ↔ t.count k ≠ t.total := by
  rw [clause]
  split
  · rename_i hAll
    exact iff_of_false (fun hEq => counted_ne_all hEq.symm) (not_not_intro hAll)
  · rename_i hLess
    exact iff_of_true rfl hLess

theorem clauses_eq (t : Tally) : t.clauses = t.present.map t.clause := rfl

theorem clauses_of_several (h : t.Balanced) (hSeveral : 2 ≤ t.present.length) :
    t.clauses = t.present.map t.counted := by
  refine List.map_congr_left fun k hk => clause_eq_counted_iff.mpr fun hAll => ?_
  have hOne := (length_present_eq_one_iff h hk).mpr hAll
  omega

theorem enumerate_cons_cons_cons (first second third : String) (rest : List String) :
    enumerate (first :: second :: third :: rest) = first ++ ", " ++ enumerate (second :: third :: rest) := by
  rw [enumerate] <;> simp

theorem enumerate_concat {lead : List String} (h : lead ≠ []) (last : String) :
    enumerate (lead ++ [last]) = ", ".intercalate lead ++ " and " ++ last ++ "." := by
  induction lead with
  | nil => exact absurd rfl h
  | cons first rest ih =>
    cases rest with
    | nil => simp [enumerate]
    | cons second rest =>
      obtain ⟨third, others, hOthers⟩ := List.exists_cons_of_ne_nil (List.concat_ne_nil last rest)
      have hRest := ih (List.cons_ne_nil _ _)
      rw [List.cons_append, hOthers] at hRest
      rw [List.cons_append, List.cons_append, hOthers, enumerate_cons_cons_cons, hRest,
        String.intercalate_cons_cons]
      simp only [String.append_assoc]

/-- An enumeration has one full stop, at its end, and before it the clauses and what joins them. -/
theorem exists_enumerate_eq {clauses : List String} (h : clauses ≠ []) :
    ∃ text, enumerate clauses = text ++ "." ∧
      ∀ c ∈ text.toList, c ∈ ", and".toList ∨ ∃ clause ∈ clauses, c ∈ clause.toList := by
  fun_induction enumerate clauses with
  | case1 => exact absurd rfl h
  | case2 last => exact ⟨last, rfl, fun c hc => .inr ⟨last, List.mem_singleton_self _, hc⟩⟩
  | case3 first last =>
    refine ⟨first ++ " and " ++ last, rfl, fun c hc => ?_⟩
    simp only [String.toList_append, List.mem_append] at hc
    rcases hc with (hc | hc) | hc
    · exact .inr ⟨first, by simp, hc⟩
    · exact .inl ((by decide : " and ".toList ⊆ ", and".toList) hc)
    · exact .inr ⟨last, by simp, hc⟩
  | case4 first rest hOne hTwo ih =>
    obtain ⟨text, hText, hParts⟩ := ih hOne
    refine ⟨first ++ ", " ++ text, by simp only [hText, String.append_assoc], fun c hc => ?_⟩
    simp only [String.toList_append, List.mem_append] at hc
    rcases hc with (hc | hc) | hc
    · exact .inr ⟨first, by simp, hc⟩
    · exact .inl ((by decide : ", ".toList ⊆ ", and".toList) hc)
    · exact (hParts c hc).imp id fun ⟨clause, hClause, hMem⟩ => ⟨clause, by simp [hClause], hMem⟩

theorem infix_enumerate {clauses : List String} {clause : String} (h : clause ∈ clauses) :
    clause.toList <:+: (enumerate clauses).toList := by
  fun_induction enumerate clauses with
  | case1 => cases h
  | case2 last =>
    obtain rfl := List.mem_singleton.mp h
    exact ⟨[], ".".toList, by simp⟩
  | case3 first last =>
    rcases List.mem_pair.mp h with rfl | rfl
    · exact ⟨[], (" and " ++ last ++ ".").toList, by simp⟩
    · exact ⟨(first ++ " and ").toList, ".".toList, by simp⟩
  | case4 first rest hOne hTwo ih =>
    rcases List.mem_cons.mp h with rfl | h
    · exact ⟨[], (", " ++ enumerate rest).toList, by simp⟩
    · rw [String.toList_append]
      exact (ih h).trans (List.suffix_append _ _).isInfix

theorem exists_enumerate_cons_eq (first : String) (rest : List String) :
    ∃ s, enumerate (first :: rest) = first ++ s := by
  rcases rest with _ | ⟨second, _ | ⟨third, rest⟩⟩
  · exact ⟨".", rfl⟩
  · exact ⟨" and " ++ second ++ ".", by simp only [enumerate, String.append_assoc]⟩
  · exact ⟨", " ++ enumerate (second :: third :: rest), by rw [enumerate_cons_cons_cons, String.append_assoc]⟩

theorem capitalize_of_several (h : t.Balanced) (hSeveral : 2 ≤ t.present.length) :
    Text.capitalize (enumerate t.clauses) = enumerate (t.present.map t.counted) := by
  rw [clauses_of_several h hSeveral]
  cases hPresent : t.present with
  | nil => simp [hPresent] at hSeveral
  | cons k rest =>
    obtain ⟨s, hStart⟩ := exists_enumerate_cons_eq (t.counted k) (rest.map t.counted)
    rw [List.map_cons, hStart, counted, String.append_assoc, String.append_assoc, Text.capitalize_number]

theorem clauses_of_alone (h : t.Balanced) (hAlone : t.present = [k]) :
    t.clauses = ["all " ++ k.tallyLabel] := by
  have hk : 0 < t.count k := by
    rw [← mem_present_iff, hAlone]
    exact List.mem_singleton_self k
  rw [clauses_eq, hAlone, List.map_singleton,
    clause_eq_all_iff.mpr ((present_eq_singleton_iff h hk).mp hAlone)]

theorem capitalize_of_alone (h : t.Balanced) (hAlone : t.present = [k]) :
    Text.capitalize (enumerate t.clauses) = "All " ++ k.tallyLabel ++ "." := by
  rw [clauses_of_alone h hAlone, enumerate, String.append_assoc, Text.capitalize_all, String.append_assoc]

/-! ## Sentences -/

theorem sentence_of_total_ne (h : t.total ≠ 0) :
    t.sentence = t.opening ++ Text.capitalize (enumerate t.clauses) := if_neg h

theorem nothingRun_ne (n : Nat) (s : String) : nothingRun ≠ toString n ++ s := by
  intro hEq
  obtain ⟨d, digits, hDigits, hDigit⟩ := Text.exists_toString_eq n
  rw [← String.toList_inj, String.toList_append, hDigits] at hEq
  obtain rfl : 'N' = d := List.head_eq_of_cons_eq hEq
  exact absurd hDigit (by decide)

theorem total_eq_zero_iff : t.total = 0 ↔ t.sentence = nothingRun := by
  constructor
  · exact fun hZero => if_pos hZero
  · intro hNothing
    by_contra hTotal
    rw [sentence_of_total_ne hTotal, opening, String.append_assoc] at hNothing
    exact nothingRun_ne _ _ hNothing.symm

theorem alone_or_several (h : t.Balanced) (hTotal : t.total ≠ 0) :
    (∃ k, t.present = [k]) ∨ 2 ≤ t.present.length := by
  have hSome : t.present.length ≠ 0 := by
    rw [ne_eq, List.length_eq_zero_iff, present_eq_nil_iff h]
    exact hTotal
  rw [← List.length_eq_one_iff]
  omega

theorem sentence_of_alone (h : t.Balanced) (hAlone : t.present = [k]) :
    t.sentence = t.opening ++ "All " ++ k.tallyLabel ++ "." := by
  have hTotal : t.total ≠ 0 := by
    rw [ne_eq, ← present_eq_nil_iff h, hAlone]
    exact List.cons_ne_nil _ _
  rw [sentence_of_total_ne hTotal, capitalize_of_alone h hAlone]
  simp only [String.append_assoc]

theorem sentence_of_several (h : t.Balanced) (hSeveral : 2 ≤ t.present.length) :
    t.sentence = t.opening ++ enumerate (t.present.map t.counted) := by
  have hTotal : t.total ≠ 0 := by
    rw [ne_eq, ← present_eq_nil_iff h, ← List.length_eq_zero_iff]
    omega
  rw [sentence_of_total_ne hTotal, capitalize_of_several h hSeveral]

theorem capitalize_ne_iff (h : t.Balanced) :
    Text.capitalize (enumerate t.clauses) ≠ enumerate t.clauses ↔ t.present.length = 1 := by
  by_cases hTotal : t.total = 0
  · have hNone : t.present = [] := (present_eq_nil_iff h).mpr hTotal
    rw [clauses_eq, hNone, List.map_nil, enumerate]
    exact iff_of_false (not_not_intro rfl) Nat.zero_ne_one
  rcases alone_or_several h hTotal with ⟨k, hAlone⟩ | hSeveral
  · rw [capitalize_of_alone h hAlone, clauses_of_alone h hAlone, hAlone]
    refine iff_of_true (fun hEq => ?_) rfl
    simp only [enumerate, ← String.toList_inj, String.toList_append, List.append_assoc] at hEq
    have hFirst : 'A' = 'a' := List.head_eq_of_cons_eq hEq
    exact absurd hFirst (by decide)
  · rw [capitalize_of_several h hSeveral, clauses_of_several h hSeveral]
    refine iff_of_false (not_not_intro rfl) ?_
    omega

/-- The words of a sentence that do not depend on what was counted. -/
def words : String := "No tests executed: All, and"

/-- The characters of a sentence before its full stop are those of numbers, of these words, and of the labels
of what was counted. -/
def Spells (t : Tally) (c : Char) : Prop :=
  c.isDigit ∨ c ∈ words.toList ∨ ∃ k ∈ t.present, c ∈ k.tallyLabel.toList

theorem spells_of_words {s : String} {c : Char} (hWords : s.toList ⊆ words.toList) (hc : c ∈ s.toList) :
    t.Spells c :=
  .inr (.inl (hWords hc))

theorem not_spells_fullStop (t : Tally) : ¬ t.Spells '.' := by
  rintro (hDigit | hWord | ⟨k, -, hLabel⟩)
  · exact absurd hDigit (by decide)
  · exact absurd hWord (by decide)
  · revert hLabel
    cases k <;> decide

theorem present_of_spells_initial (h : t.Spells k.initial) : k ∈ t.present := by
  rcases h with hDigit | hWord | ⟨j, hj, hLabel⟩
  · cases k <;> exact absurd hDigit (by decide)
  · cases k <;> exact absurd hWord (by decide)
  · rwa [Kind.initial_mem_tallyLabel_iff.mp hLabel]

theorem spells_of_mem_counted {c : Char} (hk : k ∈ t.present) (hc : c ∈ (t.counted k).toList) :
    t.Spells c := by
  simp only [counted, String.toList_append, List.mem_append] at hc
  rcases hc with (hc | hc) | hc
  · exact .inl (Text.isDigit_of_mem_toString hc)
  · exact spells_of_words (by decide) hc
  · exact .inr (.inr ⟨k, hk, hc⟩)

theorem spells_of_mem_opening {c : Char} (hc : c ∈ t.opening.toList) : t.Spells c := by
  rw [opening, String.toList_append, List.mem_append] at hc
  rcases hc with hc | hc
  · exact .inl (Text.isDigit_of_mem_toString hc)
  · exact spells_of_words (by decide) hc

theorem exists_sentence_eq (h : t.Balanced) :
    ∃ text, t.sentence = text ++ "." ∧ ∀ c ∈ text.toList, t.Spells c := by
  by_cases hTotal : t.total = 0
  · refine ⟨"No tests executed", total_eq_zero_iff.mp hTotal, fun c hc => ?_⟩
    exact spells_of_words (by decide) hc
  rcases alone_or_several h hTotal with ⟨k, hAlone⟩ | hSeveral
  · refine ⟨_, sentence_of_alone h hAlone, fun c hc => ?_⟩
    simp only [String.toList_append, List.mem_append] at hc
    rcases hc with (hc | hc) | hc
    · exact spells_of_mem_opening hc
    · exact spells_of_words (by decide) hc
    · exact .inr (.inr ⟨k, by simp [hAlone], hc⟩)
  · have hClauses : t.present.map t.counted ≠ [] := by
      rw [ne_eq, List.map_eq_nil_iff, ← List.length_eq_zero_iff]
      omega
    obtain ⟨text, hText, hParts⟩ := exists_enumerate_eq hClauses
    have hSentence : t.sentence = t.opening ++ text ++ "." := by
      rw [sentence_of_several h hSeveral, hText, String.append_assoc]
    refine ⟨_, hSentence, fun c hc => ?_⟩
    rw [String.toList_append, List.mem_append] at hc
    rcases hc with hc | hc
    · exact spells_of_mem_opening hc
    rcases hParts c hc with hJoint | ⟨clause, hClause, hMem⟩
    · exact spells_of_words (by decide) hJoint
    · obtain ⟨k, hk, rfl⟩ := List.mem_map.mp hClause
      exact spells_of_mem_counted hk hMem

theorem label_infix_sentence_iff (h : t.Balanced) :
    k.tallyLabel.toList <:+: t.sentence.toList ↔ 0 < t.count k := by
  rw [← mem_present_iff]
  constructor
  · intro hLabel
    obtain ⟨text, hText, hSpells⟩ := exists_sentence_eq h
    have hInitial : k.initial ∈ t.sentence.toList :=
      hLabel.subset (Kind.initial_mem_tallyLabel_iff.mpr rfl)
    rw [hText, String.toList_append, List.mem_append] at hInitial
    rcases hInitial with hInitial | hInitial
    · exact present_of_spells_initial (hSpells _ hInitial)
    · cases k <;> exact absurd hInitial (by decide)
  · intro hk
    have hTotal : t.total ≠ 0 := by
      rw [ne_eq, ← present_eq_nil_iff h]
      exact List.ne_nil_of_mem hk
    rcases alone_or_several h hTotal with ⟨j, hAlone⟩ | hSeveral
    · obtain rfl : k = j := List.mem_singleton.mp (hAlone ▸ hk)
      rw [sentence_of_alone h hAlone]
      exact ⟨(t.opening ++ "All ").toList, ".".toList, by simp⟩
    · have hCounted : k.tallyLabel.toList <:+: (t.counted k).toList :=
        ⟨(toString (t.count k) ++ " ").toList, [], by simp [counted]⟩
      rw [sentence_of_several h hSeveral, String.toList_append]
      exact (hCounted.trans (infix_enumerate (List.mem_map_of_mem hk))).trans (List.suffix_append _ _).isInfix

/-- The sentence of what was recorded is worded as all reports are, however much it was. -/
theorem sentence_worded (kinds : List Kind) : (ofKinds kinds).Worded := by
  have h := balanced_ofKinds kinds
  refine ⟨?_, total_eq_zero_iff, ?_, ?_, ?_, ?_, ?_, ?_, ?_, ?_⟩
  · rw [List.length_eq_zero_iff]
    exact present_eq_nil_iff h
  · exact fun k hAlone => sentence_of_alone h hAlone
  · intro lead last hLead hPresent
    have hSeveral : 2 ≤ (ofKinds kinds).present.length := by
      have hLength := List.length_pos_iff.mpr hLead
      rw [hPresent, List.length_append, List.length_singleton]
      omega
    have hMap : lead.map (ofKinds kinds).counted ≠ [] := by simpa using hLead
    rw [sentence_of_several h hSeveral, hPresent, List.map_append, List.map_singleton, enumerate_concat hMap]
    simp only [String.append_assoc]
  · intro k hk
    rw [clause_eq_all_iff, length_present_eq_one_iff h hk]
  · intro k hk
    have hSome := List.length_pos_of_mem hk
    rw [clause_eq_counted_iff, ne_eq, ← length_present_eq_one_iff h hk]
    omega
  · exact capitalize_ne_iff h
  · obtain ⟨text, hText, hSpells⟩ := exists_sentence_eq h
    exact ⟨text, hText, fun hStop => not_spells_fullStop _ (hSpells _ hStop)⟩
  · exact fun k => label_infix_sentence_iff h
  · intro hTotal
    rw [clauses_eq, ne_eq, List.map_eq_nil_iff, present_eq_nil_iff h]
    exact hTotal

end Tally

end TestBench
