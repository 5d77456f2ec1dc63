import TestBench.Proofs.Set.Passage

/-! # What a set remembers

A set is used by adding tests to it and by running it, and runs of it end in all ways. Its memory is the
history of these uses: it has the summary of the latest run that returned one, and each of its tests has
the outcome of the latest run of that test that came to its end (`TestSet.remembers_uses`).
-/

namespace TestBench

def Case.recalling (o? : Option Outcome) (c : Case) : Case := { c with lastOutcome := o?.or c.lastOutcome }

@[simp] theorem Case.recalling_none : Case.recalling none = id := rfl

theorem Case.recalling_recalling (o? p? : Option Outcome) (c : Case) :
    (c.recalling o?).recalling p? = c.recalling (p?.or o?) := by
  simp only [recalling, Option.or_assoc]

namespace TestSet

inductive Use
  | push (c : Case)
  | run (s : Session) (print : Bool) (sink : Sink)

def Use.on (set : TestSet) : Use → TestSet
  | push c => set.push c
  | run s print sink => (s.runSet set (set.run print sink)).set

def afterUses (set : TestSet) (uses : List Use) : TestSet := uses.foldl Use.on set

inductive Entry
  | pushed (c : Case)
  | ran (e : Ending (Except Abort Summary)) (p : Passage)

def withOutcomes (cases : List Case) (outcomes : List Outcome) : List Case :=
  List.zipWith (fun c o => { c with lastOutcome := some o }) cases outcomes

def Passage.Changes (set set' : TestSet) : Passage → Prop
  | ended (.refused _) | left .setup => set' = set
  | left (.test tests) =>
      tests.length < set.tests.length ∧ set' =
        { set with
          tests := withOutcomes set.tests (tests.map (·.2)) ++ set.tests.drop tests.length }
  | left (.teardown tests) | ended (.carried _ tests (some (.error _)))
  | ended (.carried _ tests (some (.ok (.error _)))) =>
      tests.length = set.tests.length ∧
        set' = { set with tests := withOutcomes set.tests (tests.map (·.2)) }
  | ended (.carried _ tests none) | ended (.carried _ tests (some (.ok (.ok ())))) =>
      tests.length = set.tests.length ∧ set' =
        { set with
          tests := withOutcomes set.tests (tests.map (·.2))
          lastSummary := some (Course.summary tests) }

def Entry.Of (set : TestSet) : Use → Entry → Prop
  | .push c, pushed d => d = c
  | .run s print sink, ran e p =>
      let r := s.runSet set (set.run print sink)
      e = r.ending ∧ p.Takes (s.limit.map (s.world.now + ·)) print sink set e
        { s.world with reports := [] } r.session.world ∧ p.Changes set r.set
  | _, _ => False

def Recounts : TestSet → List Use → List Entry → Prop
  | _, [], [] => True
  | set, use :: uses, entry :: entries => entry.Of set use ∧ Recounts (use.on set) uses entries
  | _, _, _ => False

namespace Entry

/-- The outcome of the test number `i`, if it came to its end. -/
def outcomeOf? (i : Nat) : Entry → Option Outcome
  | pushed _ => none
  | ran _ p => p.outcomes[i]?

def summary? : Entry → Option Summary
  | pushed _ => none
  | ran e _ => returned? e

def case? : Entry → Option Case
  | pushed c => some c
  | ran .. => none

end Entry

def latest {α : Type} (f : Entry → Option α) (entries : List Entry) : Option α :=
  (entries.filterMap f).getLast?

theorem latest_concat {α : Type} (f : Entry → Option α) (entries : List Entry) (entry : Entry) :
    latest f (entries ++ [entry]) = (f entry).or (latest f entries) := by
  rw [latest, List.filterMap_append, List.getLast?_append]
  cases hEntry : f entry <;> simp [hEntry, latest]

/-- The set has what the history of its uses calls for. -/
structure Remembers (start : TestSet) (entries : List Entry) (set : TestSet) : Prop where
  tests : ∀ i, set.tests[i]? =
    (start.tests ++ entries.filterMap Entry.case?)[i]?.map (Case.recalling (latest (Entry.outcomeOf? i) entries))
  absent : ∀ i, set.tests.length ≤ i → latest (Entry.outcomeOf? i) entries = none
  lastSummary : set.lastSummary = (latest Entry.summary? entries).or start.lastSummary
  results : set.results = ((latest Entry.summary? entries).map Summary.results).getD start.results
  hooks : set.before = start.before ∧ set.after = start.after

/-! ## Single uses -/

theorem getElem?_recordOutcomes (cases : List Case) (outcomes : List Outcome) (i : Nat) :
    (recordOutcomes cases outcomes)[i]? = cases[i]?.map (Case.recalling outcomes[i]?) := by
  induction cases generalizing outcomes i with
  | nil => rfl
  | cons c cases ih =>
    cases outcomes with
    | nil => simp [recordOutcomes]
    | cons o outcomes =>
      cases i with
      | zero => rfl
      | succ i => exact ih outcomes i

theorem recordOutcomes_eq (cases : List Case) (outcomes : List Outcome) :
    recordOutcomes cases outcomes = withOutcomes cases outcomes ++ cases.drop outcomes.length := by
  induction cases generalizing outcomes with
  | nil => simp [recordOutcomes, withOutcomes]
  | cons c cases ih =>
    cases outcomes with
    | nil => rfl
    | cons o outcomes => exact congrArg _ (ih outcomes)

theorem length_recordOutcomes (cases : List Case) (outcomes : List Outcome) :
    (recordOutcomes cases outcomes).length = cases.length := by
  induction cases generalizing outcomes with
  | nil => rfl
  | cons c cases ih =>
    cases outcomes with
    | nil => rfl
    | cons o outcomes => exact congrArg Nat.succ (ih outcomes)

variable {limit : Option Nat} {print : Bool} {sink : Sink} {set start : TestSet}
  {e : Ending (Except Abort Summary)} {w w' : World}

theorem Passage.Takes.length_completed_le {p : Passage} (h : p.Takes limit print sink set e w w') :
    p.completed.length ≤ set.tests.length := by
  rcases p with ⟨_ | ⟨setup, tests, teardown⟩⟩ | ⟨_ | tests | tests⟩
  · exact Nat.zero_le _
  · exact Nat.le_of_eq h.1.2.1.length_eq.symm
  · exact Nat.zero_le _
  · exact Nat.le_of_lt h.2.1.1
  · exact Nat.le_of_eq h.2.1.1.length_eq.symm

theorem Passage.Takes.changes_iff {p : Passage} (h : p.Takes limit print sink set e w w')
    {set' : TestSet} : p.Changes set set' ↔ set' = { set with
      tests := recordOutcomes set.tests p.outcomes
      lastSummary := (returned? e).or set.lastSummary } := by
  have hNone : set' = set ↔ set' = { set with tests := recordOutcomes set.tests [] } := by
    rw [show recordOutcomes set.tests [] = set.tests by cases set.tests <;> rfl]
  have hAll {tests : List (Case.Course × Outcome)} (hYields : List.Forall₂ Course.Yields set.tests tests)
      (s? : Option Summary) : (tests.length = set.tests.length ∧
        set' = { set with tests := withOutcomes set.tests (tests.map Prod.snd), lastSummary := s? }) ↔
        set' = { set with tests := recordOutcomes set.tests (tests.map Prod.snd), lastSummary := s? } := by
    rw [recordOutcomes_eq, List.length_map, ← hYields.length_eq, List.drop_length, List.append_nil]
    exact and_iff_right rfl
  rcases p with ⟨(q | f) | ⟨setup, tests, _ | q | f | ⟨⟩⟩⟩ | ⟨_ | tests | tests⟩
  case ended.refused.error | ended.refused.ok =>
    obtain ⟨-, rfl, -⟩ := h
    exact hNone
  case ended.carried.none | ended.carried.some.error | ended.carried.some.ok.error |
      ended.carried.some.ok.ok =>
    obtain ⟨⟨-, hYields, -⟩, rfl, -⟩ := h
    exact hAll hYields _
  case left.setup =>
    obtain ⟨rfl | rfl, -⟩ := h <;> exact hNone
  case left.teardown =>
    obtain ⟨rfl | rfl, ⟨hYields, -⟩, -⟩ := h <;> exact hAll hYields _
  case left.test =>
    obtain ⟨he, ⟨hLength, -⟩, -⟩ := h
    rw [recordOutcomes_eq, Passage.outcomes, List.length_map]
    obtain rfl | rfl := he <;> exact and_iff_right hLength

theorem exists_entry (set : TestSet) (use : Use) : ∃ entry : Entry, entry.Of set use := by
  cases use with
  | push c => exact ⟨.pushed c, rfl⟩
  | run s print sink =>
    obtain ⟨p, hTakes, hSet⟩ := s.runSet_passes set print sink
    exact ⟨.ran _ p, rfl, hTakes, hTakes.changes_iff.mpr hSet⟩

theorem remembers_nil (set : TestSet) : Remembers set [] set where
  tests i := by simp [latest]
  absent i _ := rfl
  lastSummary := rfl
  results := rfl
  hooks := ⟨rfl, rfl⟩

theorem Remembers.length_tests {entries : List Entry} (h : Remembers start entries set) :
    set.tests.length = (start.tests ++ entries.filterMap Entry.case?).length := by
  have hEnd (i : Nat) :
      set.tests.length ≤ i ↔ (start.tests ++ entries.filterMap Entry.case?).length ≤ i := by
    rw [← List.getElem?_eq_none_iff, ← List.getElem?_eq_none_iff, h.tests i, Option.map_eq_none_iff]
  exact Nat.le_antisymm ((hEnd _).mpr (Nat.le_refl _)) ((hEnd _).mp (Nat.le_refl _))

theorem Remembers.push {entries : List Entry} (h : Remembers start entries set) (c : Case) :
    Remembers start (entries ++ [.pushed c]) (set.push c) where
  tests i := by
    have hAdded : start.tests ++ (entries ++ [Entry.pushed c]).filterMap Entry.case? =
        start.tests ++ entries.filterMap Entry.case? ++ [c] := by
      rw [List.filterMap_append, List.append_assoc]
      rfl
    rw [latest_concat, hAdded, TestSet.push, List.getElem?_append, List.getElem?_append, ← h.length_tests]
    split
    · exact h.tests i
    · rename_i hNew
      rw [h.absent i (Nat.le_of_not_lt hNew)]
      exact Option.map_id'.symm
  absent i hi := by
    rw [latest_concat]
    exact h.absent i (Nat.le_trans (by simp [TestSet.push]) hi)
  lastSummary := by
    rw [latest_concat]
    exact h.lastSummary
  results := by
    rw [latest_concat]
    exact h.results
  hooks := h.hooks

theorem Remembers.run {entries : List Entry} {p : Passage} {set' : TestSet}
    (h : Remembers start entries set) (hTakes : p.Takes limit print sink set e w w')
    (hChanges : p.Changes set set') : Remembers start (entries ++ [.ran e p]) set' := by
  obtain rfl := hTakes.changes_iff.mp hChanges
  have hLast : (returned? e).or set.lastSummary =
      (latest Entry.summary? (entries ++ [.ran e p])).or start.lastSummary := by
    rw [latest_concat, h.lastSummary, Option.or_assoc]
    rfl
  refine ⟨fun i => ?_, fun i hi => ?_, hLast, ?_, h.hooks⟩
  · have hAdded : (entries ++ [Entry.ran e p]).filterMap Entry.case? = entries.filterMap Entry.case? := by
      simp [Entry.case?]
    rw [latest_concat, hAdded, getElem?_recordOutcomes, h.tests i, Option.map_map]
    congr 1
    funext c
    exact c.recalling_recalling _ _
  · rw [length_recordOutcomes] at hi
    have hShort : p.outcomes.length ≤ i := by
      rw [Passage.outcomes, List.length_map]
      exact Nat.le_trans hTakes.length_completed_le hi
    rw [latest_concat, h.absent i hi, Entry.outcomeOf?, List.getElem?_eq_none hShort]
    rfl
  · rw [TestSet.results, hLast, TestSet.results]
    cases latest Entry.summary? (entries ++ [.ran e p]) <;> rfl

theorem Remembers.on {entries : List Entry} {use : Use} {entry : Entry}
    (h : Remembers start entries set) (hEntry : entry.Of set use) :
    Remembers start (entries ++ [entry]) (use.on set) := by
  cases use with
  | push c =>
    cases entry with
    | pushed d =>
      obtain rfl : d = c := hEntry
      exact h.push d
    | ran e p => exact hEntry.elim
  | run s print sink =>
    cases entry with
    | pushed d => exact hEntry.elim
    | ran e p =>
      obtain ⟨-, hTakes, hChanges⟩ := hEntry
      exact h.run hTakes hChanges

/-! ## Histories -/

theorem exists_recounts (set : TestSet) (uses : List Use) : ∃ entries, Recounts set uses entries := by
  induction uses generalizing set with
  | nil => exact ⟨[], trivial⟩
  | cons use uses ih =>
    obtain ⟨entry, hEntry⟩ := exists_entry set use
    obtain ⟨entries, hRest⟩ := ih (use.on set)
    exact ⟨entry :: entries, hEntry, hRest⟩

theorem Recounts.remembers {uses : List Use} {entries earlier : List Entry}
    (h : Recounts set uses entries) (hEarlier : Remembers start earlier set) :
    Remembers start (earlier ++ entries) (afterUses set uses) := by
  induction uses generalizing set entries earlier with
  | nil =>
    cases entries with
    | nil => exact (List.append_nil earlier).symm ▸ hEarlier
    | cons entry entries => exact h.elim
  | cons use uses ih =>
    cases entries with
    | nil => exact h.elim
    | cons entry entries =>
      obtain ⟨hEntry, hRest⟩ := h
      rw [← List.singleton_append, ← List.append_assoc]
      exact ih hRest (hEarlier.on hEntry)

theorem Recounts.take {uses : List Use} {entries : List Entry} (h : Recounts set uses entries) (n : Nat) :
    Recounts set (uses.take n) (entries.take n) := by
  induction uses generalizing set entries n with
  | nil =>
    cases entries with
    | nil => simpa using h
    | cons entry entries => exact h.elim
  | cons use uses ih =>
    cases entries with
    | nil => exact h.elim
    | cons entry entries =>
      cases n with
      | zero => exact trivial
      | succ n => exact ⟨h.1, ih h.2 n⟩

/-- However a set is used, its uses have a history, and after each of them the set remembers what the
history so far calls for. -/
theorem remembers_uses (set : TestSet) (uses : List Use) :
    ∃ entries, Recounts set uses entries ∧
      ∀ n, Remembers set (entries.take n) (afterUses set (uses.take n)) := by
  obtain ⟨entries, hRecounts⟩ := exists_recounts set uses
  exact ⟨entries, hRecounts, fun n => (hRecounts.take n).remembers (remembers_nil set)⟩

end TestSet

end TestBench
