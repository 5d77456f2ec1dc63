import TestBench.Proofs.Outcome.Desk
import TestBench.Proofs.Outcome.Scripts
import TestBench.Proofs.Set.Completeness

/-! # Which outcomes are the same

Numbers tell outcomes apart. Main statement: whatever a client does, the outcomes that it holds anywhere are
copies of outcomes in the books, and their numbers tell which they are copies of and in which order these were
made (`Desk.outcomes_told_apart`).
-/

namespace TestBench

/-- Two outcomes from the books are copies of one outcome or of two, and their numbers tell. -/
structure Told (made : List Outcome) (a b : Outcome) : Prop where
  same : a.sameInstance b ↔ ∃ i : Nat, made[i]? = some a ∧ made[i]? = some b
  contents : a.sameInstance b → a.test = b.test ∧ a.kind = b.kind ∧ a.cause = b.cause
  order : a.id < b.id ↔ ∃ i j : Nat, i < j ∧ made[i]? = some a ∧ made[j]? = some b

/-! ## What the books say -/

namespace World.Books

variable {w : World} {made : List Outcome} {a b o : Outcome}

theorem bounds (h : w.Books made) (ho : o ∈ made) : 0 < o.id ∧ o.id ≤ made.length := by
  obtain ⟨i, hi, rfl⟩ := List.getElem_of_mem ho
  have hId := h.numbered i _ (List.getElem?_eq_getElem hi)
  omega

theorem getElem?_eq (h : w.Books made) (ho : o ∈ made) : made[o.id - 1]? = some o := by
  obtain ⟨i, hi, rfl⟩ := List.getElem_of_mem ho
  have hAt : made[i]? = some made[i] := List.getElem?_eq_getElem hi
  rw [h.numbered i _ hAt]
  exact hAt

theorem told (h : w.Books made) (ha : a ∈ made) (hb : b ∈ made) : Told made a b := by
  have hSame : a.sameInstance b ↔ a.id = b.id := by simp [Outcome.sameInstance]
  have hEq (hId : a.id = b.id) : a = b := by
    have hAt := h.getElem?_eq ha
    rw [hId, h.getElem?_eq hb] at hAt
    exact (Option.some.inj hAt).symm
  refine ⟨?_, fun hInstance => ?_, ?_⟩
  · rw [hSame]
    constructor
    · intro hId
      obtain rfl := hEq hId
      exact ⟨_, h.getElem?_eq ha, h.getElem?_eq ha⟩
    · rintro ⟨i, hi, hj⟩
      rw [h.numbered i a hi, h.numbered i b hj]
  · obtain rfl := hEq (hSame.mp hInstance)
    exact ⟨rfl, rfl, rfl⟩
  · constructor
    · intro hLt
      have hBounds := h.bounds ha
      exact ⟨_, _, by omega, h.getElem?_eq ha, h.getElem?_eq hb⟩
    · rintro ⟨i, j, hLt, hi, hj⟩
      rw [h.numbered i a hi, h.numbered j b hj]
      omega

theorem lt_of_next (h : w.Books made) (ha : a ∈ made) (ho : w.nextOutcome ≤ o.id) : a.id < o.id := by
  have hBounds := h.bounds ha
  have hNext := h.next
  omega

end World.Books

/-! ## What runs make -/

namespace TestSet

open World

variable {limit : Option Nat} {print : Bool} {sink : Sink} {set : TestSet} {w w' : World}
  {tests : List (Case.Course × Outcome)}

theorem exists_numbered_of_mem {k : Case.Course} {o : Outcome} (h : (k, o) ∈ tests) (print : Bool) (i : Nat) :
    ∃ j, Part.test j (.numbered o) ∈ testing print i tests := by
  induction tests generalizing i with
  | nil => cases h
  | cons x rest ih =>
    rcases List.mem_cons.mp h with rfl | h
    · refine ⟨i, List.mem_append_left _ (List.mem_append_left _ (List.mem_map_of_mem ?_))⟩
      exact List.mem_append_right _ List.mem_cons_self
    · obtain ⟨j, hj⟩ := ih h (i + 1)
      exact ⟨j, List.mem_append_right _ hj⟩

theorem id_of_chain {parts : List Part} {j : Nat} {o : Outcome} (h : Chain (set.Does limit sink) parts w w')
    (hPart : Part.test j (.numbered o) ∈ parts) : w.nextOutcome ≤ o.id := by
  induction parts generalizing w with
  | nil => cases hPart
  | cons part rest ih =>
    obtain ⟨w₁, hDoes, hRest⟩ := h
    rcases List.mem_cons.mp hPart with rfl | hPart
    · obtain ⟨c, -, hId, -⟩ := hDoes
      exact Nat.le_of_eq hId.symm
    · exact Nat.le_trans (grows_of_does hDoes).nextOutcome (ih hRest hPart)

/-- However a run passes, the outcomes of its tests bear numbers that were not given before. -/
theorem Passage.Takes.id_of_mem {p : Passage} {e : Ending (Except Abort Summary)}
    (h : p.Takes limit print sink set e w w') : ∀ o ∈ p.outcomes, w.nextOutcome ≤ o.id := by
  intro o ho
  obtain ⟨⟨k, _⟩, hTest, rfl⟩ := List.mem_map.mp ho
  obtain ⟨j, hj⟩ := exists_numbered_of_mem hTest print 0
  rcases p with (_ | ⟨setup, tests, teardown⟩) | (_ | tests | tests)
  · cases hTest
  · obtain ⟨-, -, hChain⟩ := h
    refine id_of_chain (j := j) hChain ?_
    simp only [Course.parts, List.mem_append]
    exact .inl (.inl (.inl (.inr hj)))
  · cases hTest
  · obtain ⟨-, -, w₁, hChain, -⟩ := h
    exact id_of_chain (j := j) hChain (List.mem_append_right _ hj)
  · obtain ⟨-, -, w₁, hChain, -⟩ := h
    exact id_of_chain (j := j) hChain (List.mem_append_left _ (List.mem_append_right _ hj))

end TestSet

/-- A case has its outcome numbered when its hooks have ended. -/
theorem Case.id_of_returns_run {c : Case} {w w' : World} {reports : List Report} {o : Outcome}
    (h : c.run.Returns w reports o w') :
    ∃ found v, (c.examine.bind c.tearDown).Returns w [] found v ∧ o.id = v.nextOutcome := by
  rw [run_eq] at h
  obtain ⟨found, v, first, rest, hInvoked, hConcluded, -⟩ := h.of_within.of_bind
  obtain rfl : first = [] := hInvoked.reports_eq_nil (c.silent_invocations [])
  refine ⟨found, v, hInvoked, ?_⟩
  rw [conclude_eq] at hConcluded
  cases hConcluded with
  | act h =>
    cases h with
    | notice _ h =>
      cases h with
      | report _ h =>
        obtain ⟨rfl, -, -⟩ := h.eq_of_pure
        rfl

/-! ## At the desk -/

namespace Desk

variable {d : Desk} {made : List Outcome} {o : Outcome}

theorem Kept.lt_of_yield (h : d.Kept made) {use : Use} (ho : o ∈ use.yield d) {a : Outcome} (ha : a ∈ made) :
    a.id < o.id := by
  refine h.books.lt_of_next ha ?_
  cases use with
  | runCase i =>
    obtain ⟨c, -, hValue⟩ := Option.bind_eq_some_iff.mp (Option.mem_toList.mp ho)
    have hRun : World.run d.session.turns d.session.limit c.run { d.session.world with reports := [] } =
        (.finished o, _) := Prod.ext (Ending.eq_of_value? hValue) rfl
    obtain ⟨made, -, hReturns⟩ := (World.ends_of_run hRun nofun).returns
    obtain ⟨found, v, hInvoked, hId⟩ := Case.id_of_returns_run hReturns
    exact hId ▸ hInvoked.nextOutcome_le
  | runSet i print sink =>
    simp only [Use.yield] at ho
    split at ho
    · cases ho
    · rename_i set hSet
      have hRun : World.run d.session.turns d.session.limit (set.run print sink)
          { d.session.world with reports := [] } = (_, _) := rfl
      rcases List.mem_append.mp ho with ho | ho
      · obtain ⟨p, hTakes⟩ := TestSet.exists_passage hRun
        have hOutcomes := hTakes.hands.outcomes
        rw [List.filterMap_nil, List.nil_append] at hOutcomes
        exact hTakes.id_of_mem o (hOutcomes ▸ ho)
      · cases hReturned : TestSet.returned? (d.session.runSet set (set.run print sink)).ending with
        | none =>
          rw [hReturned] at ho
          cases ho
        | some s =>
          rw [hReturned] at ho
          have hReturns := TestSet.returns_of_runSet (eq_of_returned? hReturned)
          obtain ⟨outcomes, rfl, -, ⟨_, hNumbering⟩, -⟩ := TestSet.of_returns_run hReturns
          exact (hNumbering.bounds.2 o ho).1
  | _ => cases ho

theorem lt_of_yield {uses : List Use} {use : Use} {m n : Nat} {a : Outcome} (h : d.Kept made) (hLe : m ≤ n)
    (ha : (d.stage uses m).Holds a) (ho : o ∈ use.yield (d.stage uses n)) : a.id < o.id := by
  obtain ⟨_, -, hStages⟩ := h.exists_books uses
  obtain ⟨early, -, -, hEarly⟩ := hStages m
  obtain ⟨_, -, hLater⟩ := hEarly.exists_books ((uses.take n).drop m)
  obtain ⟨made', hMore, -, hLate⟩ := hLater ((uses.take n).drop m).length
  rw [stage, List.take_length, ← stage_of_le hLe] at hLate
  exact hLate.lt_of_yield ho (hMore.subset (hEarly.mem ha))

/-- Whatever a client does, there are books of all outcomes that were made, in this order. All that it holds at
any stage, in whatever place, is a copy from the books as they were then, and the numbers tell which one.
A number is at most the count of the outcomes made, so as long as there are fewer than `2 ^ 64` of them it fits
into 64 bits. What a run yields is new to the client, and the outcome of a case, wherever the case is run, is
later than all that was made before its hooks had ended, be it inside its body or beside it. -/
theorem outcomes_told_apart (turns : Nat) (limit : Option Nat) (uses : List Use) :
    let desk := (start turns limit).stage uses
    (∃ made : List Outcome, (∀ o ∈ made, 0 < o.id ∧ o.id ≤ made.length) ∧
      (∀ n, (desk n).Kept (made.take (desk n).created)) ∧
      ∀ m n a b, (desk m).Holds a → (desk n).Holds b → Told made a b) ∧
    (∀ n use, uses[n]? = some use → ∀ o ∈ use.yield (desk n), ∀ m ≤ n, ∀ a, (desk m).Holds a →
      a.id < o.id ∧ ¬ a.sameInstance o) ∧
    ∀ (c : Case) (w : World) (reports : List Report) (o : Outcome) (w' : World),
      c.run.Returns w reports o w' → ∃ found v, (c.examine.bind c.tearDown).Returns w [] found v ∧
        o.id = v.nextOutcome ∧ ∀ made, v.Books made → ∀ a ∈ made, a.id < o.id ∧ ¬ a.sameInstance o := by
  intro desk
  have hNew {a o : Outcome} (h : a.id < o.id) : a.id < o.id ∧ ¬ a.sameInstance o :=
    ⟨h, by simp [Outcome.sameInstance, Nat.ne_of_lt h]⟩
  refine ⟨?_, fun n use _ o ho m hLe a ha => hNew (lt_of_yield (kept_start turns limit) hLe ha ho), ?_⟩
  · obtain ⟨made, hLast, hStages⟩ := (kept_start turns limit).exists_books uses
    have hKept (n : Nat) : (desk n).Kept (made.take (desk n).created) := by
      obtain ⟨early, -, hPrefix, hEarly⟩ := hStages n
      rw [← hEarly.length_eq, ← List.prefix_iff_eq_take.mp hPrefix]
      exact hEarly
    have hMade {n : Nat} {a : Outcome} (ha : (desk n).Holds a) : a ∈ made :=
      List.mem_of_mem_take ((hKept n).mem ha)
    refine ⟨made, fun o => hLast.books.bounds, hKept, fun m n a b ha hb => ?_⟩
    exact hLast.books.told (hMade ha) (hMade hb)
  · intro c w reports o w' hReturns
    obtain ⟨found, v, hInvoked, hId⟩ := Case.id_of_returns_run hReturns
    exact ⟨found, v, hInvoked, hId, fun made hBooks a ha => hNew (hBooks.lt_of_next ha (Nat.le_of_eq hId.symm))⟩

def outer : CaseScript :=
  .mk "outer" (.mk none [.mk [] [.case (.mk "inner" (.mk none [.mk [] []]) none none)]]) none none

def rerun : List Use :=
  [.newCase (fun _ => outer.build none) fun _ => CaseScript.deals_build none outer, .runCase 0, .runCase 0]

/-- The outcomes of the inner case have the numbers 1 and 3. -/
theorem outcomes_told_apart_of_rerun :
    let desk := (start 0 none).stage rerun
    let first : Outcome := ⟨2, "outer", .pass, none⟩
    let second : Outcome := ⟨4, "outer", .pass, none⟩
    let c := outer.build none
    (desk 2).outcomes = [first] ∧ (desk 3).outcomes = [first, second] ∧
      (desk 3).cases.map (·.lastOutcome) = [some second] ∧ (∃ made, Told made first second) ∧
      ¬ first.sameInstance second ∧
      ∃ found v, (c.examine.bind c.tearDown).Returns {} [] found v ∧ v.nextOutcome = 2 := by
  intro desk first second c
  have hFirst : (desk 2).Holds first := .outcome (List.mem_singleton.mpr rfl)
  have hSecond : (desk 3).Holds second := .outcome (List.mem_cons_of_mem _ (List.mem_singleton.mpr rfl))
  obtain ⟨⟨made, -, -, hTold⟩, hNew, hOlder⟩ := outcomes_told_apart 0 none rerun
  have hYield : second ∈ Use.yield (desk 2) (.runCase 0) := List.mem_singleton.mpr rfl
  have hRun : World.run 0 none c.run {} = (.finished first, (World.run 0 none c.run {}).2) := rfl
  obtain ⟨reports, -, hReturns⟩ := (World.ends_of_run hRun nofun).returns
  obtain ⟨found, v, hInvoked, hId, -⟩ := hOlder c {} reports first _ hReturns
  exact ⟨rfl, rfl, rfl, ⟨made, hTold 2 3 first second hFirst hSecond⟩,
    (hNew 2 (.runCase 0) rfl second hYield 2 (Nat.le_refl _) first hFirst).2,
    found, v, hInvoked, hId.symm⟩

end Desk

end TestBench
