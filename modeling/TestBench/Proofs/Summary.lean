import TestBench.Set
import TestBench.Proofs.Tally.Counts
import Mathlib.Data.List.Forall2
import Mathlib.Data.List.Induction

/-! # What a summary holds

A summary says the same thing three times: it keeps the outcomes that were added to it, the numbers that
it has seen, and a tally. Main statement: however outcomes are added to a summary and to copies of it,
each of them holds the instances that were added to it, once and in the order of their first addition,
with their numbers and their tally (`Summary.holds_additions`).
-/

namespace TestBench

namespace Summary

def extend (s : Summary) (outcomes : List Outcome) : Summary :=
  { results := s.results ++ outcomes
    seen := s.seen ++ outcomes.map (·.id)
    tally := (outcomes.map (·.kind)).foldl Tally.record s.tally }

def ofOutcomes (outcomes : List Outcome) : Summary :=
  { results := outcomes, seen := outcomes.map (·.id), tally := .ofKinds (outcomes.map (·.kind)) }

theorem extend_nil (s : Summary) : s.extend [] = s := by
  simp [extend]

theorem extend_cons (s : Summary) (o : Outcome) (outcomes : List Outcome) :
    s.extend (o :: outcomes) = (s.extend [o]).extend outcomes := by
  simp [extend]

theorem enter_eq (s : Summary) (o : Outcome) : s.enter o =
    if (s.add o).1 then .pure (s.add o) else .notice ⟨[], .alreadyCounted o.test⟩ (.pure (s.add o)) := rfl

theorem enter_eq_of_not_mem {s : Summary} {o : Outcome} (h : o.id ∉ s.seen) :
    s.enter o = .pure (true, s.extend [o]) := by
  simp [enter_eq, add, h, extend]

theorem add_ofOutcomes (outcomes : List Outcome) (o : Outcome) : (ofOutcomes outcomes).add o =
    if outcomes.any o.sameInstance then (false, ofOutcomes outcomes)
    else (true, ofOutcomes (outcomes ++ [o])) := by
  have hSeen : o.id ∈ outcomes.map (·.id) ↔ outcomes.any o.sameInstance = true := by
    simp [Outcome.sameInstance, eq_comm (a := o.id)]
  simp only [add, ofOutcomes, hSeen, List.map_append, List.map_cons, List.map_nil, Tally.ofKinds_concat]

/-! ## Histories -/

/-- What happens to some numbered summaries: an outcome is added to one of them, or one is copied. -/
inductive Step
  | add (i : Nat) (o : Outcome)
  | copy (i : Nat)

/-- A step on things of which `put` says what an added outcome makes of them. A copy gets the next
number. -/
def Step.on {α : Type} (put : α → Outcome → α) (xs : List α) : Step → List α
  | add i o => xs.modify i (put · o)
  | copy i => xs ++ xs[i]?.toList

def afterSteps (steps : List Step) : List Summary := steps.foldl (Step.on fun s o => (s.add o).2) [{}]

/-- What was added to each of the summaries, and earlier to the one that it is a copy of. -/
def additions (steps : List Step) : List (List Outcome) := steps.foldl (Step.on fun l o => l ++ [o]) [[]]

/-- A summary holds what was added to it. Of several additions of an instance it holds the first. -/
structure Holds (s : Summary) (added : List Outcome) : Prop where
  accepts : ∀ o, (s.add o).1 = true ↔ ∀ p ∈ added, ¬ o.sameInstance p
  refuses : ∀ o, (s.add o).1 = false → (s.add o).2 = s
  results : s.results = added.eraseDupsBy Outcome.sameInstance
  seen : ∀ id, id ∈ s.seen ↔ ∃ o ∈ s.results, o.id = id
  nodup : (s.results.map (·.id)).Nodup
  count : ∀ k, s.tally.count k = s.results.countP (·.kind = k)
  total : s.tally.total = s.tally.passed + s.tally.failed + s.tally.errors ∧
    s.tally.total = s.results.length
  success : s.isSuccess ↔ ∀ o ∈ s.results, o.kind = .pass

theorem eraseDupsBy_concat {α : Type} (r : α → α → Bool) (xs : List α) (x : α) :
    (xs ++ [x]).eraseDupsBy r =
      if (xs.eraseDupsBy r).any (r x) then xs.eraseDupsBy r else xs.eraseDupsBy r ++ [x] := by
  have hLoop (found : List α) : List.eraseDupsBy.loop r (xs ++ [x]) found =
      if (List.eraseDupsBy.loop r xs found).any (r x) then List.eraseDupsBy.loop r xs found
      else List.eraseDupsBy.loop r xs found ++ [x] := by
    induction xs generalizing found with
    | nil => cases h : found.any (r x) <;> simp [List.eraseDupsBy.loop, h]
    | cons y xs ih => cases h : found.any (r y) <;> simp only [List.cons_append, List.eraseDupsBy.loop, h, ih]
  exact hLoop []

theorem any_eraseDupsBy_sameInstance (added : List Outcome) (o : Outcome) :
    (added.eraseDupsBy Outcome.sameInstance).any o.sameInstance = added.any o.sameInstance := by
  induction added using List.reverseRecOn with
  | nil => rfl
  | append_singleton added p ih =>
    rw [eraseDupsBy_concat, List.any_append, ← ih]
    split
    · rename_i hFound
      obtain ⟨q, hq, hSame⟩ := List.any_eq_true.mp hFound
      cases hNew : o.sameInstance p with
      | false => simp [hNew]
      | true =>
        -- an earlier instance answers for the new one
        have hEarlier : o.sameInstance q = true := by
          simp only [Outcome.sameInstance, beq_iff_eq] at *
          omega
        simp [hNew, List.any_eq_true.mpr ⟨q, hq, hEarlier⟩]
    · rw [List.any_append]

theorem nodup_eraseDupsBy_sameInstance (added : List Outcome) :
    ((added.eraseDupsBy Outcome.sameInstance).map (·.id)).Nodup := by
  induction added using List.reverseRecOn with
  | nil => exact .nil
  | append_singleton added o ih =>
    rw [eraseDupsBy_concat]
    split
    · exact ih
    · rename_i hNew
      have hNew : o.id ∉ (added.eraseDupsBy Outcome.sameInstance).map (·.id) := by
        simpa [Outcome.sameInstance, eq_comm (a := o.id)] using hNew
      rw [List.map_append, List.nodup_append]
      refine ⟨ih, by simp, fun id hId id' hId' hEq => hNew ?_⟩
      obtain rfl : id' = o.id := by simpa using hId'
      exact hEq ▸ hId

/-- An outcome that is added to a summary of the first additions gives the summary of the longer
history. -/
theorem add_firsts (added : List Outcome) (o : Outcome) :
    ((ofOutcomes (added.eraseDupsBy Outcome.sameInstance)).add o).2 =
      ofOutcomes ((added ++ [o]).eraseDupsBy Outcome.sameInstance) := by
  rw [add_ofOutcomes, eraseDupsBy_concat]
  split <;> rfl

theorem isSuccess_ofOutcomes (outcomes : List Outcome) :
    (ofOutcomes outcomes).isSuccess ↔ ∀ o ∈ outcomes, o.kind = .pass := by
  have hFailed : (ofOutcomes outcomes).tally.failed = (outcomes.map (·.kind)).count .fail :=
    Tally.count_ofKinds _ .fail
  have hErrors : (ofOutcomes outcomes).tally.errors = (outcomes.map (·.kind)).count .error :=
    Tally.count_ofKinds _ .error
  simp only [isSuccess, hFailed, hErrors, Bool.and_eq_true, beq_iff_eq, List.count_eq_zero, List.mem_map,
    not_exists, not_and]
  constructor
  · rintro ⟨hFail, hError⟩ o ho
    cases hKind : o.kind with
    | pass => rfl
    | fail => exact absurd hKind (hFail o ho)
    | error => exact absurd hKind (hError o ho)
  · intro hPass
    exact ⟨fun o ho => by simp [hPass o ho], fun o ho => by simp [hPass o ho]⟩

theorem holds_firsts (added : List Outcome) :
    (ofOutcomes (added.eraseDupsBy Outcome.sameInstance)).Holds added where
  accepts o := by
    rw [add_ofOutcomes, any_eraseDupsBy_sameInstance]
    split <;> simp_all
  refuses o hRefused := by
    rw [add_ofOutcomes] at hRefused ⊢
    split <;> simp_all
  results := rfl
  seen id := by simp [ofOutcomes]
  nodup := nodup_eraseDupsBy_sameInstance added
  count k := by
    simp only [ofOutcomes, Tally.count_ofKinds, List.count_eq_countP, List.countP_map]
    rfl
  total := by
    have hTotal (outcomes : List Outcome) : (ofOutcomes outcomes).tally.total = outcomes.length := by
      simp [ofOutcomes]
    refine ⟨?_, hTotal _⟩
    rw [hTotal, ← List.length_map (f := (·.kind)), Tally.length_eq_sum_count]
    simp only [← Tally.count_ofKinds]
    rfl
  success := isSuccess_ofOutcomes _

theorem forall₂_on {α β : Type} {R : α → β → Prop} {put : α → Outcome → α} {put' : β → Outcome → β}
    (hPut : ∀ a b o, R a b → R (put a o) (put' b o)) {xs : List α} {ys : List β} (h : List.Forall₂ R xs ys)
    (step : Step) : List.Forall₂ R (step.on put xs) (step.on put' ys) := by
  cases step with
  | add i o =>
    induction h generalizing i with
    | nil => simp [Step.on]
    | @cons x y xs ys hxy h ih =>
      cases i with
      | zero => exact .cons (hPut x y o hxy) h
      | succ i => exact .cons hxy (ih i)
  | copy i =>
    refine List.rel_append h ?_
    induction h generalizing i with
    | nil => simp
    | @cons x y xs ys hxy h ih =>
      cases i with
      | zero => exact .cons hxy .nil
      | succ i => exact ih i

theorem forall_mem_afterSteps {P : Summary → Prop} (hEmpty : P {}) (hAdd : ∀ s o, P s → P (s.add o).2)
    (steps : List Step) : ∀ s ∈ afterSteps steps, P s := by
  have hSteps {xs : List Summary} (h : List.Forall₂ (fun s _ => P s) xs xs) :
      List.Forall₂ (fun s _ => P s) (steps.foldl (Step.on fun s o => (s.add o).2) xs)
        (steps.foldl (Step.on fun s o => (s.add o).2) xs) := by
    induction steps generalizing xs with
    | nil => exact h
    | cons step steps ih => exact ih (forall₂_on (fun s _ o hs => hAdd s o hs) h step)
  exact (@List.forall₂_same _ (fun s _ => P s) _).mp (hSteps (.cons hEmpty .nil))

theorem tally_of_mem_afterSteps {steps : List Step} {s : Summary} (h : s ∈ afterSteps steps) :
    ∃ kinds, s.tally = .ofKinds kinds := by
  refine forall_mem_afterSteps (P := fun s => ∃ kinds, s.tally = .ofKinds kinds) ⟨[], rfl⟩ ?_ steps s h
  rintro s o ⟨kinds, hKinds⟩
  rw [add]
  split
  · exact ⟨kinds, hKinds⟩
  · exact ⟨kinds ++ [o.kind], by rw [Tally.ofKinds_concat, ← hKinds]⟩

/-- However outcomes are added to a summary and to its copies, each of them holds its own history. -/
theorem holds_additions (steps : List Step) : List.Forall₂ Holds (afterSteps steps) (additions steps) := by
  let IsSummaryOf (s : Summary) (added : List Outcome) : Prop :=
    s = ofOutcomes (added.eraseDupsBy Outcome.sameInstance)
  have hSteps {xs : List Summary} {ys : List (List Outcome)} (h : List.Forall₂ IsSummaryOf xs ys) :
      List.Forall₂ IsSummaryOf (steps.foldl (Step.on fun s o => (s.add o).2) xs)
        (steps.foldl (Step.on fun l o => l ++ [o]) ys) := by
    induction steps generalizing xs ys with
    | nil => exact h
    | cons step steps ih =>
      refine ih (forall₂_on (fun s added o hs => ?_) h step)
      exact hs ▸ add_firsts added o
  refine (@hSteps [{}] [[]] (.cons rfl .nil)).imp fun s added hs => ?_
  exact hs ▸ holds_firsts added

end Summary

end TestBench
