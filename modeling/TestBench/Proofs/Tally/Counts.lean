import TestBench.Tally

/-! # What a tally counts

A tally of recorded kinds counts how often each of them was recorded, in whatever order that was
(`Tally.count_ofKinds`, `Tally.ofKinds_perm`).
-/

namespace TestBench

namespace Tally

theorem count_foldl_record (t : Tally) (kinds : List Kind) (k : Kind) :
    (kinds.foldl record t).count k = t.count k + kinds.count k := by
  induction kinds generalizing t with
  | nil => rfl
  | cons j kinds ih =>
    rw [List.foldl_cons, ih, count_record, List.count_cons, Nat.add_right_comm]
    simp only [beq_iff_eq, Nat.add_assoc]

@[simp] theorem count_ofKinds (kinds : List Kind) (k : Kind) : (ofKinds kinds).count k = kinds.count k := by
  rw [ofKinds, count_foldl_record]
  cases k <;> exact Nat.zero_add _

theorem total_foldl_record (t : Tally) (kinds : List Kind) :
    (kinds.foldl record t).total = t.total + kinds.length := by
  induction kinds generalizing t with
  | nil => rfl
  | cons j kinds ih =>
    rw [List.foldl_cons, ih, total_record, List.length_cons]
    omega

@[simp] theorem total_ofKinds (kinds : List Kind) : (ofKinds kinds).total = kinds.length := by
  rw [ofKinds, total_foldl_record]
  exact Nat.zero_add _

theorem length_eq_sum_count (kinds : List Kind) :
    kinds.length = kinds.count .pass + kinds.count .fail + kinds.count .error := by
  induction kinds with
  | nil => rfl
  | cons k kinds ih =>
    cases k <;> simp only [List.length_cons, List.count_cons, ih] <;> simp <;> omega

def Balanced (t : Tally) : Prop := t.total = t.passed + t.failed + t.errors

theorem balanced_ofKinds (kinds : List Kind) : (ofKinds kinds).Balanced := by
  rw [Balanced, total_ofKinds, length_eq_sum_count]
  simp only [← count_ofKinds]
  rfl

theorem ext_of_counts {t u : Tally} (ht : t.Balanced) (hu : u.Balanced) (h : ∀ k, t.count k = u.count k) :
    t = u := by
  have hPassed : t.passed = u.passed := h .pass
  have hFailed : t.failed = u.failed := h .fail
  have hErrors : t.errors = u.errors := h .error
  have hTotal : t.total = u.total := by
    rw [ht, hu, hPassed, hFailed, hErrors]
  cases t
  cases u
  simp_all

theorem ofKinds_concat (kinds : List Kind) (k : Kind) : ofKinds (kinds ++ [k]) = (ofKinds kinds).record k := by
  simp [ofKinds]

theorem ofKinds_perm {kinds kinds' : List Kind} (h : kinds.Perm kinds') :
    ofKinds kinds = ofKinds kinds' := by
  refine h.foldl_eq' (fun k _ j _ t => ?_) _
  cases k <;> cases j <;> rfl

end Tally

end TestBench
