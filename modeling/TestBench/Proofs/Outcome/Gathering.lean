import TestBench.Proofs.Summary
import TestBench.Proofs.Outcome.Identity
import Mathlib.Data.Finset.Card

/-! # Gathering outcomes in a summary

A summary reports which instances were added to it; in what order and how often they came does not
matter. Main statement: outcomes that a client holds give the same report as any others of the same
instances (`Desk.reports_alike`).
-/

namespace TestBench

namespace Summary

variable {added added' : List Outcome}

/-- Adds outcomes one by one. With the summary comes what each of the additions answered. -/
def addEach (s : Summary) : List Outcome → List Bool × Summary
  | [] => ([], s)
  | o :: rest =>
      let (answer, s) := s.add o
      let (answers, s) := s.addEach rest
      (answer :: answers, s)

def instances (outcomes : List Outcome) : Finset Nat := (outcomes.map (·.id)).toFinset

theorem addEach_concat (s : Summary) (added : List Outcome) (o : Outcome) :
    s.addEach (added ++ [o]) =
      ((s.addEach added).1 ++ [((s.addEach added).2.add o).1], ((s.addEach added).2.add o).2) := by
  induction added generalizing s with
  | nil => rfl
  | cons p rest ih => simp only [List.cons_append, addEach, ih]

theorem addEach_empty (added : List Outcome) :
    (({} : Summary).addEach added).2 = ofOutcomes (added.eraseDupsBy Outcome.sameInstance) := by
  induction added using List.reverseRecOn with
  | nil => rfl
  | append_singleton added o ih => rw [addEach_concat, ih, add_firsts]

theorem count_addEach_empty (added : List Outcome) : (({} : Summary).addEach added).1.count true =
    (added.eraseDupsBy Outcome.sameInstance).length := by
  induction added using List.reverseRecOn with
  | nil => rfl
  | append_singleton added o ih =>
    rw [addEach_concat, List.count_append, ih, addEach_empty, add_ofOutcomes, eraseDupsBy_concat]
    split <;> simp

theorem mem_instances_iff {id : Nat} : id ∈ instances added ↔ ∃ o ∈ added, o.id = id := by
  simp [instances]

/-! ## The first of each instance -/

theorem mem_of_mem_eraseDupsBy {o : Outcome} (h : o ∈ added.eraseDupsBy Outcome.sameInstance) :
    o ∈ added := by
  induction added using List.reverseRecOn with
  | nil => exact h
  | append_singleton added p ih =>
    rw [eraseDupsBy_concat] at h
    split at h
    · exact List.mem_append_left _ (ih h)
    · rcases List.mem_append.mp h with h | h
      · exact List.mem_append_left _ (ih h)
      · exact List.mem_append_right _ h

theorem instances_eraseDupsBy (added : List Outcome) :
    instances (added.eraseDupsBy Outcome.sameInstance) = instances added := by
  ext id
  rw [mem_instances_iff, mem_instances_iff]
  constructor
  · rintro ⟨o, ho, hId⟩
    exact ⟨o, mem_of_mem_eraseDupsBy ho, hId⟩
  · rintro ⟨o, ho, hId⟩
    have hAny : added.any o.sameInstance = true :=
      List.any_eq_true.mpr ⟨o, ho, by simp [Outcome.sameInstance]⟩
    rw [← any_eraseDupsBy_sameInstance] at hAny
    obtain ⟨p, hp, hSame⟩ := List.any_eq_true.mp hAny
    exact ⟨p, hp, by rw [← hId]; exact (beq_iff_eq.mp hSame).symm⟩

theorem length_eraseDupsBy (added : List Outcome) :
    (added.eraseDupsBy Outcome.sameInstance).length = (instances added).card := by
  have hNodup := nodup_eraseDupsBy_sameInstance added
  rw [← instances_eraseDupsBy, instances, List.toFinset_card_of_nodup hNodup, List.length_map]

/-- If equal numbers mean equal outcomes, the first ones of the same instances are the same up to
their order. -/
theorem eraseDupsBy_perm (hTold : ∀ o ∈ added, ∀ p ∈ added', o.id = p.id → o = p)
    (hSame : instances added = instances added') :
    (added.eraseDupsBy Outcome.sameInstance).Perm (added'.eraseDupsBy Outcome.sameInstance) := by
  have hFound {o : Outcome} {xs ys : List Outcome} (h : instances xs = instances ys)
      (ho : o ∈ xs.eraseDupsBy Outcome.sameInstance) :
      ∃ p ∈ ys.eraseDupsBy Outcome.sameInstance, p.id = o.id := by
    rw [← mem_instances_iff, instances_eraseDupsBy, ← h, mem_instances_iff]
    exact ⟨o, mem_of_mem_eraseDupsBy ho, rfl⟩
  refine (List.perm_ext_iff_of_nodup ?_ ?_).mpr fun o => ⟨fun ho => ?_, fun ho => ?_⟩
  · exact .of_map _ (nodup_eraseDupsBy_sameInstance added)
  · exact .of_map _ (nodup_eraseDupsBy_sameInstance added')
  · obtain ⟨p, hp, hId⟩ := hFound hSame ho
    rwa [hTold o (mem_of_mem_eraseDupsBy ho) p (mem_of_mem_eraseDupsBy hp) hId.symm]
  · obtain ⟨p, hp, hId⟩ := hFound hSame.symm ho
    rwa [← hTold p (mem_of_mem_eraseDupsBy hp) o (mem_of_mem_eraseDupsBy ho) hId]

end Summary

theorem World.Books.eq_of_id {w : World} {made : List Outcome} {a b : Outcome} (h : w.Books made)
    (ha : a ∈ made) (hb : b ∈ made) (hId : a.id = b.id) : a = b := by
  obtain ⟨i, hi, hj⟩ := (h.told ha hb).same.mp (beq_iff_eq.mpr hId)
  exact Option.some.inj (hi.symm.trans hj)

namespace Desk

open Summary (instances)

/-- Two summaries report alike if they are made of the same instances, which a client holds at any stage,
in whatever order and however often these are added. Either accepts one addition of each instance. -/
theorem reports_alike (turns : Nat) (limit : Option Nat) (uses : List Use) (added added' : List Outcome)
    (hHeld : ∀ o ∈ added ++ added', ∃ n, ((start turns limit).stage uses n).Holds o)
    (hSame : instances added = instances added') :
    let (answers, s) := ({} : Summary).addEach added
    let (answers', s') := ({} : Summary).addEach added'
    s.tally = s'.tally ∧ s.isSuccess = s'.isSuccess ∧ s.line = s'.line ∧
      (s.results.map (·.id)).Perm (s'.results.map (·.id)) ∧
      answers.count true = (instances added).card ∧ answers'.count true = (instances added).card := by
  obtain ⟨made, hLast, hStages⟩ := (kept_start turns limit).exists_books uses
  have hMade : ∀ o ∈ added ++ added', o ∈ made := by
    intro o ho
    obtain ⟨n, hHolds⟩ := hHeld o ho
    obtain ⟨early, -, hMore, hEarly⟩ := hStages n
    exact hMore.subset (hEarly.mem hHolds)
  have hTold : ∀ o ∈ added, ∀ p ∈ added', o.id = p.id → o = p := by
    intro o ho p hp hId
    have hMadeO := hMade o (List.mem_append_left _ ho)
    have hMadeP := hMade p (List.mem_append_right _ hp)
    exact hLast.books.eq_of_id hMadeO hMadeP hId
  have hPerm := Summary.eraseDupsBy_perm hTold hSame
  have hTally : (({} : Summary).addEach added).2.tally = (({} : Summary).addEach added').2.tally := by
    rw [Summary.addEach_empty, Summary.addEach_empty]
    exact Tally.ofKinds_perm (hPerm.map _)
  refine ⟨hTally, ?_, ?_, ?_, ?_, ?_⟩
  · rw [Summary.isSuccess, Summary.isSuccess, hTally]
  · rw [Summary.line, Summary.line, hTally]
  · rw [Summary.addEach_empty, Summary.addEach_empty]
    exact hPerm.map _
  · rw [Summary.count_addEach_empty, Summary.length_eraseDupsBy]
  · rw [Summary.count_addEach_empty, Summary.length_eraseDupsBy, hSame]

def passAndFail : Async (List Outcome × List Summary) := do
  let o ← Outcome.create "reads" .pass none
  let p ← Outcome.create "writes" .fail (some "low")
  return ([o, p], [])

theorem deals_passAndFail (known : Set Outcome) : passAndFail.Deals Laid known := by
  refine .create "reads" .pass none fun i => ?_
  refine .create "writes" .fail (some "low") fun j => .pure ⟨?_, nofun⟩
  intro o ho
  rcases List.mem_pair.mp ho with rfl | rfl
  · exact Set.mem_insert_of_mem _ (Set.mem_insert _ _)
  · exact Set.mem_insert _ _

/-- Of seven additions four are accepted, two by each of the summaries. -/
theorem reports_alike_of_pass_and_fail :
    let uses : List Use := [.program (fun _ => passAndFail) fun d => deals_passAndFail d.held]
    let o : Outcome := ⟨1, "reads", .pass, none⟩
    let p : Outcome := ⟨2, "writes", .fail, some "low"⟩
    let (answers, s) := ({} : Summary).addEach [o, p, o]
    let (answers', s') := ({} : Summary).addEach [p, o, p, p]
    (∀ x ∈ [o, p, o] ++ [p, o, p, p], ∃ n, ((start 0 none).stage uses n).Holds x) ∧
      instances [o, p, o] = instances [p, o, p, p] ∧ s.line = s'.line ∧ s.results ≠ s'.results ∧
      (s.results.map (·.id)).Perm (s'.results.map (·.id)) ∧ answers.count true = answers'.count true := by
  intro uses o p
  have hOutcomes : ((start 0 none).stage uses 1).outcomes = [o, p] := rfl
  have hHeld : ∀ x ∈ [o, p, o] ++ [p, o, p, p], ∃ n, ((start 0 none).stage uses n).Holds x := by
    intro x hx
    refine ⟨1, .outcome ?_⟩
    rw [hOutcomes]
    revert x
    decide
  have hSame : instances [o, p, o] = instances [p, o, p, p] := by decide
  obtain ⟨-, -, hLine, hPerm, hCount, hCount'⟩ := reports_alike 0 none uses _ _ hHeld hSame
  exact ⟨hHeld, hSame, hLine, by decide, hPerm, hCount.trans hCount'.symm⟩

end Desk

end TestBench
