import TestBench.Proofs.World.Halting
import TestBench.Proofs.Case.Isolation
import TestBench.Proofs.Set.Course

/-! # Steps of cases and sets

A case or a set takes the steps that its hooks take. What it does itself never waits: it numbers outcomes,
gives notices and makes reports (`World.Recorded`).
-/

namespace TestBench

open World

/-- The main program numbered outcomes, gave notices and made reports, and nothing else happened. -/
def World.Recorded (w w' : World) : Prop :=
  ∃ nextOutcome events reports, w' = { w with nextOutcome, events, reports }

namespace World.Recorded

variable {w w₁ w' : World}

protected theorem refl (w : World) : w.Recorded w := ⟨_, _, _, rfl⟩

theorem trans (h : w.Recorded w₁) (h' : w₁.Recorded w') : w.Recorded w' := by
  obtain ⟨_, _, _, rfl⟩ := h
  obtain ⟨nextOutcome, events, reports, rfl⟩ := h'
  exact ⟨nextOutcome, events, reports, rfl⟩

end World.Recorded

variable {allowed : Action → Prop} {limit : Option Nat} {n m : Nat} {spans : List Span} {w w' : World}

theorem Program.Prompt.recorded {α : Type} {p : Async α} {e : Ending α} (h : p.Prompt (· = .newOutcome))
    (hEnds : Ends limit p w e w') : w.Recorded w' := by
  induction p generalizing w with
  | pure a =>
    obtain ⟨-, rfl⟩ := ends_pure_iff.mp hEnds
    exact .refl _
  | panic q =>
    obtain ⟨-, rfl⟩ := ends_panic_iff.mp hEnds
    exact .refl _
  | act a next ih =>
    obtain ⟨rfl, hNext⟩ := h
    exact .trans ⟨_, _, _, rfl⟩ (ih _ (hNext _) (ends_act_iff.mp hEnds))
  | report r next ih => exact .trans ⟨_, _, _, rfl⟩ (ih h (ends_report_iff.mp hEnds))
  | notice e next ih => exact .trans ⟨_, _, _, rfl⟩ (ih h (ends_notice_iff.mp hEnds))
  | _ => exact h.elim

/-! ## Hooks -/

namespace Hook

theorem prompt_invoke {h : Hook} (hRun : h.run.Prompt allowed) : h.invoke.Prompt allowed := by
  rw [invoke_eq]
  exact hRun.attempt.bind fun _ => trivial

theorem prompt_invokeOption {h? : Option Hook} (hRun : ∀ h ∈ h?, h.run.Prompt allowed) :
    (invokeOption h?).Prompt allowed := by
  cases h? with
  | none => trivial
  | some h => exact prompt_invoke (hRun h rfl)

theorem halts_invoke {h : Hook} (hRun : Halts n (h.run.under spans) w) : Halts n (h.invoke.under spans) w := by
  rw [invoke_eq, Program.under_bind, ← Program.attempt_under]
  refine hRun.attempt.bind (m := 0) fun e w₁ _ => ?_
  rw [Program.under_pure]
  exact .pure _

end Hook

/-! ## Cases -/

namespace Case

variable {c : Case}

theorem prompt_tearDown (hAfter : ∀ h ∈ c.after, h.run.Prompt allowed) (found : Finding) :
    (c.tearDown found).Prompt allowed := by
  rw [tearDown_eq]
  refine (Hook.prompt_invokeOption hAfter).bind ?_
  rintro (f | _) <;> trivial

theorem prompt_conclude (hNew : allowed .newOutcome) (found : Finding) : (c.conclude found).Prompt allowed := by
  rw [conclude_eq]
  exact ⟨hNew, fun _ => trivial⟩

theorem prompt_run (hNew : allowed .newOutcome) (hBefore : ∀ h ∈ c.before, h.run.Prompt allowed)
    (hBody : c.body.run.Prompt allowed) (hAfter : ∀ h ∈ c.after, h.run.Prompt allowed) :
    c.run.Prompt allowed := by
  have hExamine : c.examine.Prompt allowed := by
    rw [examine_eq]
    refine (Hook.prompt_invokeOption hBefore).bind ?_
    rintro (f | _)
    · trivial
    · exact (Hook.prompt_invoke hBody).bind fun _ => trivial
  rw [run_eq]
  exact ((hExamine.bind (prompt_tearDown hAfter)).bind (prompt_conclude hNew)).under [_]

theorem halts_run {h : Hook} (hBefore : c.before = some h)
    (hHalts : Halts n (h.run.under (spans ++ [.case c.name])) w) (hBody : c.body.run.Prompt fun _ => True)
    (hAfter : ∀ h ∈ c.after, h.run.Prompt fun _ => True) : Halts n (c.run.under spans) w := by
  rw [run_eq, Program.under_within, Program.under_bind, Program.under_bind, examine_eq, hBefore,
    Program.under_bind]
  refine Halts.bind (m := 0) (Halts.bind (m := 0) (Halts.bind (m := 0) (Hook.halts_invoke hHalts)
    fun r w₁ _ => ?_) fun found w₁ _ => ?_) fun found w₁ _ => ?_
  · cases r with
    | error f =>
      rw [Program.under_notice, Program.under_pure]
      exact .notice (.pure _)
    | ok _ =>
      have hRest : (c.body.invoke.bind fun r => .pure (Finding.ofBody r)).Prompt fun _ => True :=
        (Hook.prompt_invoke hBody).bind fun _ => trivial
      exact (hRest.under _).halts 0 w₁
  · exact ((prompt_tearDown hAfter found).under _).halts 0 w₁
  · have hConclude : (c.conclude found).Prompt fun _ => True := prompt_conclude trivial found
    exact (hConclude.under _).halts 0 w₁

end Case

/-! ## Sets -/

theorem Summary.prompt_enter (s : Summary) (o : Outcome) : (s.enter o).Prompt (· = .newOutcome) := by
  rw [enter_eq]
  split <;> trivial

namespace TestSet

variable {print : Bool} {sink : Sink}

theorem prompt_emit (line : Line) : (emit print sink line).Prompt (· = .newOutcome) := by
  cases print with
  | false => trivial
  | true => cases sink <;> trivial

theorem halts_runTests_cons {c : Case} {rest : List Case} {s : Summary} (hRun : Halts n (c.run.under spans) w)
    (hRest : ∀ o w₁ w₂ s, Ends none (c.run.under spans) w (.finished o) w₁ → w₁.Recorded w₂ →
      Halts m ((runTests print sink rest s).under spans) w₂) :
    Halts (n + m) ((runTests print sink (c :: rest) s).under spans) w := by
  rw [runTests_cons]
  simp only [Program.under_bind]
  refine hRun.bind fun o w₁ hRun => ?_
  rw [← Nat.zero_add m]
  refine Halts.bind (((s.prompt_enter o).under spans).halts 0 w₁) fun added w₂ hEnter => ?_
  rw [← Nat.zero_add m]
  refine Halts.bind (((prompt_emit o.line).under spans).halts 0 w₂) fun _ w₃ hEmit => ?_
  exact hRest o w₁ w₃ added.2 hRun
    (.trans (((s.prompt_enter o).under spans).recorded hEnter) (((prompt_emit o.line).under spans).recorded hEmit))

theorem halts_runTests_append {cases rest : List Case} {s : Summary}
    (hCases : ∀ c ∈ cases, c.run.Prompt (· = .newOutcome))
    (hRest : ∀ w₁ s, w.Recorded w₁ → Halts m ((runTests print sink rest s).under spans) w₁) :
    Halts m ((runTests print sink (cases ++ rest) s).under spans) w := by
  induction cases generalizing w s with
  | nil => exact hRest w s (.refl w)
  | cons c cases ih =>
    have hRun := (hCases c List.mem_cons_self).under spans
    rw [← Nat.zero_add m]
    refine halts_runTests_cons (hRun.halts 0 w) fun o w₁ w₂ s hEnds hRecorded => ?_
    refine ih (fun c hc => hCases c (List.mem_cons_of_mem _ hc)) fun w₃ s hRecorded' => hRest w₃ s ?_
    exact ((hRun.recorded hEnds).trans hRecorded).trans hRecorded'

theorem halts_run {set : TestSet} (hBefore : set.before = none) (hAfter : set.after = none)
    (hTests : Halts n ((runTests print sink set.tests {}).under [.set set.tests.length]) w) :
    Halts n (set.run print sink) w := by
  have hFinish (s : Summary) : (set.finish print sink s).Prompt (· = .newOutcome) := by
    rw [finish, hAfter]
    exact (prompt_emit s.line).bind fun _ => trivial
  rw [run_eq, hBefore]
  change Halts n (((runTests print sink set.tests {}).bind (set.finish print sink)).under _) w
  rw [Program.under_bind]
  exact hTests.bind (m := 0) fun s w₁ _ => ((hFinish s).under _).halts 0 w₁

end TestSet

end TestBench
