import TestBench.Proofs.World.Growth
import TestBench.Proofs.World.Leaving

/-! # Programs that report nothing

What a run reports was reported by its main program, since reports of tasks are lost. So a main program
that makes no report leaves the reports as they are, whether it comes to its end
(`World.Ends.reports_eq`) or is left before (`World.Left.reports_eq`).
-/

namespace TestBench

namespace Program

inductive Silent {α : Type} : Async α → Prop
  | pure (a : α) : Silent (.pure a)
  | panic (q : Payload) : Silent (.panic q)
  | fork {task : Task} {next : Async α} (h : Silent next) : Silent (.fork task next)
  | act {a : Action} {next : a.Answer → Async α} (h : ∀ x, Silent (next x)) : Silent (.act a next)
  | notice {n : Event} {next : Async α} (h : Silent next) : Silent (.notice n next)
  | sleep {ms : Nat} {next : Async α} (h : Silent next) : Silent (.sleep ms next)
  | yield {next : Async α} (h : Silent next) : Silent (.yield next)
  | await {slot : Nat} {timeout : Option Nat} {next : Option Result → Async α} (h : ∀ x, Silent (next x)) :
      Silent (.await slot timeout next)

variable {α β : Type} {p : Async α}

theorem silent_muted (p : Async α) : p.muted.Silent := by
  induction p with
  | report _ _ ih => exact ih
  | pure | panic => constructor
  | _ => constructor; assumption

theorem Silent.bind {f : α → Async β} (h : p.Silent) (hRest : ∀ a, (f a).Silent) : (p.bind f).Silent := by
  induction h with
  | pure a => exact hRest a
  | panic q => exact .panic q
  | _ => constructor; assumption

theorem Silent.under (spans : List Span) (h : p.Silent) : (p.under spans).Silent := by
  have hWithin (s : Span) {p : Async α} (h : p.Silent) : (p.within s).Silent := by
    induction h with
    | pure | panic => constructor
    | _ => constructor; assumption
  induction spans with
  | nil => exact h
  | cons s spans ih => exact hWithin s ih

end Program

def Waiting.Silent {α : Type} (x : Waiting α) : Prop := ∀ now, (x.resume now).Silent

def Progress.Silent {α : Type} (reports : List Report) : Progress α → Prop
  | ended _ w => w.reports = reports
  | waits main w => w.reports = reports ∧ main.Silent

namespace World

variable {α : Type} {limit : Option Nat} {p : Async α} {main : Waiting α}

@[simp] theorem reports_enqueueAll (w : World) (tasks : List Nat) :
    (w.enqueueAll tasks).reports = w.reports := by
  obtain ⟨q, hq⟩ := w.enqueueAll_eq tasks
  rw [hq]

@[simp] theorem reports_start (w : World) (t : Task) : (w.start t).reports = w.reports :=
  reports_enqueueAll _ [_]

@[simp] theorem reports_perform (w : World) (a : Action) : (w.perform a).2.reports = w.reports := by
  obtain ⟨_, _, _, _, _, _, _, hEq⟩ := w.perform_eq a
  rw [hEq]

theorem reports_of_collectSlot? {w w' : World} {slot : Nat} {timeout : Option Nat} {r : Option Result}
    (h : w.collectSlot? slot timeout = some (r, w')) : w'.reports = w.reports := by
  unfold collectSlot? at h
  split at h
  · cases h; rfl
  · split at h
    · cases h; rfl
    · cases h
  · cases h; rfl

@[simp] theorem reports_drop (w : World) (x : Waiting α) : (w.drop x).reports = w.reports := by
  cases x with
  | awaiting slot => exact w.reports_perform (.abandon slot)
  | postponed slot => exact w.reports_perform (.abandon slot)
  | _ => rfl

@[simp] theorem reports_turnTask (w : World) (task : Nat) : (w.turnTask task).reports = w.reports := by
  unfold turnTask
  split
  · rfl
  · split <;> rfl

theorem silent_wait {w : World} {reports : List Report} (hReports : w.reports = reports)
    (h : main.Silent) : (w.wait limit main).Silent reports := by
  unfold wait
  split
  · exact (w.reports_drop main).trans hReports
  · exact ⟨hReports, h⟩

theorem silent_turnMain {w : World} {reports : List Report} (hReports : w.reports = reports)
    (h : p.Silent) : (w.turnMain limit p).Silent reports := by
  induction h generalizing w with
  | pure a => exact hReports
  | panic q => exact hReports
  | @fork task next _ ih => exact @ih (w.start task) ((w.reports_start task).trans hReports)
  | @act a next _ ih => exact @ih (w.perform a).1 (w.perform a).2 ((w.reports_perform a).trans hReports)
  | @notice n next _ ih => exact @ih { w with events := w.events ++ [n] } hReports
  | yield h _ => exact silent_wait hReports fun _ => h
  | @sleep ms next h ih =>
    simp only [turnMain, Program.turn]
    by_cases hBudget : w.budget = 0
    · simp only [hBudget, if_true]
      exact silent_wait hReports fun _ => .sleep h
    · by_cases hms : ms = 0
      · simp only [hBudget, hms, if_true, if_false]
        exact @ih w.spend hReports
      · simp only [hBudget, hms, if_false]
        exact silent_wait hReports fun _ => .sleep h
  | @await slot timeout next h ih =>
    simp only [turnMain, Program.turn]
    by_cases hBudget : w.budget = 0
    · simp only [hBudget, if_true]
      exact silent_wait hReports fun _ => .await h
    · cases hCollect : w.collectSlot? slot timeout with
      | none =>
        simp only [hBudget, if_false]
        exact silent_wait hReports fun _ => .await h
      | some found =>
        simp only [hBudget, if_false]
        exact @ih found.1 found.2.spend ((reports_of_collectSlot? hCollect).trans hReports)

theorem silent_attend (w : World) (limit : Option Nat) (h : main.Silent) :
    (w.attend limit main).Silent w.reports := by
  have hRested : (wakeYielding { w with streak := 0 }).reports = w.reports := reports_enqueueAll _ _
  have hLater (time : Nat) : ((wakeYielding { w with streak := 0 }).advance time).reports = w.reports :=
    (reports_enqueueAll _ _).trans hRested
  unfold attend
  simp only
  split
  · exact silent_turnMain hRested (h w.now)
  · split
    · exact ⟨hRested, h⟩
    · split
      · exact (reports_drop _ _).trans hRested
      · split
        · exact silent_turnMain (hLater _) (h _)
        · exact silent_wait (hLater _) h

theorem silent_step (w : World) (limit : Option Nat) (h : main.Silent) :
    (w.step limit main).Silent w.reports := by
  unfold step
  split
  · exact w.silent_attend limit h
  · split
    · exact ⟨reports_turnTask _ _, h⟩
    · exact w.silent_attend limit h

theorem Drives.reports_eq {w w' : World} {e : Ending α} (h : Drives limit main w e w')
    (hSilent : main.Silent) : w'.reports = w.reports := by
  induction h with
  | @last main w w' e h =>
    have hStep := w.silent_step limit hSilent
    rw [h] at hStep
    exact hStep
  | @more main main' w w₁ w' e h _ ih =>
    have hStep := w.silent_step limit hSilent
    rw [h] at hStep
    exact (ih hStep.2).trans hStep.1

theorem Leaves.reports_eq {w w' : World} (h : Leaves limit main w w') (hSilent : main.Silent) :
    w'.reports = w.reports := by
  induction h with
  | standing main w => rfl
  | @dropped main w w' h =>
    have hStep := w.silent_step limit hSilent
    rw [h] at hStep
    exact hStep
  | @more main main' w w₁ w' h _ ih =>
    have hStep := w.silent_step limit hSilent
    rw [h] at hStep
    exact (ih hStep.2).trans hStep.1

theorem Ends.reports_eq {w w' : World} {e : Ending α} (h : Ends limit p w e w') (hSilent : p.Silent) :
    w'.reports = w.reports := by
  have hTurn : (w.turnMain limit p).Silent w.reports := silent_turnMain rfl hSilent
  unfold Ends at h
  cases hMain : w.turnMain limit p with
  | ended e₁ w₁ =>
    rw [hMain] at h hTurn
    exact h.2 ▸ hTurn
  | waits main w₁ =>
    rw [hMain] at h hTurn
    exact (Drives.reports_eq h hTurn.2).trans hTurn.1

theorem Left.reports_eq {w w' : World} (h : Left limit p w w') (hSilent : p.Silent) :
    w'.reports = w.reports := by
  have hTurn : (w.turnMain limit p).Silent w.reports := silent_turnMain rfl hSilent
  unfold Left at h
  cases hMain : w.turnMain limit p with
  | ended e₁ w₁ =>
    rw [hMain] at h hTurn
    exact h.2 ▸ hTurn
  | waits main w₁ =>
    rw [hMain] at h hTurn
    exact (Leaves.reports_eq h hTurn.2).trans hTurn.1

end World

end TestBench
