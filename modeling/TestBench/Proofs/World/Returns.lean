import TestBench.Proofs.World.Silence

/-! # Programs among others

A program that is run shares its world with others, which go on while it waits. `Program.Returns` follows
the program alone: all that it assumes of the others is that no number of an outcome is taken back. Every
turn is part of such a run, whoever has it (`World.returns_turn`), and so is the whole run of a main
program (`World.Ends.returns`).
-/

namespace TestBench

/-- A program that begins in one world returns a value in another, with the reports that it makes. -/
inductive Program.Returns {α : Type} : Async α → World → List Report → α → World → Prop
  | pure (a : α) (w : World) : Returns (.pure a) w [] a w
  | fork {task : Task} {next : Async α} {w w' : World} {reports : List Report} {a : α}
      (h : Returns next (w.start task) reports a w') : Returns (.fork task next) w reports a w'
  | act {x : Action} {next : x.Answer → Async α} {w w' : World} {reports : List Report} {a : α}
      (h : Returns (next (w.perform x).1) (w.perform x).2 reports a w') :
      Returns (.act x next) w reports a w'
  | report {r : Report} {next : Async α} {w w₁ w' : World} {reports : List Report} {a : α}
      (hOthers : w.nextOutcome ≤ w₁.nextOutcome) (h : Returns next w₁ reports a w') :
      Returns (.report r next) w (r :: reports) a w'
  | notice {n : Event} {next : Async α} {w w₁ w' : World} {reports : List Report} {a : α}
      (hOthers : w.nextOutcome ≤ w₁.nextOutcome) (h : Returns next w₁ reports a w') :
      Returns (.notice n next) w reports a w'
  | sleep {ms : Nat} {next : Async α} {w w₁ w' : World} {reports : List Report} {a : α}
      (hOthers : w.nextOutcome ≤ w₁.nextOutcome) (h : Returns next w₁ reports a w') :
      Returns (.sleep ms next) w reports a w'
  | yield {next : Async α} {w w₁ w' : World} {reports : List Report} {a : α}
      (hOthers : w.nextOutcome ≤ w₁.nextOutcome) (h : Returns next w₁ reports a w') :
      Returns (.yield next) w reports a w'
  | await {slot : Nat} {timeout : Option Nat} {next : Option Result → Async α} {w w₁ w' : World}
      {reports : List Report} {a : α} (x : Option Result) (hOthers : w.nextOutcome ≤ w₁.nextOutcome)
      (h : Returns (next x) w₁ reports a w') : Returns (.await slot timeout next) w reports a w'

namespace Program

variable {α β : Type} {p : Async α} {w w₁ w' : World} {reports : List Report} {a b : α}

namespace Returns

theorem nextOutcome_le (h : p.Returns w reports a w') : w.nextOutcome ≤ w'.nextOutcome := by
  induction h with
  | pure => exact Nat.le_refl _
  | fork _ ih => exact Nat.le_trans (World.grows_start _ _).nextOutcome ih
  | act _ ih => exact Nat.le_trans (World.grows_perform _ _).nextOutcome ih
  | report hOthers _ ih => exact Nat.le_trans hOthers ih
  | notice hOthers _ ih => exact Nat.le_trans hOthers ih
  | sleep hOthers _ ih => exact Nat.le_trans hOthers ih
  | yield hOthers _ ih => exact Nat.le_trans hOthers ih
  | await _ hOthers _ ih => exact Nat.le_trans hOthers ih

theorem of_bind {f : α → Async β} {b : β} (h : (p.bind f).Returns w reports b w') :
    ∃ a w₁ first rest, p.Returns w first a w₁ ∧ (f a).Returns w₁ rest b w' ∧ reports = first ++ rest := by
  induction p generalizing w reports with
  | pure a => exact ⟨a, w, [], reports, .pure a w, h, rfl⟩
  | panic q => nomatch h
  | fork task next ih =>
    cases h with
    | fork h =>
      obtain ⟨a, w₁, first, rest, hFirst, hRest⟩ := ih h
      exact ⟨a, w₁, first, rest, .fork hFirst, hRest⟩
  | act x next ih =>
    cases h with
    | act h =>
      obtain ⟨a, w₁, first, rest, hFirst, hRest⟩ := ih _ h
      exact ⟨a, w₁, first, rest, .act hFirst, hRest⟩
  | report r next ih =>
    cases h with
    | report hOthers h =>
      obtain ⟨a, w₁, first, rest, hFirst, hRest, rfl⟩ := ih h
      exact ⟨a, w₁, r :: first, rest, .report hOthers hFirst, hRest, rfl⟩
  | notice n next ih =>
    cases h with
    | notice hOthers h =>
      obtain ⟨a, w₁, first, rest, hFirst, hRest⟩ := ih h
      exact ⟨a, w₁, first, rest, .notice hOthers hFirst, hRest⟩
  | sleep ms next ih =>
    cases h with
    | sleep hOthers h =>
      obtain ⟨a, w₁, first, rest, hFirst, hRest⟩ := ih h
      exact ⟨a, w₁, first, rest, .sleep hOthers hFirst, hRest⟩
  | yield next ih =>
    cases h with
    | yield hOthers h =>
      obtain ⟨a, w₁, first, rest, hFirst, hRest⟩ := ih h
      exact ⟨a, w₁, first, rest, .yield hOthers hFirst, hRest⟩
  | await slot timeout next ih =>
    cases h with
    | await x hOthers h =>
      obtain ⟨a, w₁, first, rest, hFirst, hRest⟩ := ih x h
      exact ⟨a, w₁, first, rest, .await x hOthers hFirst, hRest⟩

theorem reports_eq_nil (h : p.Returns w reports a w') (hSilent : p.Silent) : reports = [] := by
  induction hSilent generalizing w reports with
  | pure => cases h; rfl
  | panic => nomatch h
  | fork _ ih => cases h with | fork h => exact ih h
  | act _ ih => cases h with | act h => exact ih _ h
  | notice _ ih => cases h with | notice _ h => exact ih h
  | sleep _ ih => cases h with | sleep _ h => exact ih h
  | yield _ ih => cases h with | yield _ h => exact ih h
  | await _ ih => cases h with | await x _ h => exact ih x h

theorem of_collect {earlier all : List Report} (h : (p.collect earlier).Returns w reports (a, all) w') :
    ∃ made, all = earlier ++ made ∧ p.Returns w made a w' := by
  induction p generalizing w reports earlier with
  | pure a =>
    cases h
    exact ⟨[], (List.append_nil _).symm, .pure a _⟩
  | panic q => nomatch h
  | fork task next ih =>
    cases h with
    | fork h => exact (ih h).imp fun _ h => ⟨h.1, .fork h.2⟩
  | act x next ih =>
    cases h with
    | act h => exact (ih _ h).imp fun _ h => ⟨h.1, .act h.2⟩
  | report r next ih =>
    obtain ⟨made, rfl, hNext⟩ := ih h
    exact ⟨r :: made, List.append_assoc .., .report (Nat.le_refl _) hNext⟩
  | notice n next ih =>
    cases h with
    | notice hOthers h => exact (ih h).imp fun _ h => ⟨h.1, .notice hOthers h.2⟩
  | sleep ms next ih =>
    cases h with
    | sleep hOthers h => exact (ih h).imp fun _ h => ⟨h.1, .sleep hOthers h.2⟩
  | yield next ih =>
    cases h with
    | yield hOthers h => exact (ih h).imp fun _ h => ⟨h.1, .yield hOthers h.2⟩
  | await slot timeout next ih =>
    cases h with
    | await x hOthers h => exact (ih x h).imp fun _ h => ⟨h.1, .await x hOthers h.2⟩

theorem of_within {s : Span} (h : (p.within s).Returns w reports a w') : p.Returns w reports a w' := by
  induction p generalizing w reports with
  | pure a => exact h
  | panic q => nomatch h
  | fork task next ih => cases h with | fork h => exact .fork (ih h)
  | act x next ih => cases h with | act h => exact .act (ih _ h)
  | report r next ih => cases h with | report hOthers h => exact .report hOthers (ih h)
  | notice n next ih => cases h with | notice hOthers h => exact .notice hOthers (ih h)
  | sleep ms next ih => cases h with | sleep hOthers h => exact .sleep hOthers (ih h)
  | yield next ih => cases h with | yield hOthers h => exact .yield hOthers (ih h)
  | await slot timeout next ih => cases h with | await x hOthers h => exact .await x hOthers (ih x h)

theorem of_under {spans : List Span} (h : (p.under spans).Returns w reports a w') :
    p.Returns w reports a w' := by
  induction spans with
  | nil => exact h
  | cons s spans ih => exact ih h.of_within

/-- How long a wait is makes no difference, nor whether it was begun again. -/
theorem sleep_later {ms ms' : Nat} (hOthers : w.nextOutcome ≤ w₁.nextOutcome)
    (h : (Program.sleep ms' p).Returns w₁ reports a w') : (Program.sleep ms p).Returns w reports a w' := by
  cases h with
  | sleep hMore h => exact .sleep (Nat.le_trans hOthers hMore) h

theorem await_later {slot : Nat} {timeout timeout' : Option Nat} {next : Option Result → Async α}
    (hOthers : w.nextOutcome ≤ w₁.nextOutcome)
    (h : (Program.await slot timeout' next).Returns w₁ reports a w') :
    (Program.await slot timeout next).Returns w reports a w' := by
  cases h with
  | await x hMore h => exact .await x (Nat.le_trans hOthers hMore) h

theorem eq_of_pure (h : (Program.pure a : Async α).Returns w reports b w') : b = a ∧ w' = w ∧ reports = [] := by
  cases h
  exact ⟨rfl, rfl, rfl⟩

end Returns

end Program

def Waiting.Returns {α : Type} (x : Waiting α) (w : World) (reports : List Report) (a : α) (w' : World) :
    Prop :=
  ∃ w₁, w.nextOutcome ≤ w₁.nextOutcome ∧ ∃ now, (x.resume now).Returns w₁ reports a w'

theorem Waiting.Returns.earlier {α : Type} {x : Waiting α} {w w₁ w' : World} {reports : List Report} {a : α}
    (h : x.Returns w₁ reports a w') (hOthers : w.nextOutcome ≤ w₁.nextOutcome) :
    x.Returns w reports a w' := by
  obtain ⟨w₂, hMore, h⟩ := h
  exact ⟨w₂, Nat.le_trans hOthers hMore, h⟩

/-- What has come about so far is part of any run that goes on from there. -/
def Turn.Serves {α : Type} (run : List Report → α → World → Prop) (reports : List Report) (w₁ : World) :
    Turn α → Prop
  | finished a => ∃ made, w₁.reports = reports ++ made ∧ run made a w₁
  | panicked _ => True
  | waits x | yields x => ∃ made, w₁.reports = reports ++ made ∧
      ∀ more a w', x.Returns w₁ more a w' → run (made ++ more) a w'

theorem Turn.Serves.extend {α : Type} {t : Turn α} {run run' : List Report → α → World → Prop}
    {reports reports' made : List Report} {w₁ : World} (h : t.Serves run reports w₁)
    (hReports : reports = reports' ++ made)
    (hRun : ∀ more a w', run more a w' → run' (made ++ more) a w') : t.Serves run' reports' w₁ := by
  cases t with
  | finished a =>
    obtain ⟨more, hMore, h⟩ := h
    exact ⟨made ++ more, by rw [hMore, hReports, List.append_assoc], hRun _ _ _ h⟩
  | panicked q => trivial
  | waits x | yields x =>
    obtain ⟨more, hMore, h⟩ := h
    refine ⟨made ++ more, by rw [hMore, hReports, List.append_assoc], fun last a w' hLast => ?_⟩
    rw [List.append_assoc]
    exact hRun _ _ _ (h last a w' hLast)

theorem Turn.Serves.imp {α : Type} {t : Turn α} {run run' : List Report → α → World → Prop}
    {reports reports' : List Report} {w₁ : World} (h : t.Serves run reports w₁) (hReports : reports = reports')
    (hRun : ∀ more a w', run more a w' → run' more a w') : t.Serves run' reports' w₁ := by
  subst hReports
  exact h.extend (List.append_nil reports).symm hRun

namespace World

variable {α : Type} {limit : Option Nat} {w w' : World} {a : α}

theorem returns_turn (p : Async α) (w : World) :
    (p.turn w).1.Serves (p.Returns w) w.reports (p.turn w).2 := by
  have hWait (x : Waiting α) (p : Async α) (w : World)
      (hResume : ∀ now w₁ more a w', w.nextOutcome ≤ w₁.nextOutcome →
        (x.resume now).Returns w₁ more a w' → p.Returns w more a w') :
      (Turn.waits x).Serves (p.Returns w) w.reports w := by
    refine ⟨[], (List.append_nil _).symm, ?_⟩
    rintro more a w' ⟨w₁, hOthers, now, h⟩
    exact hResume now w₁ more a w' hOthers h
  induction p generalizing w with
  | pure a => exact ⟨[], (List.append_nil _).symm, .pure a w⟩
  | panic q => trivial
  | fork task next ih => exact (ih (w.start task)).imp (w.reports_start task) fun _ _ _ => .fork
  | act x next ih => exact (ih (w.perform x).1 (w.perform x).2).imp (w.reports_perform x) fun _ _ _ => .act
  | report r next ih =>
    exact (ih { w with reports := w.reports ++ [r] }).extend rfl fun _ _ _ => .report (Nat.le_refl _)
  | notice n next ih =>
    exact (ih { w with events := w.events ++ [n] }).imp rfl fun _ _ _ => .notice (Nat.le_refl _)
  | yield next ih => exact hWait (.ready next) _ w fun _ _ _ _ _ hOthers h => .yield hOthers h
  | sleep ms next ih =>
    simp only [Program.turn]
    split
    · exact hWait (.ready (.sleep ms next)) _ w fun _ _ _ _ _ => .sleep_later
    · split
      · exact (ih w.spend).imp rfl fun _ _ _ => .sleep (Nat.le_refl _)
      · exact hWait (.sleeping _ next) _ w fun _ _ _ _ _ => .sleep_later
  | await slot timeout next ih =>
    simp only [Program.turn]
    split
    · exact hWait (.postponed slot timeout next) _ w fun _ _ _ _ _ => .await_later
    · split
      · rename_i x w₁ hCollect
        have hReports : w₁.reports = w.reports := reports_of_collectSlot? hCollect
        exact (ih x w₁.spend).imp hReports fun _ _ _ =>
          .await x (grows_of_collectSlot? hCollect).nextOutcome
      · exact hWait (.awaiting slot _ next) _ w fun _ _ _ _ _ => .await_later

end World

/-! ## Main programs -/

def Progress.Serves {α : Type} (run : List Report → α → World → Prop) (reports : List Report) :
    Progress α → Prop
  | ended (.finished a) w₁ => (Turn.finished a).Serves run reports w₁
  | ended _ _ => True
  | waits main w₁ => (Turn.waits main).Serves run reports w₁

theorem Progress.Serves.imp {α : Type} {progress : Progress α} {run run' : List Report → α → World → Prop}
    {reports reports' : List Report} (h : progress.Serves run reports) (hReports : reports = reports')
    (hRun : ∀ more a w', run more a w' → run' more a w') : progress.Serves run' reports' := by
  rcases progress with ⟨a | _ | _ | _, w₁⟩ | ⟨main, w₁⟩
  case ended.finished =>
    have hTurn : (Turn.finished a).Serves run reports w₁ := h
    exact hTurn.imp hReports hRun
  case waits =>
    have hTurn : (Turn.waits main).Serves run reports w₁ := h
    exact hTurn.imp hReports hRun
  all_goals trivial

namespace World

variable {α : Type} {limit : Option Nat}

theorem serves_wait {run : List Report → α → World → Prop} {reports : List Report} {w : World}
    {main : Waiting α} (h : (Turn.waits main).Serves run reports w) :
    (w.wait limit main).Serves run reports := by
  unfold wait
  split
  · trivial
  · exact h

theorem serves_turnMain (w : World) (limit : Option Nat) (p : Async α) :
    (w.turnMain limit p).Serves (p.Returns w) w.reports := by
  have hTurn := returns_turn p w
  unfold turnMain
  split <;> rename_i hEq <;> rw [hEq] at hTurn
  · exact hTurn
  · trivial
  · exact serves_wait hTurn
  · exact serves_wait hTurn

theorem serves_turnMain_resume {w w₁ : World} (main : Waiting α) (now : Nat)
    (hReports : w₁.reports = w.reports) (hOthers : w.nextOutcome ≤ w₁.nextOutcome) :
    (w₁.turnMain limit (main.resume now)).Serves (main.Returns w) w.reports :=
  (serves_turnMain w₁ limit _).imp hReports fun _ _ _ h => ⟨w₁, hOthers, now, h⟩

theorem serves_waits {w w₁ : World} (main : Waiting α) (hReports : w₁.reports = w.reports)
    (hOthers : w.nextOutcome ≤ w₁.nextOutcome) :
    (Turn.waits main).Serves (main.Returns w) w.reports w₁ :=
  ⟨[], by rw [hReports, List.append_nil], fun _ _ _ h => h.earlier hOthers⟩

theorem serves_attend (w : World) (limit : Option Nat) (main : Waiting α) :
    (w.attend limit main).Serves (main.Returns w) w.reports := by
  have hRested : w.Grows (wakeYielding { w with streak := 0 }) :=
    (grows_wakeYielding { w with streak := 0 }).rebase rfl rfl rfl rfl rfl
  have hReports : (wakeYielding { w with streak := 0 }).reports = w.reports := reports_enqueueAll _ _
  have hLater (time : Nat) := hRested.trans (grows_advance _ time)
  have hReports' (time : Nat) : ((wakeYielding { w with streak := 0 }).advance time).reports = w.reports :=
    (reports_enqueueAll _ _).trans hReports
  unfold attend
  simp only
  split
  · exact serves_turnMain_resume main _ hReports hRested.nextOutcome
  · split
    · exact serves_waits main hReports hRested.nextOutcome
    · split
      · trivial
      · split
        · exact serves_turnMain_resume main _ (hReports' _) (hLater _).nextOutcome
        · exact serves_wait (serves_waits main (hReports' _) (hLater _).nextOutcome)

theorem serves_step (w : World) (limit : Option Nat) (main : Waiting α) :
    (w.step limit main).Serves (main.Returns w) w.reports := by
  unfold step
  split
  · exact serves_attend w limit main
  · split
    · rename_i task rest _ _
      have hGrows := grows_turnTask { w with queue := rest, streak := w.streak + 1 } task
      exact serves_waits main (reports_turnTask _ _) hGrows.nextOutcome
    · exact serves_attend w limit main

theorem Drives.returns {main : Waiting α} {w w' : World} {a : α}
    (h : Drives limit main w (.finished a) w') :
    ∃ made, w'.reports = w.reports ++ made ∧ main.Returns w made a w' := by
  generalize hEnding : Ending.finished a = e at h
  induction h with
  | @last main w w' e h =>
    subst hEnding
    have hStep := serves_step w limit main
    rw [h] at hStep
    exact hStep
  | @more main main' w w₁ w' e h _ ih =>
    have hStep := serves_step w limit main
    rw [h] at hStep
    obtain ⟨made, hMade, hRun⟩ := hStep
    obtain ⟨more, hMore, hRest⟩ := ih hEnding
    exact ⟨made ++ more, by rw [hMore, hMade, List.append_assoc], hRun _ _ _ hRest⟩

theorem Ends.returns {p : Async α} {w w' : World} {a : α} (h : Ends limit p w (.finished a) w') :
    ∃ made, w'.reports = w.reports ++ made ∧ p.Returns w made a w' := by
  have hTurn := serves_turnMain w limit p
  unfold Ends at h
  cases hMain : w.turnMain limit p with
  | ended e w₁ =>
    rw [hMain] at h hTurn
    obtain ⟨rfl, rfl⟩ := h
    exact hTurn
  | waits main w₁ =>
    rw [hMain] at h hTurn
    obtain ⟨made, hMade, hRun⟩ := hTurn
    obtain ⟨more, hMore, hRest⟩ := Drives.returns h
    exact ⟨made ++ more, by rw [hMore, hMade, List.append_assoc], hRun _ _ _ hRest⟩

end World

end TestBench
