import TestBench.Proofs.Signal.Record

/-! # Programs with other output

A program makes reports and gives notices, and nothing that it or anybody else does depends on them. So a
main program that makes other reports in place of its own, and leaves out some notices, runs as before: it takes
the same steps to the same ending, and the worlds on the way agree in all but that (`World.run_recast`). Sifting
out some of the output is the special case where nothing takes its place (`World.run_sift`).
-/

namespace TestBench

namespace Program

variable {τ α β : Type} {f : Report → List Report} {kept : Report → Bool} {heard : Notice → Bool}

def makes (reports : List Report) (p : Program τ α) : Program τ α := reports.foldr report p

/-- The program that makes other reports in place of each of its own, and does not give the notices that are
not heard. Tasks that it starts stay as they are. -/
def recast (f : Report → List Report) (heard : Notice → Bool) : Program τ α → Program τ α
  | pure a => pure a
  | panic q => panic q
  | fork task next => fork task (next.recast f heard)
  | act a next => act a fun x => (next x).recast f heard
  | report r next => (next.recast f heard).makes (f r)
  | notice e next => if heard e.notice then notice e (next.recast f heard) else next.recast f heard
  | sleep ms next => sleep ms (next.recast f heard)
  | yield next => yield (next.recast f heard)
  | await slot timeout next => await slot timeout fun x => (next x).recast f heard

/-- The program without the reports that are not kept and the notices that are not heard. Tasks that it
starts stay as they are. -/
def sift (kept : Report → Bool) (heard : Notice → Bool) : Program τ α → Program τ α
  | pure a => pure a
  | panic q => panic q
  | fork task next => fork task (next.sift kept heard)
  | act a next => act a fun x => (next x).sift kept heard
  | report r next => if kept r then report r (next.sift kept heard) else next.sift kept heard
  | notice e next => if heard e.notice then notice e (next.sift kept heard) else next.sift kept heard
  | sleep ms next => sleep ms (next.sift kept heard)
  | yield next => yield (next.sift kept heard)
  | await slot timeout next => await slot timeout fun x => (next x).sift kept heard

theorem sift_eq_recast (p : Program τ α) :
    p.sift kept heard = p.recast (fun r => if kept r then [r] else []) heard := by
  induction p with
  | report r next ih => simp only [sift, recast, ih]; split <;> rfl
  | notice e next ih => simp only [sift, recast, ih]
  | _ => simp_all [sift, recast]

theorem makes_bind (reports : List Report) (p : Program τ α) (g : α → Program τ β) :
    (p.makes reports).bind g = (p.bind g).makes reports := by
  induction reports with
  | nil => rfl
  | cons r reports ih => exact congrArg (report r) ih

theorem makes_within (reports : List Report) (s : Span) (p : Program τ α) :
    (p.makes reports).within s = (p.within s).makes reports := by
  induction reports with
  | nil => rfl
  | cons r reports ih => exact congrArg (report r) ih

theorem recast_bind (p : Program τ α) (g : α → Program τ β) :
    (p.bind g).recast f heard = (p.recast f heard).bind fun a => (g a).recast f heard := by
  induction p with
  | report r next ih => simp only [bind, recast, ih, makes_bind]
  | notice e next ih => simp only [bind, recast, ih]; split <;> rfl
  | _ => simp_all [bind, recast]

theorem recast_within (s : Span) (p : Program τ α) :
    (p.within s).recast f heard = (p.recast f heard).within s := by
  induction p with
  | report r next ih => simp only [within, recast, ih, makes_within]
  | notice e next ih => simp only [within, recast, ih]; split <;> rfl
  | _ => simp_all [within, recast]

theorem recast_under (spans : List Span) (p : Program τ α) :
    (p.under spans).recast f heard = (p.recast f heard).under spans := by
  induction spans with
  | nil => rfl
  | cons s spans ih => rw [← within_under, recast_within, ih]; rfl

theorem recast_same (p : Program τ α) : p.recast (fun r => [r]) (fun _ => true) = p := by
  induction p <;> simp_all [recast, makes]

theorem recast_muted (p : Program τ α) : p.muted.recast f (fun _ => true) = p.muted := by
  induction p <;> simp_all [muted, recast]

theorem sift_bind (p : Program τ α) (g : α → Program τ β) :
    (p.bind g).sift kept heard = (p.sift kept heard).bind fun a => (g a).sift kept heard := by
  simp only [sift_eq_recast, recast_bind]

theorem sift_under (spans : List Span) (p : Program τ α) :
    (p.under spans).sift kept heard = (p.sift kept heard).under spans := by
  simp only [sift_eq_recast, recast_under]

theorem turn_makes {p : Async α} (reports : List Report) (w : World) :
    (p.makes reports).turn w = p.turn { w with reports := w.reports ++ reports } := by
  induction reports generalizing w with
  | nil => rw [List.append_nil]; rfl
  | cons r reports ih => exact (ih _).trans (by rw [List.append_assoc]; rfl)

end Program

namespace Waiting

variable {α : Type} {f : Report → List Report} {heard : Notice → Bool}

def recast (f : Report → List Report) (heard : Notice → Bool) : Waiting α → Waiting α
  | ready next => ready (next.recast f heard)
  | sleeping due next => sleeping due (next.recast f heard)
  | awaiting slot due next => awaiting slot due fun x => (next x).recast f heard
  | postponed slot timeout next => postponed slot timeout fun x => (next x).recast f heard

theorem recast_same (x : Waiting α) : x.recast (fun r => [r]) (fun _ => true) = x := by
  cases x <;> simp only [recast, Program.recast_same]

@[simp] theorem due?_recast (x : Waiting α) : (x.recast f heard).due? = x.due? := by cases x <;> rfl

@[simp] theorem resume_recast (x : Waiting α) (now : Nat) :
    (x.recast f heard).resume now = (x.resume now).recast f heard := by cases x <;> rfl

end Waiting

def Turn.recast {α : Type} (f : Report → List Report) (heard : Notice → Bool) : Turn α → Turn α
  | finished a => finished a
  | panicked q => panicked q
  | waits x => waits (x.recast f heard)
  | yields x => yields (x.recast f heard)

theorem Turn.recast_same {α : Type} (t : Turn α) : t.recast (fun r => [r]) (fun _ => true) = t := by
  cases t <;> simp only [recast, Waiting.recast_same]

namespace World

/-- Worlds that agree but for their reports, which are related, and for the notices that are not heard. -/
def Agrees (heard : Notice → Bool) (R : List Report → List Report → Prop) (w w' : World) : Prop :=
  ∃ reports events, w' = { w with reports, events } ∧ R w.reports reports ∧
    events.filter (heard ·.notice) = w.events.filter (heard ·.notice)

namespace Agrees

variable {α : Type} {heard : Notice → Bool} {R S : List Report → List Report → Prop} {w w' : World}

theorem now_eq (h : w.Agrees heard R w') : w'.now = w.now := by
  obtain ⟨_, _, rfl, -⟩ := h
  rfl

theorem reports (h : w.Agrees heard R w') : R w.reports w'.reports := by
  obtain ⟨_, _, rfl, hReports, -⟩ := h
  exact hReports

theorem withReports (h : w.Agrees heard R w') {reports reports' : List Report} (hReports : S reports reports') :
    Agrees heard S { w with reports } { w' with reports := reports' } := by
  obtain ⟨_, events, rfl, -, hEvents⟩ := h
  exact ⟨reports', events, rfl, hReports, hEvents⟩

theorem enqueue (h : w.Agrees heard R w') (task : Nat) : (w.enqueue task).Agrees heard R (w'.enqueue task) := by
  obtain ⟨reports, events, rfl, hKept⟩ := h
  unfold World.enqueue
  split
  · exact ⟨reports, events, rfl, hKept⟩
  · exact ⟨reports, events, rfl, hKept⟩

theorem enqueueAll (h : w.Agrees heard R w') (tasks : List Nat) :
    (w.enqueueAll tasks).Agrees heard R (w'.enqueueAll tasks) := by
  induction tasks generalizing w w' with
  | nil => exact h
  | cons task tasks ih => exact ih (h.enqueue task)

theorem start (h : w.Agrees heard R w') (t : Task) : (w.start t).Agrees heard R (w'.start t) := by
  obtain ⟨reports, events, rfl, hKept⟩ := h
  have hNumbered : Agrees heard R
      { w with nextTask := w.nextTask + 1, tasks := w.tasks ++ [(w.nextTask, .ready t.body)] }
      { w with nextTask := w.nextTask + 1, tasks := w.tasks ++ [(w.nextTask, .ready t.body)], reports, events } :=
    ⟨reports, events, rfl, hKept⟩
  exact hNumbered.enqueue w.nextTask

theorem wake (h : w.Agrees heard R w') (p : Waiting Unit → Bool) : (w.wake p).Agrees heard R (w'.wake p) := by
  obtain ⟨reports, events, rfl, hKept⟩ := h
  exact enqueueAll ⟨reports, events, rfl, hKept⟩ _

theorem wakeYielding (h : w.Agrees heard R w') : w.wakeYielding.Agrees heard R w'.wakeYielding := by
  obtain ⟨reports, events, rfl, hKept⟩ := h
  have hNone : Agrees heard R { w with yielding := [] } { w with yielding := [], reports, events } :=
    ⟨reports, events, rfl, hKept⟩
  exact hNone.enqueueAll (w.yielding.filter w.isLive)

theorem setSlot (h : w.Agrees heard R w') (slot : Nat) (s : Slot) :
    (w.setSlot slot s).Agrees heard R (w'.setSlot slot s) := by
  obtain ⟨reports, events, rfl, hKept⟩ := h
  exact ⟨reports, events, rfl, hKept⟩

theorem settle (h : w.Agrees heard R w') (slot : Nat) (r : Result) :
    (w'.settle slot r).1 = (w.settle slot r).1 ∧ (w.settle slot r).2.Agrees heard R (w'.settle slot r).2 := by
  obtain ⟨reports, events, rfl, hKept⟩ := h
  rcases hSlot : w.slots[slot]? with _ | (_ | r' | r' | _ | _ | _) <;> simp only [World.settle, hSlot]
  case some.vacant => exact ⟨trivial, (setSlot ⟨reports, events, rfl, hKept⟩ slot _).wake _⟩
  all_goals exact ⟨trivial, reports, events, rfl, hKept⟩

theorem abandon (h : w.Agrees heard R w') (slot : Nat) : (w.abandon slot).Agrees heard R (w'.abandon slot) := by
  obtain ⟨reports, events, rfl, hKept⟩ := h
  rcases hSlot : w.slots[slot]? with _ | (_ | r | r | _ | _ | _) <;> simp only [World.abandon, hSlot]
  all_goals exact ⟨reports, events, rfl, hKept⟩

theorem letGo (h : w.Agrees heard R w') (holder : Holder) (slot : Nat) :
    (w.letGo holder slot).Agrees heard R (w'.letGo holder slot) := by
  obtain ⟨reports, events, rfl, hKept⟩ := h
  unfold World.letGo World.isHeld World.close
  dsimp only
  split
  · exact ⟨reports, events, rfl, hKept⟩
  · split
    · refine wake (setSlot (w := { w with holds := w.holds.erase (holder, slot) }) ?_ slot .closed) _
      exact ⟨reports, events, rfl, hKept⟩
    · exact ⟨reports, events, rfl, hKept⟩

theorem perform (h : w.Agrees heard R w') (a : Action) :
    (w'.perform a).1 = (w.perform a).1 ∧ (w.perform a).2.Agrees heard R (w'.perform a).2 := by
  cases a with
  | settle slot r => exact h.settle slot r
  | abandon slot => exact ⟨rfl, h.abandon slot⟩
  | release holder slot => exact ⟨rfl, h.letGo holder slot⟩
  | _ =>
    obtain ⟨reports, events, rfl, hKept⟩ := h
    exact ⟨rfl, reports, events, rfl, hKept⟩

theorem collectSlot? (h : w.Agrees heard R w') (slot : Nat) (timeout : Option Nat) :
    w.collectSlot? slot timeout = none ∧ w'.collectSlot? slot timeout = none ∨
      ∃ x w₁ w₁', w.collectSlot? slot timeout = some (x, w₁) ∧ w'.collectSlot? slot timeout = some (x, w₁') ∧
        w₁.Agrees heard R w₁' := by
  obtain ⟨reports, events, rfl, hKept⟩ := h
  rcases hSlot : w.slots[slot]? with _ | (_ | r | r | _ | _ | _) <;> simp only [World.collectSlot?, hSlot]
  case some.vacant =>
    split
    · exact .inr ⟨_, _, _, rfl, rfl, reports, events, rfl, hKept⟩
    · exact .inl ⟨rfl, rfl⟩
  all_goals exact .inr ⟨_, _, _, rfl, rfl, reports, events, rfl, hKept⟩

theorem spend (h : w.Agrees heard R w') : w.spend.Agrees heard R w'.spend := by
  obtain ⟨reports, events, rfl, hKept⟩ := h
  exact ⟨reports, events, rfl, hKept⟩

theorem drop (h : w.Agrees heard R w') {x x' : Waiting α} (hx : w'.drop x' = w'.drop x) :
    (w.drop x).Agrees heard R (w'.drop x') := by
  rw [hx]
  cases x with
  | awaiting slot => exact h.abandon slot
  | postponed slot => exact h.abandon slot
  | _ => exact h

theorem canResume_eq (h : w.Agrees heard R w') (x : Waiting α) : w'.canResume x = w.canResume x := by
  obtain ⟨_, _, rfl, -⟩ := h
  rfl

/-! ## Turns -/

theorem turn (f : Report → List Report) (heard' : Notice → Bool) (p : Async α) (h : w.Agrees heard R w')
    (hRecast : ∀ r l l', R l l' → R (l ++ [r]) (l' ++ f r)) (hHeard : ∀ n, ¬ heard' n → ¬ heard n) :
    ((p.recast f heard').turn w').1 = (p.turn w).1.recast f heard' ∧
      (p.turn w).2.Agrees heard R ((p.recast f heard').turn w').2 := by
  have hBudget {w w' : World} (h : w.Agrees heard R w') : w'.budget = w.budget ∧ w'.dueAfter = w.dueAfter := by
    obtain ⟨_, _, rfl, -⟩ := h
    exact ⟨rfl, rfl⟩
  induction p generalizing w w' with
  | pure | panic | yield => exact ⟨rfl, h⟩
  | fork task next ih => exact ih (h.start task)
  | act a next ih =>
    obtain ⟨hAnswer, hDone⟩ := h.perform a
    simp only [Program.recast, Program.turn, hAnswer]
    exact ih _ hDone
  | report r next ih =>
    simp only [Program.recast, Program.turn_makes, Program.turn]
    exact ih (h.withReports (hRecast r _ _ h.reports))
  | notice e next ih =>
    obtain ⟨reports, events, rfl, hReports, hEvents⟩ := h
    by_cases hn : heard' e.notice
    · simp only [Program.recast, hn, if_true, Program.turn]
      exact ih ⟨reports, events ++ [e], rfl, hReports, by simp only [List.filter_append, hEvents]⟩
    · simp only [Program.recast, hn, Bool.false_eq_true, if_false, Program.turn]
      exact ih ⟨reports, events, rfl, hReports, by simp [List.filter_append, hEvents, hHeard _ hn]⟩
  | sleep ms next ih =>
    simp only [Program.recast, Program.turn, hBudget h]
    split
    · exact ⟨rfl, h⟩
    · split
      · exact ih h.spend
      · exact ⟨rfl, h⟩
  | await slot timeout next ih =>
    simp only [Program.recast, Program.turn, hBudget h]
    split
    · exact ⟨rfl, h⟩
    · obtain ⟨hNone, hNone'⟩ | ⟨x, w₁, w₁', hSome, hSome', hCollected⟩ := h.collectSlot? slot timeout
      · simp only [hNone, hNone']
        exact ⟨rfl, h⟩
      · simp only [hSome, hSome']
        exact ih x hCollected.spend

theorem turn_same (p : Async α) (h : w.Agrees heard (fun _ _ => True) w') :
    (p.turn w').1 = (p.turn w).1 ∧ (p.turn w).2.Agrees heard (fun _ _ => True) (p.turn w').2 := by
  have hTurn := h.turn (fun r => [r]) (fun _ => true) p (fun _ _ _ => id) (by simp)
  rwa [Program.recast_same, Turn.recast_same] at hTurn

theorem settleTask (h : w.Agrees heard R w') (task : Nat) (t : Turn Unit) :
    (w.settleTask task t).Agrees heard R (w'.settleTask task t) := by
  have hFollow {w w' : World} (h : w.Agrees heard R w') : (w.followUp task).Agrees heard R (w'.followUp task) := by
    obtain ⟨reports, events, rfl, hKept⟩ := h
    unfold followUp
    split
    · exact enqueue ⟨reports, events, rfl, hKept⟩ task
    · exact ⟨reports, events, rfl, hKept⟩
  obtain ⟨reports, events, rfl, hKept⟩ := h
  cases t with
  | finished | panicked => exact ⟨reports, events, rfl, hKept⟩
  | waits x => exact hFollow ⟨reports, events, rfl, hKept⟩
  | yields x => exact hFollow ⟨reports, events, rfl, hKept⟩

theorem settledTurn (h : w.Agrees heard (fun _ _ => True) w') (task : Nat) (p : Async Unit) :
    ((p.turn w).2.settleTask task (p.turn w).1).Agrees heard (fun _ _ => True)
      ((p.turn w').2.settleTask task (p.turn w').1) := by
  obtain ⟨hSame, hAfter⟩ := h.turn_same p
  rw [hSame]
  exact hAfter.settleTask task _

theorem turnTask (h : w.Agrees heard R w') (task : Nat) : (w.turnTask task).Agrees heard R (w'.turnTask task) := by
  have hReports := h.reports
  obtain ⟨reports, events, rfl, hKept⟩ := h
  have hResume (x : Waiting Unit) : ({ w with reports, events } : World).canResume x = w.canResume x := rfl
  cases hLookup : w.tasks.lookup task with
  | none =>
    simp only [World.turnTask, hLookup]
    exact ⟨reports, events, rfl, hKept⟩
  | some x =>
    by_cases hCan : w.canResume x
    · let before : World := World.beginTurn { w with tasks := w.tasks.filter (·.1 != task) }
      have hBefore : before.Agrees heard (fun _ _ => True) { before with reports, events } :=
        ⟨reports, events, rfl, trivial, hKept.2⟩
      simp only [World.turnTask, hLookup, hResume, hCan, if_true]
      exact (hBefore.settledTurn task (x.resume w.now)).withReports hReports
    · simp only [World.turnTask, hLookup, hResume, hCan]
      exact ⟨reports, events, rfl, hKept⟩

/-! ## Steps of the main program -/

theorem beginTurn (h : w.Agrees heard R w') : w.beginTurn.Agrees heard R w'.beginTurn := by
  obtain ⟨reports, events, rfl, hKept⟩ := h
  exact ⟨reports, events, rfl, hKept⟩

theorem rested (h : w.Agrees heard R w') : w.rested.Agrees heard R w'.rested := by
  obtain ⟨reports, events, rfl, hKept⟩ := h
  have hLooked : Agrees heard R { w with streak := 0 } { w with streak := 0, reports, events } :=
    ⟨reports, events, rfl, hKept⟩
  exact hLooked.wakeYielding

theorem advance (h : w.Agrees heard R w') (time : Nat) : (w.advance time).Agrees heard R (w'.advance time) := by
  obtain ⟨reports, events, rfl, hKept⟩ := h
  have hLater : Agrees heard R { w with now := max w.now time }
      { w with now := max w.now time, reports, events } := ⟨reports, events, rfl, hKept⟩
  exact hLater.wake (·.isDue (max w.now time))

end Agrees

end World

inductive Progress.Agrees {α : Type} (f : Report → List Report) (heard : Notice → Bool) :
    Progress α → Progress α → Prop
  | ended {w w' : World} (e : Ending α) (h : w.Agrees heard (fun a b => b = a.flatMap f) w') :
      Agrees f heard (.ended e w) (.ended e w')
  | waits {w w' : World} (x : Waiting α) (h : w.Agrees heard (fun a b => b = a.flatMap f) w') :
      Agrees f heard (.waits x w) (.waits (x.recast f heard) w')

namespace World.Agrees

variable {α : Type} {f : Report → List Report} {heard : Notice → Bool} {w w' : World} (limit : Option Nat)

theorem wait (h : w.Agrees heard (fun a b => b = a.flatMap f) w') (x : Waiting α) :
    (w.wait limit x).Agrees f heard (w'.wait limit (x.recast f heard)) := by
  unfold World.wait isPast
  rw [h.now_eq]
  split
  · refine .ended _ (h.drop ?_)
    cases x <;> rfl
  · exact .waits x h

theorem turnMain (h : w.Agrees heard (fun a b => b = a.flatMap f) w') (p : Async α) :
    (w.turnMain limit p).Agrees f heard (w'.turnMain limit (p.recast f heard)) := by
  obtain ⟨hTurn, hAfter⟩ := h.turn f heard p (fun r l l' h => by simp [h]) (fun _ hn => hn)
  unfold World.turnMain
  rcases hHere : p.turn w with ⟨t, w₁⟩
  rcases hThere : (p.recast f heard).turn w' with ⟨t', w₁'⟩
  simp only [hHere, hThere] at hTurn hAfter
  subst hTurn
  cases t with
  | finished a => exact .ended _ hAfter
  | panicked q => exact .ended _ hAfter
  | waits x => exact hAfter.wait limit x
  | yields x => exact hAfter.wait limit x

theorem lookAt (h : w.Agrees heard (fun a b => b = a.flatMap f) w') (x : Waiting α) :
    (w.lookAt limit x).Agrees f heard (w'.lookAt limit (x.recast f heard)) := by
  have hResume {v v' : World} (h : v.Agrees heard (fun a b => b = a.flatMap f) v') :
      v'.canResume (x.recast f heard) = v.canResume x := by
    rw [← h.canResume_eq x]
    cases x <;> rfl
  have hQueue : w'.queue = w.queue := by
    obtain ⟨_, _, rfl, -⟩ := h
    rfl
  have hDues : w'.dues (x.recast f heard) limit = w.dues x limit := by
    obtain ⟨_, _, rfl, -⟩ := h
    simp only [dues, Waiting.due?_recast]
  unfold World.lookAt
  simp only [hResume h, hQueue, hDues, Waiting.resume_recast]
  split
  · rw [h.now_eq]
    exact h.beginTurn.turnMain limit _
  split
  · exact .waits x h
  split
  · refine .ended _ (h.drop ?_)
    cases x <;> rfl
  · rename_i time _
    have hLater := h.advance time
    rw [hResume hLater]
    split
    · rw [hLater.now_eq]
      exact hLater.beginTurn.turnMain limit _
    · exact hLater.wait limit x

theorem attend (h : w.Agrees heard (fun a b => b = a.flatMap f) w') (x : Waiting α) :
    (w.attend limit x).Agrees f heard (w'.attend limit (x.recast f heard)) := by
  rw [attend_eq, attend_eq]
  exact h.rested.lookAt limit x

theorem step (h : w.Agrees heard (fun a b => b = a.flatMap f) w') (x : Waiting α) :
    (w.step limit x).Agrees f heard (w'.step limit (x.recast f heard)) := by
  have hAttend := h.attend limit x
  have hStep (task : Nat) (rest : List Nat) :
      ({ w with queue := rest, streak := w.streak + 1 }.turnTask task).Agrees heard
        (fun a b => b = a.flatMap f) ({ w' with queue := rest, streak := w.streak + 1 }.turnTask task) := by
    obtain ⟨reports, events, rfl, hKept⟩ := h
    exact turnTask ⟨reports, events, rfl, hKept⟩ task
  have hSame : w'.queue = w.queue ∧ w'.streak = w.streak := by
    obtain ⟨_, _, rfl, -⟩ := h
    exact ⟨rfl, rfl⟩
  unfold World.step
  rw [hSame.1, hSame.2]
  split
  · exact hAttend
  · split
    · exact .waits x (hStep _ _)
    · exact hAttend

theorem drive (h : w.Agrees heard (fun a b => b = a.flatMap f) w') (turns : Nat) (x : Waiting α) :
    (World.drive limit turns (x.recast f heard) w').1 = (World.drive limit turns x w).1 ∧
      (World.drive limit turns x w).2.Agrees heard (fun a b => b = a.flatMap f)
        (World.drive limit turns (x.recast f heard) w').2 := by
  induction turns generalizing x w w' with
  | zero => exact ⟨rfl, h⟩
  | succ turns ih =>
    have hStep := h.step limit x
    simp only [World.drive]
    generalize w.step limit x = here at hStep
    generalize w'.step limit (x.recast f heard) = there at hStep
    cases hStep with
    | ended e h => exact ⟨rfl, h⟩
    | waits x h => exact ih h x

end World.Agrees

/-- A main program with other output comes to the same ending, in as many steps, and leaves a world that differs
in the output alone. -/
theorem World.run_recast {α : Type} {w w' : World} (turns : Nat) (limit : Option Nat) (f : Report → List Report)
    (heard : Notice → Bool) (p : Async α) (h : w.Agrees heard (fun a b => b = a.flatMap f) w') :
    (run turns limit (p.recast f heard) w').1 = (run turns limit p w).1 ∧
      (run turns limit p w).2.Agrees heard (fun a b => b = a.flatMap f)
        (run turns limit (p.recast f heard) w').2 := by
  have hTurn := h.turnMain (limit.map (w.now + ·)) p
  simp only [run, h.now_eq]
  generalize w.turnMain _ p = here at hTurn
  generalize w'.turnMain _ _ = there at hTurn
  cases hTurn with
  | ended e h => exact ⟨rfl, h⟩
  | waits x h => exact h.drive _ turns x

/-- So does one from which some of its output is sifted out. -/
theorem World.run_sift {α : Type} {w w' : World} (turns : Nat) (limit : Option Nat) (kept : Report → Bool)
    (heard : Notice → Bool) (p : Async α) (h : w.Agrees heard (fun a b => b = a.filter kept) w') :
    (run turns limit (p.sift kept heard) w').1 = (run turns limit p w).1 ∧
      (run turns limit p w).2.Agrees heard (fun a b => b = a.filter kept)
        (run turns limit (p.sift kept heard) w').2 := by
  have hFilter (l : List Report) : l.filter kept = l.flatMap fun r => if kept r then [r] else [] := by
    induction l with
    | nil => rfl
    | cons r l ih => rw [List.filter_cons, List.flatMap_cons, ih]; split <;> rfl
  simp only [hFilter] at h ⊢
  rw [Program.sift_eq_recast]
  exact run_recast turns limit _ heard p h

end TestBench
