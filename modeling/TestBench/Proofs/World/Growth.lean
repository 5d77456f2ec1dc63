import TestBench.Proofs.World.Ending

/-! # What a world only adds to

The clock never goes back, numbers of outcomes are never given twice, and nothing that was logged,
announced or reported is taken back: whatever a world becomes in the course of a run, it has grown.
-/

namespace TestBench

namespace World

/-- Nothing of what came out of a world is lost in a later one. -/
structure Grows (w w' : World) : Prop where
  now : w.now ≤ w'.now
  nextOutcome : w.nextOutcome ≤ w'.nextOutcome
  log : w.log <+: w'.log
  events : w.events <+: w'.events
  reports : w.reports <+: w'.reports

namespace Grows

@[refl] protected theorem refl (w : World) : w.Grows w :=
  ⟨Nat.le_refl _, Nat.le_refl _, List.prefix_refl _, List.prefix_refl _, List.prefix_refl _⟩

protected theorem trans {w₁ w₂ w₃ : World} (h : w₁.Grows w₂) (h' : w₂.Grows w₃) : w₁.Grows w₃ :=
  ⟨Nat.le_trans h.now h'.now, Nat.le_trans h.nextOutcome h'.nextOutcome, h.log.trans h'.log,
    h.events.trans h'.events, h.reports.trans h'.reports⟩

theorem rebase {w w₁ w' : World} (h : w₁.Grows w') (hNow : w.now = w₁.now)
    (hNext : w.nextOutcome = w₁.nextOutcome) (hLog : w.log = w₁.log) (hEvents : w.events = w₁.events)
    (hReports : w.reports = w₁.reports) : w.Grows w' :=
  ⟨hNow ▸ h.now, hNext ▸ h.nextOutcome, hLog ▸ h.log, hEvents ▸ h.events, hReports ▸ h.reports⟩

end Grows

variable {α : Type} {limit : Option Nat}

theorem enqueue_eq (w : World) (task : Nat) : ∃ q, w.enqueue task = { w with queue := q } := by
  unfold enqueue
  split
  · exact ⟨w.queue, rfl⟩
  · exact ⟨_, rfl⟩

theorem enqueueAll_eq (w : World) (tasks : List Nat) :
    ∃ q, w.enqueueAll tasks = { w with queue := q } := by
  induction tasks generalizing w with
  | nil => exact ⟨w.queue, rfl⟩
  | cons task tasks ih =>
    obtain ⟨q, hq⟩ := w.enqueue_eq task
    obtain ⟨q', hq'⟩ := ih { w with queue := q }
    exact ⟨q', by rw [enqueueAll, List.foldl_cons, hq]; exact hq'⟩

theorem now_enqueueAll (w : World) (tasks : List Nat) : (w.enqueueAll tasks).now = w.now := by
  obtain ⟨q, hq⟩ := w.enqueueAll_eq tasks
  rw [hq]

theorem grows_enqueueAll (w : World) (tasks : List Nat) : w.Grows (w.enqueueAll tasks) := by
  obtain ⟨q, hq⟩ := w.enqueueAll_eq tasks
  exact hq ▸ (Grows.refl _).rebase rfl rfl rfl rfl rfl

theorem grows_enqueue (w : World) (task : Nat) : w.Grows (w.enqueue task) :=
  w.grows_enqueueAll [task]

theorem grows_wakeYielding (w : World) : w.Grows w.wakeYielding :=
  (grows_enqueueAll _ _).rebase rfl rfl rfl rfl rfl

theorem grows_start (w : World) (t : Task) : w.Grows (w.start t) :=
  (grows_enqueue _ _).rebase rfl rfl rfl rfl rfl

theorem grows_settle (w : World) (slot : Nat) (result : Result) : w.Grows (w.settle slot result).2 := by
  unfold settle
  split
  · exact (grows_enqueueAll _ _).rebase rfl rfl rfl rfl rfl
  · rfl

theorem grows_abandon (w : World) (slot : Nat) : w.Grows (w.abandon slot) := by
  unfold abandon
  split <;> exact (Grows.refl _).rebase rfl rfl rfl rfl rfl

theorem letGo_eq (w : World) (holder : Holder) (slot : Nat) :
    ∃ slots queue, slots.length = w.slots.length ∧ w.letGo holder slot =
      { w with slots := slots, holds := w.holds.erase (holder, slot), queue := queue } := by
  unfold letGo close wake
  dsimp only
  split
  · exact ⟨_, _, rfl, rfl⟩
  · split
    · obtain ⟨q, hq⟩ := enqueueAll_eq (setSlot { w with holds := w.holds.erase (holder, slot) } slot .closed) _
      exact ⟨_, q, List.length_set, hq⟩
    · exact ⟨_, _, rfl, rfl⟩

theorem perform_eq (w : World) (a : Action) : ∃ nextOutcome slots holds board calls log queue,
    (w.perform a).2 = { w with nextOutcome, slots, holds, board, calls, log, queue } := by
  cases a with
  | settle slot result =>
    simp only [perform, settle]
    split
    · obtain ⟨q, hq⟩ := (w.setSlot slot (.settled result)).enqueueAll_eq _
      exact ⟨_, _, _, _, _, _, q, hq⟩
    · exact ⟨_, _, _, _, _, _, _, rfl⟩
  | abandon slot =>
    simp only [perform, abandon]
    split <;> exact ⟨_, _, _, _, _, _, _, rfl⟩
  | release holder slot =>
    obtain ⟨slots, queue, -, hEq⟩ := w.letGo_eq holder slot
    exact ⟨_, _, _, _, _, _, _, hEq⟩
  | _ => exact ⟨_, _, _, _, _, _, _, rfl⟩

theorem grows_letGo (w : World) (holder : Holder) (slot : Nat) : w.Grows (w.letGo holder slot) := by
  obtain ⟨slots, queue, -, hEq⟩ := w.letGo_eq holder slot
  rw [hEq]
  exact (Grows.refl _).rebase rfl rfl rfl rfl rfl

theorem grows_drop (w : World) (x : Waiting α) : w.Grows (w.drop x) := by
  cases x with
  | awaiting slot => exact w.grows_abandon slot
  | postponed slot => exact w.grows_abandon slot
  | _ => rfl

theorem grows_perform (w : World) (a : Action) : w.Grows (w.perform a).2 := by
  cases a with
  | log line => exact { Grows.refl w with log := List.prefix_append _ _ }
  | newOutcome => exact { Grows.refl w with nextOutcome := Nat.le_succ _ }
  | settle slot result => exact w.grows_settle slot result
  | abandon slot => exact w.grows_abandon slot
  | release holder slot => exact w.grows_letGo holder slot
  | _ => exact (Grows.refl _).rebase rfl rfl rfl rfl rfl

theorem grows_of_collectSlot? {w w' : World} {slot : Nat} {timeout : Option Nat} {r : Option Result}
    (h : w.collectSlot? slot timeout = some (r, w')) : w.Grows w' := by
  unfold collectSlot? at h
  split at h
  · cases h; exact (Grows.refl _).rebase rfl rfl rfl rfl rfl
  · split at h
    · cases h; exact (Grows.refl _).rebase rfl rfl rfl rfl rfl
    · cases h
  · cases h; rfl

theorem grows_turn (p : Async α) (w : World) : w.Grows (p.turn w).2 := by
  induction p generalizing w with
  | pure a => rfl
  | panic q => rfl
  | yield next ih => rfl
  | fork task next ih => exact (w.grows_start task).trans (ih _)
  | act a next ih => exact (w.grows_perform a).trans (ih _ _)
  | report r next ih =>
    let w₁ : World := { w with reports := w.reports ++ [r] }
    have hReport : w.Grows w₁ := { Grows.refl w with reports := List.prefix_append _ _ }
    exact hReport.trans (ih _)
  | notice e next ih =>
    let w₁ : World := { w with events := w.events ++ [e] }
    have hEvent : w.Grows w₁ := { Grows.refl w with events := List.prefix_append _ _ }
    exact hEvent.trans (ih _)
  | sleep ms next ih =>
    unfold Program.turn
    split
    · rfl
    · split
      · exact (ih w.spend).rebase rfl rfl rfl rfl rfl
      · rfl
  | await slot timeout next ih =>
    unfold Program.turn
    split
    · rfl
    · split
      · rename_i w' h
        exact (grows_of_collectSlot? h).trans ((ih _ w'.spend).rebase rfl rfl rfl rfl rfl)
      · rfl

theorem grows_followUp (w : World) (task : Nat) : w.Grows (w.followUp task) := by
  unfold followUp
  split
  · exact w.grows_enqueue task
  · rfl

theorem grows_settleTask (w : World) (task : Nat) (t : Turn Unit) : w.Grows (w.settleTask task t) := by
  cases t with
  | finished _ => rfl
  | panicked _ => rfl
  | waits x =>
    exact (grows_followUp (w.keep task x) task).rebase rfl rfl rfl rfl rfl
  | yields x => exact (grows_followUp _ task).rebase rfl rfl rfl rfl rfl

theorem grows_turnTask (w : World) (task : Nat) : w.Grows (w.turnTask task) := by
  unfold turnTask
  split
  · rfl
  · split
    · rename_i x _ _
      let w₁ : World := beginTurn { w with tasks := w.tasks.filter (·.1 != task) }
      have hTurn := (grows_turn (x.resume w.now) w₁).trans
        (grows_settleTask _ task ((x.resume w.now).turn w₁).1)
      exact ⟨hTurn.now, hTurn.nextOutcome, hTurn.log, hTurn.events, List.prefix_refl _⟩
    · rfl

end World

def Progress.world {α : Type} : Progress α → World
  | ended _ w => w
  | waits _ w => w

namespace World

variable {α : Type} {limit : Option Nat}

theorem grows_advance (w : World) (time : Nat) : w.Grows (w.advance time) :=
  let w₁ : World := { w with now := max w.now time }
  have hClock : w.Grows w₁ := { Grows.refl w with now := Nat.le_max_left _ _ }
  hClock.trans (grows_enqueueAll _ _)

theorem grows_wait (w : World) (main : Waiting α) : w.Grows (w.wait limit main).world := by
  unfold wait
  split
  · exact w.grows_drop main
  · rfl

theorem grows_turnMain (w : World) (limit : Option Nat) (p : Async α) :
    w.Grows (w.turnMain limit p).world := by
  have hTurn := grows_turn p w
  unfold turnMain
  split <;> rename_i h <;> rw [h] at hTurn
  · exact hTurn
  · exact hTurn
  · exact hTurn.trans (grows_wait _ _)
  · exact hTurn.trans (grows_wait _ _)

theorem grows_attend (w : World) (limit : Option Nat) (main : Waiting α) :
    w.Grows (w.attend limit main).world := by
  have hRested : w.Grows (wakeYielding { w with streak := 0 }) :=
    (grows_wakeYielding { w with streak := 0 }).rebase rfl rfl rfl rfl rfl
  have hTurn (w₁ : World) (p : Async α) (h : w.Grows w₁) :
      w.Grows (w₁.beginTurn.turnMain limit p).world :=
    h.trans ((grows_turnMain _ _ _).rebase rfl rfl rfl rfl rfl)
  unfold attend
  simp only
  split
  · exact hTurn _ _ hRested
  · split
    · exact hRested
    · split
      · exact hRested.trans (grows_drop _ _)
      · have hLater := hRested.trans (grows_advance _ ‹Nat›)
        split
        · exact hTurn _ _ hLater
        · exact hLater.trans (grows_wait _ _)

theorem grows_step (w : World) (limit : Option Nat) (main : Waiting α) :
    w.Grows (w.step limit main).world := by
  unfold step
  split
  · exact w.grows_attend limit main
  · split
    · exact (grows_turnTask _ _).rebase rfl rfl rfl rfl rfl
    · exact w.grows_attend limit main

theorem Drives.grows {main : Waiting α} {w w' : World} {e : Ending α} (h : Drives limit main w e w') :
    w.Grows w' := by
  induction h with
  | @last main w w' e h =>
    have hStep := w.grows_step limit main
    rw [h] at hStep
    exact hStep
  | @more main main' w w₁ w' e h _ ih =>
    have hStep := w.grows_step limit main
    rw [h] at hStep
    exact hStep.trans ih

theorem Ends.grows {p : Async α} {w w' : World} {e : Ending α} (h : Ends limit p w e w') :
    w.Grows w' := by
  have hTurn := w.grows_turnMain limit p
  unfold Ends at h
  cases hMain : w.turnMain limit p with
  | ended e₁ w₁ =>
    rw [hMain] at h hTurn
    obtain ⟨-, rfl⟩ := h
    exact hTurn
  | waits main w₁ =>
    rw [hMain] at h hTurn
    exact hTurn.trans (Drives.grows h)

theorem Chain.grows {ι : Type} {does : ι → World → World → Prop} {parts : List ι} {w w' : World}
    (hDoes : ∀ part w w', does part w w' → w.Grows w') (h : Chain does parts w w') : w.Grows w' := by
  induction parts generalizing w with
  | nil => exact h ▸ .refl _
  | cons part parts ih =>
    obtain ⟨w₁, hPart, hRest⟩ := h
    exact (hDoes part w w₁ hPart).trans (ih hRest)

end World

end TestBench
