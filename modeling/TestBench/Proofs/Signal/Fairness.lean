import TestBench.Proofs.Signal.Lasting

/-! # Everybody comes to a turn

The tasks that can go on stand in a line, and newcomers go to its end. In every step but a look at the main
program the one at the head leaves the line, and after a look there is a streak of such steps. A task that can go
on stays able to. So it gets its turn, as long as the main program waits (`Scene.Ready.exists_serves`).
-/

namespace TestBench

/-! ## Who can go on stays able to -/

theorem Slot.Lives.not_vacant {s s' : Option Slot} {l : List Mark} (h : Slot.Lives s l s') (hSome : s ≠ none)
    (hLate : s ≠ some .vacant) : s' ≠ some .vacant := by
  induction h with
  | nil => exact hLate
  | cons hNext _ ih =>
    cases hNext with
    | opened => exact absurd rfl hSome
    | accepted _ => exact absurd rfl hLate
    | refused _ _ => exact ih hSome hLate
    | notYet => exact absurd rfl hLate
    | taken _ => exact ih nofun nofun
    | expired => exact ih nofun nofun
    | dropped _ => exact ih nofun nofun

theorem Scene.Runs.now_le {c c' : Scene} {l : Chronicle} (hRuns : c.Runs l c') :
    c.world.now ≤ c'.world.now := by
  induction hRuns with
  | refl => exact Nat.le_refl _
  | step _ hPaced _ ih =>
    obtain hSame | ⟨hLe, -⟩ := hPaced
    · exact hSame ▸ ih
    · exact Nat.le_trans hLe ih

theorem Scene.Runs.canResume {α : Type} {c c' : Scene} {l : Chronicle} {own : Option Nat → Set Nat}
    {k : Option Nat} {x : Waiting α} (hRuns : c.Runs l c') (hSound : c.Sound own) (hKeeps : x.KeepsTo (own k))
    (hResume : c.world.canResume x) : c'.world.canResume x := by
  have hNow := hRuns.now_le
  have hLives := (hRuns.reaches.sound hSound).2
  cases x with
  | ready _ => rfl
  | postponed _ _ _ => rfl
  | sleeping due _ => exact decide_eq_true (Nat.le_trans (of_decide_eq_true hResume) hNow)
  | awaiting slot due next =>
    have hOpen := hSound.holds k slot (mem_of_awaits (x := .awaiting slot due next) (beq_self_eq_true slot) hKeeps)
    have hSome : c.world.slots[slot]? ≠ none := by
      obtain hVacant | ⟨_, hSettled⟩ := hOpen
      · exact hVacant ▸ nofun
      · exact hSettled ▸ nofun
    simp only [World.canResume, Bool.or_eq_true, bne_iff_ne, Waiting.isDue, Waiting.due?, Option.any_eq_true,
      decide_eq_true_eq] at hResume ⊢
    refine hResume.imp ((hLives slot).not_vacant hSome) ?_
    rintro ⟨time, hDue, hLe⟩
    exact ⟨time, hDue, Nat.le_trans hLe hNow⟩

namespace World

variable {α : Type} {w w' w₁ w₂ : World} {task first : Nat} {rest : List Nat} {limit : Option Nat}

/-! ## The line of the tasks -/

/-- Who stands in the line keeps the place, and nobody who gave way is forgotten. -/
structure KeepsPlaces (w w' : World) : Prop where
  queue : w.queue <+: w'.queue
  yielding : w.yielding ⊆ w'.yielding
  streak : w'.streak = w.streak

namespace KeepsPlaces

theorem idle (hQueue : w'.queue = w.queue) (hYielding : w'.yielding = w.yielding)
    (hStreak : w'.streak = w.streak) : w.KeepsPlaces w' :=
  ⟨hQueue ▸ List.prefix_refl _, hYielding ▸ List.Subset.refl _, hStreak⟩

@[refl] protected theorem refl (w : World) : w.KeepsPlaces w := .idle rfl rfl rfl

protected theorem trans (h : w.KeepsPlaces w₁) (h' : w₁.KeepsPlaces w₂) : w.KeepsPlaces w₂ :=
  ⟨h.queue.trans h'.queue, List.Subset.trans h.yielding h'.yielding, h'.streak.trans h.streak⟩

theorem rebase (h : w₁.KeepsPlaces w') (hQueue : w₁.queue = w.queue) (hYielding : w₁.yielding = w.yielding)
    (hStreak : w₁.streak = w.streak) : w.KeepsPlaces w' :=
  (idle hQueue hYielding hStreak).trans h

theorem place {n : Nat} (h : w.KeepsPlaces w') (hPlace : w.queue[n]? = some task) :
    w'.queue[n]? = some task := by
  obtain ⟨late, hQueue⟩ := h.queue
  have hLt := (List.getElem?_eq_some_iff.mp hPlace).1
  rw [← hQueue, List.getElem?_append_left hLt, hPlace]

end KeepsPlaces

theorem keepsPlaces_enqueue (w : World) (task : Nat) : w.KeepsPlaces (w.enqueue task) := by
  unfold enqueue
  split
  · rfl
  · exact ⟨List.prefix_append _ _, List.Subset.refl _, rfl⟩

theorem keepsPlaces_enqueueAll (w : World) (tasks : List Nat) : w.KeepsPlaces (w.enqueueAll tasks) := by
  induction tasks generalizing w with
  | nil => rfl
  | cons task tasks ih => exact (w.keepsPlaces_enqueue task).trans (ih (w.enqueue task))

theorem keepsPlaces_start (w : World) (t : Task) : w.KeepsPlaces (w.start t) :=
  (keepsPlaces_enqueue _ w.nextTask).rebase rfl rfl rfl

theorem keepsPlaces_abandon (w : World) (slot : Nat) : w.KeepsPlaces (w.abandon slot) := by
  unfold abandon
  split <;> exact .idle rfl rfl rfl

theorem keepsPlaces_letGo (w : World) (holder : Holder) (slot : Nat) : w.KeepsPlaces (w.letGo holder slot) := by
  let left : World := { w with holds := w.holds.erase (holder, slot) }
  unfold letGo close
  dsimp only
  split
  · exact .idle rfl rfl rfl
  · split
    · exact (keepsPlaces_enqueueAll (left.setSlot slot .closed) _).rebase rfl rfl rfl
    · exact .idle rfl rfl rfl

theorem keepsPlaces_perform (w : World) (a : Action) : w.KeepsPlaces (w.perform a).2 := by
  cases a with
  | settle slot r =>
    change w.KeepsPlaces (w.settle slot r).2
    unfold settle
    split
    · exact (keepsPlaces_enqueueAll (w.setSlot slot (.settled r)) _).rebase rfl rfl rfl
    · rfl
  | abandon slot => exact w.keepsPlaces_abandon slot
  | release holder slot => exact w.keepsPlaces_letGo holder slot
  | _ => exact .idle rfl rfl rfl

theorem keepsPlaces_of_collectSlot? {slot : Nat} {timeout : Option Nat} {r : Option Result}
    (h : w.collectSlot? slot timeout = some (r, w')) : w.KeepsPlaces w' := by
  unfold collectSlot? at h
  split at h
  · cases h
    exact .idle rfl rfl rfl
  · split at h
    · cases h
      exact .idle rfl rfl rfl
    · cases h
  · cases h
    rfl

theorem keepsPlaces_turn (p : Async α) (w : World) : w.KeepsPlaces (p.turn w).2 := by
  induction p generalizing w with
  | pure _ => rfl
  | panic _ => rfl
  | yield _ _ => rfl
  | fork task _ ih => exact (w.keepsPlaces_start task).trans (ih _)
  | act a _ ih => exact (w.keepsPlaces_perform a).trans (ih _ _)
  | report r _ ih => exact (ih { w with reports := w.reports ++ [r] }).rebase rfl rfl rfl
  | notice e _ ih => exact (ih { w with events := w.events ++ [e] }).rebase rfl rfl rfl
  | sleep ms next ih =>
    unfold Program.turn
    split
    · rfl
    · split
      · exact (ih w.spend).rebase rfl rfl rfl
      · rfl
  | await slot timeout next ih =>
    unfold Program.turn
    split
    · rfl
    · split
      · rename_i w' hCollect
        exact (keepsPlaces_of_collectSlot? hCollect).trans ((ih _ w'.spend).rebase rfl rfl rfl)
      · rfl

theorem keepsPlaces_settleTask (w : World) (task : Nat) (t : Turn Unit) :
    w.KeepsPlaces (w.settleTask task t) := by
  have hFollow (w : World) : w.KeepsPlaces (w.followUp task) := by
    unfold followUp
    split
    · exact w.keepsPlaces_enqueue task
    · rfl
  cases t with
  | finished _ => rfl
  | panicked _ => rfl
  | waits x => exact (hFollow (w.keep task x)).rebase rfl rfl rfl
  | yields x =>
    have hLate : w.KeepsPlaces { w.keep task x with yielding := task :: w.yielding } :=
      ⟨List.prefix_refl _, List.subset_cons_self _ _, rfl⟩
    exact hLate.trans (hFollow _)

theorem keepsPlaces_drop (w : World) (x : Waiting α) : w.KeepsPlaces (w.drop x) := by
  cases x with
  | ready _ => rfl
  | sleeping _ _ => rfl
  | awaiting slot _ _ => exact w.keepsPlaces_abandon slot
  | postponed slot _ _ => exact w.keepsPlaces_abandon slot

theorem keepsPlaces_wait (w : World) (limit : Option Nat) (x : Waiting α) :
    w.KeepsPlaces (w.wait limit x).world := by
  unfold wait
  split
  · exact w.keepsPlaces_drop x
  · rfl

theorem keepsPlaces_turnMain (w : World) (limit : Option Nat) (p : Async α) :
    w.KeepsPlaces (w.turnMain limit p).world := by
  have hTurn := keepsPlaces_turn p w
  unfold turnMain
  split <;> rename_i h <;> rw [h] at hTurn
  · exact hTurn
  · exact hTurn
  · exact hTurn.trans (keepsPlaces_wait _ _ _)
  · exact hTurn.trans (keepsPlaces_wait _ _ _)

/-! ## Steps -/

theorem keepsPlaces_carryOut (plan : Plan) (limit : Option Nat) (x : Waiting α) :
    plan.world.KeepsPlaces (plan.carryOut limit x).world := by
  cases plan with
  | task t y v =>
    have hTurn := (keepsPlaces_turn (y.resume v.now) v).trans
      (keepsPlaces_settleTask _ t ((y.resume v.now).turn v).1)
    exact hTurn.trans (.idle rfl rfl rfl)
  | main v => exact v.keepsPlaces_turnMain limit (x.resume v.now)
  | pause v => exact .refl v
  | wait v => exact v.keepsPlaces_wait limit x
  | giveUp v => exact v.keepsPlaces_drop x

theorem keepsPlaces_planTask (w : World) (task : Nat) : w.KeepsPlaces (w.planTask task).world := by
  unfold planTask
  split
  · rfl
  · split
    · exact .idle rfl rfl rfl
    · rfl

theorem keepsPlaces_planLook (limit : Option Nat) (x : Waiting α) (hQueue : w.queue ≠ []) :
    w.KeepsPlaces (w.planLook limit x).world := by
  have hSomebody : (!w.queue.isEmpty) = true := by simpa using hQueue
  unfold planLook
  rw [if_pos hSomebody]
  split
  · exact .idle rfl rfl rfl
  · rfl

theorem keepsPlaces_step_of_turn (limit : Option Nat) (x : Waiting α) (hQueue : w.queue = first :: rest)
    (hStreak : w.streak < longestStreak) :
    KeepsPlaces { w with queue := rest, streak := w.streak + 1 } (w.step limit x).scene.world := by
  rw [Progress.world_scene, step_eq_carryOut]
  simp only [plan, hQueue, if_pos hStreak]
  exact (keepsPlaces_planTask _ first).trans (keepsPlaces_carryOut _ limit x)

theorem keepsPlaces_step_of_look (limit : Option Nat) (x : Waiting α)
    (hLook : w.queue = [] ∨ ¬ w.streak < longestStreak) (hQueue : w.rested.queue ≠ []) :
    w.rested.KeepsPlaces (w.step limit x).scene.world := by
  have hPlan : w.plan limit x = w.rested.planLook limit x := by
    unfold plan
    split
    · rfl
    · rename_i hCons
      exact if_neg (hLook.resolve_left fun hNil => by simp [hCons] at hNil)
  rw [Progress.world_scene, step_eq_carryOut, hPlan]
  exact (keepsPlaces_planLook limit x hQueue).trans (keepsPlaces_carryOut _ limit x)

theorem rested_spec (w : World) : w.queue <+: w.rested.queue ∧ w.rested.streak = 0 ∧
    ∀ task ∈ w.yielding, w.isLive task → task ∈ w.rested.queue := by
  let looked : World := { w with streak := 0, yielding := [] }
  have hPlaces := looked.keepsPlaces_enqueueAll (w.yielding.filter w.isLive)
  obtain ⟨q, hq, hMem⟩ := looked.enqueueAll_spec (w.yielding.filter w.isLive)
  refine ⟨hPlaces.queue, hPlaces.streak, fun task hTask hLive => ?_⟩
  change task ∈ (looked.enqueueAll (w.yielding.filter w.isLive)).queue
  rw [hq]
  exact (hMem task).mpr (.inr (List.mem_filter.mpr ⟨hTask, hLive⟩))

theorem turnOf?_plan_of_head {y : Waiting Unit} (limit : Option Nat) (x : Waiting α)
    (hQueue : w.queue = task :: rest) (hStreak : w.streak < longestStreak)
    (hTask : w.tasks.lookup task = some y) (hResume : w.canResume y) :
    ((w.plan limit x).moment x).turnOf? task ≠ none := by
  have hSame : World.canResume { w with queue := rest, streak := w.streak + 1 } y = w.canResume y :=
    canResume_congr rfl fun _ _ => rfl
  simp [plan, hQueue, hStreak, planTask, hTask, hSame, hResume, Plan.moment, Moment.turnOf?]

end World

namespace Scene

variable {c : Scene} {task n m : Nat} {limit : Option Nat}

/-- Within so many steps the task gets its turn, unless the main program comes to its end before. -/
def Serves (limit : Option Nat) (task : Nat) : Nat → Scene → Prop
  | _, ⟨none, _⟩ => True
  | 0, ⟨some _, _⟩ => False
  | n + 1, ⟨some ⟨_, x⟩, w⟩ =>
      ((w.plan limit x).moment x).turnOf? task ≠ none ∨ Serves limit task n (w.step limit x).scene

theorem Serves.mono (h : Serves limit task n c) (hLe : n ≤ m) : Serves limit task m c := by
  induction n generalizing c m with
  | zero =>
    obtain ⟨_ | _, w⟩ := c
    · cases m <;> trivial
    · cases h
  | succ n ih =>
    obtain ⟨m, rfl⟩ := Nat.exists_eq_add_of_le' (Nat.le_trans (Nat.le_add_left 1 n) hLe)
    obtain ⟨_ | ⟨α, x⟩, w⟩ := c
    · trivial
    · exact h.imp id fun hRest => ih hRest (Nat.le_of_succ_le_succ hLe)

structure Able (c : Scene) (task : Nat) : Prop where
  ready : c.Ready
  listed : ∃ y, c.world.tasks.lookup task = some y ∧ c.world.canResume y

variable {α : Type} {x : Waiting α} {w : World}

theorem Able.step (h : Able ⟨some ⟨α, x⟩, w⟩ task)
    (hNot : ((w.plan limit x).moment x).turnOf? task = none) : Able (w.step limit x).scene task := by
  obtain ⟨y, hTask, hResume⟩ := h.listed
  obtain ⟨own, hSound⟩ := h.ready.sound
  have hMem : (task, y) ∈ w.tasks := World.mem_tasks_of_lookup hTask
  obtain ⟨hLt, hKeeps⟩ := hSound.tasks (task, y) hMem
  have hStep := Proceeds.step limit x w
  obtain ⟨hReady, hRuns⟩ := runsTo_step w limit x h.ready
  refine ⟨hReady, y, ?_, hRuns.canResume hSound hKeeps hResume⟩
  rw [hStep.lookup_eq h.ready hLt (moment_ne_dropped _ x (some task)).symm, hNot, hTask]
  rfl

theorem Able.serves_succ (h : Able c task)
    (hStep : ∀ (α : Type) (x : Waiting α), Able (c.world.step limit x).scene task →
      ((c.world.plan limit x).moment x).turnOf? task = none →
        Serves limit task n (c.world.step limit x).scene) : Serves limit task (n + 1) c := by
  obtain ⟨_ | ⟨α, x⟩, w⟩ := c
  · trivial
  · by_cases hTurn : ((w.plan limit x).moment x).turnOf? task = none
    · exact .inr (hStep α x (h.step hTurn) hTurn)
    · exact .inl hTurn

theorem Able.serves_of_turn (h : Able c task) (hPlace : c.world.queue[n]? = some task)
    (hStreak : c.world.streak < longestStreak)
    (hBehind : ∀ k c', n = k + 1 → Able c' task → c'.world.queue[k]? = some task → Serves limit task m c') :
    Serves limit task (m + 1) c := by
  refine h.serves_succ fun α x hAble hNot => ?_
  cases hQueue : c.world.queue with
  | nil => simp [hQueue] at hPlace
  | cons first rest =>
    rw [hQueue] at hPlace
    cases n with
    | zero =>
      -- nobody stands before the task, so the step was its turn
      obtain rfl : first = task := Option.some.inj hPlace
      obtain ⟨y, hTask, hResume⟩ := h.listed
      exact absurd hNot (World.turnOf?_plan_of_head limit x hQueue hStreak hTask hResume)
    | succ k => exact hBehind k _ rfl hAble ((World.keepsPlaces_step_of_turn limit x hQueue hStreak).place hPlace)

theorem Able.serves_of_look (h : Able c task)
    (hLook : c.world.queue = [] ∨ ¬ c.world.streak < longestStreak) (hPlace : c.world.rested.queue[n]? = some task)
    (hThen : ∀ c', Able c' task → c'.world.queue[n]? = some task → c'.world.streak < longestStreak →
      Serves limit task m c') : Serves limit task (m + 1) c := by
  have hSomebody : c.world.rested.queue ≠ [] := fun hNil => by simp [hNil] at hPlace
  refine h.serves_succ fun α x hAble _ => ?_
  have hKeeps := World.keepsPlaces_step_of_look limit x hLook hSomebody
  refine hThen _ hAble (hKeeps.place hPlace) ?_
  rw [hKeeps.streak, c.world.rested_spec.2.1]
  decide

/-- From its place in the line the task comes to its turn: each of those before it has one turn first, and one
look at the main program may come before each turn. -/
theorem Able.serves_of_queued (h : Able c task) (hPlace : c.world.queue[n]? = some task) :
    Serves limit task (2 * n + 2) c := by
  induction n using Nat.strong_induction_on generalizing c with
  | _ n ih =>
    have hTurn (c' : Scene) (hAble : Able c' task) (hPlace : c'.world.queue[n]? = some task)
        (hStreak : c'.world.streak < longestStreak) : Serves limit task (2 * n + 1) c' := by
      refine hAble.serves_of_turn hPlace hStreak fun k c'' hn hAble' hPlace' => ?_
      exact (ih k (by omega) hAble' hPlace').mono (by omega)
    by_cases hStreak : c.world.streak < longestStreak
    · exact (hTurn c h hPlace hStreak).mono (Nat.le_succ _)
    · obtain ⟨late, hRested⟩ := c.world.rested_spec.1
      have hLt := (List.getElem?_eq_some_iff.mp hPlace).1
      have hKept : c.world.rested.queue[n]? = some task := by
        rw [← hRested, List.getElem?_append_left hLt, hPlace]
      exact h.serves_of_look (.inr hStreak) hKept hTurn

theorem Able.exists_serves_of_yielding (h : Able c task) (hYields : task ∈ c.world.yielding) :
    ∃ n, Serves limit task n c := by
  -- at the latest the streak comes to its end, and with the look at the main program the task is in the line
  generalize hLeft : longestStreak - c.world.streak = left
  induction left using Nat.strong_induction_on generalizing c with
  | _ left ih =>
    by_cases hLook : c.world.queue = [] ∨ ¬ c.world.streak < longestStreak
    · obtain ⟨y, hTask, -⟩ := h.listed
      have hLive : c.world.isLive task := by rw [World.isLive, hTask]; rfl
      obtain ⟨n, hPlace⟩ := List.mem_iff_getElem?.mp (c.world.rested_spec.2.2 task hYields hLive)
      exact ⟨_, h.serves_of_look hLook hPlace fun c' hAble hPlace' _ => hAble.serves_of_queued hPlace'⟩
    · rw [not_or, not_not] at hLook
      obtain ⟨hQueue, hStreak⟩ := hLook
      obtain ⟨first, rest, hQueue⟩ := List.exists_cons_of_ne_nil hQueue
      obtain ⟨_ | ⟨α, x⟩, w⟩ := c
      · exact ⟨0, trivial⟩
      · by_cases hTurn : ((w.plan limit x).moment x).turnOf? task = none
        · have hKeeps := World.keepsPlaces_step_of_turn limit x hQueue hStreak
          have hLess : longestStreak - (w.step limit x).scene.world.streak < left := by
            rw [hKeeps.streak, ← hLeft]
            exact Nat.sub_lt_sub_left hStreak (Nat.lt_succ_self _)
          obtain ⟨n, hRest⟩ := ih _ hLess (h.step hTurn) (hKeeps.yielding hYields) rfl
          exact ⟨n + 1, .inr hRest⟩
        · exact ⟨1, .inl hTurn⟩

theorem Ready.exists_serves {y : Waiting Unit} (hReady : c.Ready) (hTask : c.world.tasks.lookup task = some y)
    (hResume : c.world.canResume y) (limit : Option Nat) : ∃ n, Serves limit task n c := by
  have hAble : Able c task := ⟨hReady, y, hTask, hResume⟩
  obtain hQueued | hYields := hReady.alert.heard (task, y) (World.mem_tasks_of_lookup hTask) hResume
  · obtain ⟨n, hPlace⟩ := List.mem_iff_getElem?.mp hQueued
    exact ⟨_, hAble.serves_of_queued hPlace⟩
  · exact hAble.exists_serves_of_yielding hYields

end Scene

/-! ## Scheduled -/

/-- A task that can go on is to get a turn, and one that cannot waits for its timer or for a slot of its own. -/
structure World.Scheduled (w : World) (task : Nat) (x : Waiting Unit) : Prop where
  queued : w.canResume x → task ∈ w.queue ∨ task ∈ w.yielding
  waiting : ¬ w.canResume x → (∃ due next, x = .sleeping due next ∧ w.now < due) ∨
    ∃ slot due next, x = .awaiting slot due next ∧ w.slots[slot]? = some .vacant ∧ ∀ d ∈ due, w.now < d

theorem World.Alert.scheduled {w : World} {task : Nat} {x : Waiting Unit} (hAlert : w.Alert)
    (hTask : w.tasks.lookup task = some x) : w.Scheduled task x where
  queued hResume := hAlert.heard (task, x) (hAlert.lookup_eq_some_iff.mp hTask) hResume
  waiting hResume := by
    have hDue := World.lt_due_of_not_canResume hResume
    cases x with
    | ready _ => exact absurd rfl hResume
    | postponed _ _ _ => exact absurd rfl hResume
    | sleeping due next => exact .inl ⟨due, next, rfl, hDue due rfl⟩
    | awaiting slot due next =>
      refine .inr ⟨slot, due, next, rfl, ?_, hDue⟩
      by_contra hNot
      exact hResume (by simp [World.canResume, hNot])

theorem Turn.rest_eq_none_iff {α : Type} {t : Turn α} :
    t.rest = none ↔ (∃ a, t = .finished a) ∨ ∃ q, t = .panicked q := by
  cases t <;> simp [rest]

theorem Waiting.exists_last_turn {α : Type} {x : Waiting α} {ws : List World} (h : x.after ws = none) :
    ∃ ws₁ w ws₂ y, ws = ws₁ ++ w :: ws₂ ∧ x.after ws₁ = some y ∧
      ((∃ a, ((y.resume w.now).turn w).1 = .finished a) ∨ ∃ q, ((y.resume w.now).turn w).1 = .panicked q) := by
  induction ws generalizing x with
  | nil => cases h
  | cons w ws ih =>
    cases hRest : ((x.resume w.now).turn w).1.rest with
    | none => exact ⟨[], w, ws, x, rfl, rfl, Turn.rest_eq_none_iff.mp hRest⟩
    | some y =>
      have hFirst (ws : List World) : x.after (w :: ws) = y.after ws := by
        simp [Waiting.after, List.foldlM_cons, hRest]
      rw [hFirst] at h
      obtain ⟨ws₁, w', ws₂, z, rfl, hAfter, hOver⟩ := ih h
      exact ⟨w :: ws₁, w', ws₂, z, rfl, (hFirst ws₁).trans hAfter, hOver⟩

namespace Scene

/-- A task that began as `x` has had its turns in order, one from where the other left off. It is scheduled, and
if it can go on it comes to its next turn; or else it finished or panicked in one of its turns. -/
structure Lasts (task : Nat) (x : Waiting Unit) (l : List Moment) (c : Scene) : Prop where
  stands : c.world.tasks.lookup task = x.after (l.filterMap (·.turnOf? task))
  scheduled : ∀ y, c.world.tasks.lookup task = some y → c.world.Scheduled task y
  served : ∀ y, c.world.tasks.lookup task = some y → c.world.canResume y →
    ∀ limit, ∃ n, c.Serves limit task n
  ended : c.world.tasks.lookup task = none → ∃ ws w ws' y,
    l.filterMap (·.turnOf? task) = ws ++ w :: ws' ∧ x.after ws = some y ∧
      ((∃ a, ((y.resume w.now).turn w).1 = .finished a) ∨ ∃ q, ((y.resume w.now).turn w).1 = .panicked q)

theorem Continues.lasts {c c' : Scene} {l : List Moment} {task : Nat} {x : Waiting Unit}
    (hRuns : c.Continues l c') (hReady : c.Ready) (hTask : c.world.tasks.lookup task = some x)
    (hSpared : .dropped (some task) ∉ l) : Lasts task x l c' := by
  have hLt := hReady.alert.lt (task, x) (hReady.alert.lookup_eq_some_iff.mp hTask)
  have hStands := hRuns.lookup_eq hReady hLt hSpared
  rw [hTask, Option.bind_some] at hStands
  constructor
  case stands => exact hStands
  case scheduled => exact fun y hy => (hRuns.ready hReady).alert.scheduled hy
  case served => exact fun y hy hResume => (hRuns.ready hReady).exists_serves hy hResume
  case ended => exact fun hNone => Waiting.exists_last_turn (hStands.symm.trans hNone)

end Scene

end TestBench
