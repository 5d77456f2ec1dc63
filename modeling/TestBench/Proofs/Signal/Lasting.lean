import TestBench.Proofs.Signal.Plan
import TestBench.Proofs.Signal.Point

/-! # Tasks last

The runtime goes from step to step, and programs that wait may be given up at any time. What becomes of a task
in all this is what its own turns make of it and nothing else, unless it is given up itself
(`Scene.Continues.lookup_eq`).
-/

namespace TestBench

/-- What happens in a step: a program gets its turn, or it is given up, or neither. -/
inductive Moment : Type 1
  | turn {α : Type} (who : Option Nat) (p : Async α) (w : World)
  | dropped (who : Option Nat)
  | quiet

def Moment.turnOf? (task : Nat) : Moment → Option World
  | turn who _ w => if who = some task then some w else none
  | dropped _ | quiet => none

def Plan.moment {α : Type} (x : Waiting α) : Plan → Moment
  | task t y w => .turn (some t) (y.resume w.now) w
  | main w => .turn none (x.resume w.now) w
  | pause _ | wait _ | giveUp _ => .quiet

/-- What is left of a waiting program after turns in these worlds, each of them from where the last one left
off. -/
def Waiting.after {α : Type} (x : Waiting α) (ws : List World) : Option (Waiting α) :=
  ws.foldlM (fun x w => ((x.resume w.now).turn w).1.rest) x

theorem Waiting.after_append {α : Type} (x : Waiting α) (ws ws' : List World) :
    x.after (ws ++ ws') = (x.after ws).bind (·.after ws') := List.foldlM_append

namespace Scene

/-- A step of the runtime. Whoever runs a main program may give it up while it waits, a task may be given up by
whoever can, and so may a callback that is kept anywhere. -/
inductive Proceeds : Scene → Moment → Scene → Prop
  | begin {α : Type} {p : Async α} (hProper : p.Proper) (limit : Option Nat) (reports : List Report)
      (w : World) :
      Proceeds ⟨none, w⟩ (.turn none p { w with reports }) (World.turnMain { w with reports } limit p).scene
  | step {α : Type} (limit : Option Nat) (x : Waiting α) (w : World) :
      Proceeds ⟨some ⟨α, x⟩, w⟩ ((w.plan limit x).moment x) (w.step limit x).scene
  | dropMain {α : Type} (x : Waiting α) (w : World) :
      Proceeds ⟨some ⟨α, x⟩, w⟩ (.dropped none) ⟨none, w.drop x⟩
  | dropTask {main : Option ((α : Type) × Waiting α)} {w : World} {task : Nat} {x : Waiting Unit}
      (h : (task, x) ∈ w.tasks) : Proceeds ⟨main, w⟩ (.dropped (some task)) ⟨main, (w.without task).drop x⟩
  | lose {main : Option ((α : Type) × Waiting α)} (w : World) (slot : Nat) :
      Proceeds ⟨main, w⟩ .quiet ⟨main, w.letGo .callback slot⟩

inductive Continues : Scene → List Moment → Scene → Prop
  | refl (c : Scene) : Continues c [] c
  | step {c c₁ c' : Scene} {m : Moment} {l : List Moment} (hStep : c.Proceeds m c₁)
      (hRest : Continues c₁ l c') : Continues c (m :: l) c'

end Scene

/-! ## The tasks of a world -/

namespace World

variable {α : Type} {w w' : World} {task other : Nat} {x : Waiting Unit} {own own' : Set Nat} {h : History}

theorem mem_tasks_of_lookup (hLookup : w.tasks.lookup task = some x) : (task, x) ∈ w.tasks := by
  obtain ⟨before, after, hTasks, -⟩ := List.lookup_eq_some_iff.mp hLookup
  simp [hTasks]

theorem Alert.lookup_eq_some_iff (hAlert : w.Alert) : w.tasks.lookup task = some x ↔ (task, x) ∈ w.tasks := by
  refine ⟨mem_tasks_of_lookup, fun hMem => ?_⟩
  cases hLookup : w.tasks.lookup task with
  | none => exact absurd (List.lookup_eq_none_iff.mp hLookup _ hMem) (by simp)
  | some y =>
    have hSame := List.inj_on_of_nodup_map hAlert.nodup (mem_tasks_of_lookup hLookup) hMem rfl
    exact congrArg some (Prod.mk.inj hSame).2

theorem Passes.lookup_eq (hPasses : w.Passes own h w' own') (hLt : task < w.nextTask) :
    w'.tasks.lookup task = w.tasks.lookup task := by
  obtain ⟨new, hTasks, hNew⟩ := hPasses.tasks
  have hNone : new.lookup task = none := by
    refine List.lookup_eq_none_iff.mpr fun t ht => ?_
    have hGe := (hNew t ht).1
    simp only [bne_iff_ne, ne_eq]
    omega
  rw [hTasks, List.lookup_append, hNone, Option.or_none]

theorem lookup_without (w : World) (task other : Nat) :
    (w.without other).tasks.lookup task = if task = other then none else w.tasks.lookup task := by
  unfold without
  induction w.tasks with
  | nil => simp
  | cons t tasks ih =>
    obtain ⟨n, x⟩ := t
    simp only [List.filter_cons, List.lookup_cons]
    grind

theorem lookup_settleTask (w : World) (task other : Nat) (t : Turn Unit) :
    (w.settleTask other t).tasks.lookup task =
      (w.tasks.lookup task).or (if task = other then t.rest else none) := by
  rw [(w.settleTask_eq other t).2.2.2, List.lookup_append]
  congr 1
  cases t.rest with
  | none => simp
  | some x =>
    by_cases hEq : task = other
    · simp [hEq]
    · simp [hEq, List.lookup_cons, beq_eq_false_iff_ne.mpr hEq]

@[simp] theorem tasks_drop (w : World) (x : Waiting α) : (w.drop x).tasks = w.tasks := by
  have hAbandon (slot : Nat) : (w.abandon slot).tasks = w.tasks := by
    unfold abandon
    split <;> rfl
  cases x with
  | ready _ => rfl
  | sleeping _ _ => rfl
  | awaiting slot _ _ => exact hAbandon slot
  | postponed slot _ _ => exact hAbandon slot

theorem tasks_wait (w : World) (limit : Option Nat) (x : Waiting α) :
    (w.wait limit x).world.tasks = w.tasks := by
  unfold wait
  split
  · exact tasks_drop w x
  · rfl

theorem tasks_turnMain (w : World) (limit : Option Nat) (p : Async α) :
    (w.turnMain limit p).world.tasks = (p.turn w).2.tasks := by
  unfold turnMain
  split <;> rename_i hTurn <;> rw [hTurn]
  · rfl
  · rfl
  · exact tasks_wait _ _ _
  · exact tasks_wait _ _ _

end World

namespace Scene

variable {α : Type} {c c₁ c' : Scene} {m : Moment} {l : List Moment} {task : Nat} {w : World}
  {own : Option Nat → Set Nat} {k : Option Nat}

/-! ## Every scene on the way is in order -/

theorem runsTo_dropTask {main : Option ((α : Type) × Waiting α)} {x : Waiting Unit}
    (hTask : (task, x) ∈ w.tasks) :
    RunsTo ⟨main, w⟩ (x.dropMarks.stamped w.now) ⟨main, (w.without task).drop x⟩ := by
  have hMove : Move ⟨main, w⟩ x.dropMarks ⟨main, (w.without task).drop x⟩ := .dropTask hTask
  refine .move hMove (World.now_drop (w.without task) x) fun own hSound hAlert => ?_
  have hOthers : (w.without task).Alert := by
    have hSub : (w.without task).tasks.Sublist w.tasks := List.filter_sublist
    refine ⟨(hSub.map _).nodup hAlert.nodup, fun t ht => hAlert.lt t (hSub.subset ht), fun t ht hResume => ?_⟩
    have hSame : (w.without task).canResume t.2 = w.canResume t.2 := World.canResume_congr rfl fun _ _ => rfl
    exact hAlert.heard t (hSub.subset ht) (hSame ▸ hResume)
  have hHeeds : (w.without task).Heeds (own (some task)) :=
    hSound.heeds (some task) hOthers (fun _ => mem_without) rfl
  exact hHeeds.drop (hSound.tasks (task, x) hTask).2

theorem runsTo_lose {main : Option ((α : Type) × Waiting α)} (w : World) (slot : Nat) :
    RunsTo ⟨main, w⟩ [] ⟨main, w.letGo .callback slot⟩ := by
  have hMove : Move ⟨main, w⟩ [] ⟨main, w.letGo .callback slot⟩ := .lose w slot
  refine .move hMove (w.now_perform (.release .callback slot)) fun own hSound hAlert => ?_
  rw [World.letGo_callback (hSound.backed slot)]
  exact hAlert.idle rfl rfl rfl rfl rfl rfl

theorem Proceeds.runsTo (hStep : c.Proceeds m c') : ∃ l, c.RunsTo l c' := by
  cases hStep with
  | begin hProper limit reports w =>
    have hReset : RunsTo ⟨none, w⟩ [] ⟨none, { w with reports }⟩ := .idle rfl rfl rfl rfl rfl rfl rfl
    exact ⟨_, hReset.trans (runsTo_begin hProper limit _)⟩
  | step limit x w => exact ⟨_, runsTo_step w limit x⟩
  | dropMain x w => exact ⟨_, runsTo_dropMain w x⟩
  | dropTask hTask => exact ⟨_, runsTo_dropTask hTask⟩
  | lose w slot => exact ⟨_, runsTo_lose w slot⟩

theorem Proceeds.ready (hStep : c.Proceeds m c') (hReady : c.Ready) : c'.Ready := by
  obtain ⟨l, hRunsTo⟩ := hStep.runsTo
  exact (hRunsTo hReady).1

theorem Continues.ready (hRuns : c.Continues l c') (hReady : c.Ready) : c'.Ready := by
  induction hRuns with
  | refl => exact hReady
  | step hStep _ ih => exact ih (hStep.ready hReady)

/-! ## Every run is such a course -/

theorem moment_ne_dropped (plan : Plan) (x : Waiting α) (who : Option Nat) : .dropped who ≠ plan.moment x := by
  cases plan <;> exact nofun

theorem continues_drive (limit : Option Nat) (turns : Nat) (x : Waiting α) (w : World) : ∃ main l,
    Continues ⟨some ⟨α, x⟩, w⟩ l ⟨main, (World.drive limit turns x w).2⟩ ∧ ∀ who, .dropped who ∉ l := by
  induction turns generalizing x w with
  | zero => exact ⟨_, [], .refl _, nofun⟩
  | succ turns ih =>
    have hStep := Proceeds.step limit x w
    have hKept (who : Option Nat) : .dropped who ≠ (w.plan limit x).moment x := moment_ne_dropped _ x who
    rw [World.drive]
    cases hEq : w.step limit x with
    | ended e w₁ =>
      rw [hEq] at hStep
      exact ⟨none, _, .step hStep (.refl _), fun who => by simpa using hKept who⟩
    | waits x₁ w₁ =>
      rw [hEq] at hStep
      obtain ⟨main, l, hRest, hSpared⟩ := ih x₁ w₁
      exact ⟨main, _, .step hStep hRest, fun who => by simp [hKept who, hSpared who]⟩

/-- Every run of a main program is a course of the runtime in which nobody is given up before the limit. -/
theorem continues_run {p : Async α} (hProper : p.Proper) (turns : Nat) (limit : Option Nat)
    (reports : List Report) (w : World) : ∃ c main l,
    Proceeds ⟨none, w⟩ (.turn none p { w with reports }) c ∧
      c.Continues l ⟨main, (World.run turns limit p { w with reports }).2⟩ ∧ ∀ who, .dropped who ∉ l := by
  have hBegin := Proceeds.begin hProper (limit.map (w.now + ·)) reports w
  simp only [World.run]
  cases hEq : World.turnMain { w with reports } (limit.map (w.now + ·)) p with
  | ended e w₁ =>
    rw [hEq] at hBegin
    exact ⟨_, none, [], hBegin, .refl _, fun _ => List.not_mem_nil⟩
  | waits x w₁ =>
    rw [hEq] at hBegin
    obtain ⟨main, l, hRest, hSpared⟩ := continues_drive (limit.map (w.now + ·)) turns x w₁
    exact ⟨_, main, l, hBegin, hRest, hSpared⟩

/-! ## A task is what its turns make of it -/

theorem Move.nextTask_le {h : History} (hMove : c.Move h c') (hSound : c.Sound own) :
    c.world.nextTask ≤ c'.world.nextTask := by
  cases hMove with
  | start _ w => exact Nat.le_refl _
  | @turnMain α x w =>
    obtain ⟨own', hPasses, -⟩ := (hSound.main ⟨α, x⟩ rfl w.now).turnPasses (hSound.holds none)
    exact hPasses.nextTask
  | @dropMain α x w =>
    obtain ⟨own', hPasses⟩ := World.passes_drop (hSound.main ⟨α, x⟩ rfl) (hSound.holds none)
    exact hPasses.nextTask
  | @turnTask main w task x hTask =>
    have hHolds : (w.without task).Holds (own (some task)) := hSound.holds (some task)
    obtain ⟨own', hPasses, -⟩ := ((hSound.tasks (task, x) hTask).2 w.now).turnPasses hHolds
    exact Nat.le_trans hPasses.nextTask (Nat.le_of_eq (World.settleTask_eq _ task _).2.2.1.symm)
  | @dropTask main w task x hTask =>
    have hHolds : (w.without task).Holds (own (some task)) := hSound.holds (some task)
    obtain ⟨own', hPasses⟩ := World.passes_drop (hSound.tasks (task, x) hTask).2 hHolds
    exact hPasses.nextTask
  | lose w slot =>
    have hPasses : w.Passes ∅ [] (w.letGo .callback slot) ∅ := World.passes_release
    exact hPasses.nextTask
  | pass _ _ _ hNext => exact Nat.le_of_eq hNext.symm

theorem Runs.nextTask_le {l : Chronicle} (hRuns : c.Runs l c') (hSound : c.Sound own) :
    c.world.nextTask ≤ c'.world.nextTask := by
  induction hRuns generalizing own with
  | refl => exact Nat.le_refl _
  | step hMove _ _ ih =>
    obtain ⟨⟨own₁, hSound₁⟩, -⟩ := hMove.sound hSound
    exact Nat.le_trans (hMove.nextTask_le hSound) (ih hSound₁)

theorem Proceeds.nextTask_le (hStep : c.Proceeds m c') (hReady : c.Ready) :
    c.world.nextTask ≤ c'.world.nextTask := by
  obtain ⟨l, hRunsTo⟩ := hStep.runsTo
  obtain ⟨own, hSound⟩ := hReady.sound
  exact (hRunsTo hReady).2.nextTask_le hSound

theorem Sound.passes {p : Async α} {post : α → Prop} (hSound : c.Sound own) (hKeeps : p.KeepsTo (own k) post)
    (hSlots : w.slots = c.world.slots) (hRefs : w.holds = c.world.holds) :
    ∃ own', w.Passes (own k) (p.marks w) (p.turn w).2 own' := by
  have hHolds : w.Holds (own k) := by
    unfold World.Holds
    rw [hSlots, hRefs]
    exact hSound.holds k
  obtain ⟨own', hPasses, -⟩ := hKeeps.turnPasses hHolds
  exact ⟨own', hPasses⟩

theorem lookup_turnMain {p : Async α} {post : α → Prop} (hSound : c.Sound own)
    (hKeeps : p.KeepsTo (own none) post) (limit : Option Nat) (hSlots : w.slots = c.world.slots)
    (hRefs : w.holds = c.world.holds) (hNext : w.nextTask = c.world.nextTask) (hTasks : w.tasks = c.world.tasks)
    (hLt : task < c.world.nextTask) :
    (w.turnMain limit p).world.tasks.lookup task = c.world.tasks.lookup task := by
  obtain ⟨own', hPasses⟩ := hSound.passes hKeeps hSlots hRefs
  rw [World.tasks_turnMain, hPasses.lookup_eq (hNext ▸ hLt), hTasks]

theorem lookup_carryOut {plan : Plan} {x : Waiting α} (hSound : Sound ⟨some ⟨α, x⟩, w⟩ own) (limit : Option Nat)
    (hFits : plan.Fits w) (hLt : task < w.nextTask) :
    (plan.carryOut limit x).world.tasks.lookup task =
      (w.tasks.lookup task).bind (·.after ((plan.moment x).turnOf? task).toList) := by
  have hIdle : (w.tasks.lookup task).bind (·.after []) = w.tasks.lookup task := Option.bind_fun_some _
  cases plan with
  | main v =>
    have hKeeps : (x.resume v.now).KeepsTo (own none) fun _ => True := hSound.main ⟨α, x⟩ rfl v.now
    have hMain := lookup_turnMain hSound hKeeps limit hFits.slots hFits.holds hFits.nextTask hFits.tasks hLt
    exact hMain.trans hIdle.symm
  | pause v => exact (congrArg (List.lookup task) hFits.tasks).trans hIdle.symm
  | wait v =>
    have hTasks : (v.wait limit x).world.tasks = w.tasks := (World.tasks_wait v limit x).trans hFits.tasks
    exact (congrArg (List.lookup task) hTasks).trans hIdle.symm
  | giveUp v =>
    have hTasks : (v.drop x).tasks = w.tasks := (World.tasks_drop v x).trans hFits.tasks
    exact (congrArg (List.lookup task) hTasks).trans hIdle.symm
  | task t y v =>
    -- the turn adds tasks with new numbers, so an older task is found as before unless the turn is its own
    have hChosen := hFits.chosen t y v rfl
    have hKeeps : y.KeepsTo (own (some t)) := (hSound.tasks (t, y) (World.mem_tasks_of_lookup hChosen)).2
    have hSlots : v.slots = w.slots := hFits.slots
    have hOthers : v.tasks = (w.without t).tasks := hFits.tasks
    have hNext : v.nextTask = w.nextTask := hFits.nextTask
    obtain ⟨own', hPasses⟩ := hSound.passes (hKeeps v.now) hSlots hFits.holds
    change (World.settleTask _ t _).tasks.lookup task = _
    rw [World.lookup_settleTask, hPasses.lookup_eq (hNext ▸ hLt), hOthers, World.lookup_without]
    by_cases hEq : task = t
    · subst hEq
      simp [Plan.moment, Moment.turnOf?, hChosen, Waiting.after]
    · have hOther : t ≠ task := Ne.symm hEq
      simp [Plan.moment, Moment.turnOf?, hEq, hOther, hIdle]

theorem Proceeds.lookup_eq (hStep : c.Proceeds m c') (hReady : c.Ready) (hLt : task < c.world.nextTask)
    (hSpared : m ≠ .dropped (some task)) :
    c'.world.tasks.lookup task =
      (c.world.tasks.lookup task).bind (·.after (m.turnOf? task).toList) := by
  obtain ⟨own, hSound⟩ := hReady.sound
  have hIdle : (c.world.tasks.lookup task).bind (·.after []) = c.world.tasks.lookup task :=
    Option.bind_fun_some _
  cases hStep with
  | @begin α p hProper limit reports w =>
    have hKeeps : p.KeepsTo (own none) fun _ => True := hProper.mono (Set.empty_subset _) fun _ => id
    rw [Progress.world_scene]
    refine Eq.trans ?_ hIdle.symm
    exact lookup_turnMain (w := { w with reports }) hSound hKeeps limit rfl rfl rfl rfl hLt
  | step limit x w =>
    rw [Progress.world_scene, World.step_eq_carryOut]
    exact lookup_carryOut hSound limit (w.fits_plan limit x) hLt
  | dropMain x w => exact (congrArg (List.lookup task) (World.tasks_drop w x)).trans hIdle.symm
  | @dropTask main w other x _ =>
    have hNe : task ≠ other := fun hEq => hSpared (hEq ▸ rfl)
    refine Eq.trans ?_ hIdle.symm
    change ((w.without other).drop x).tasks.lookup task = _
    rw [World.tasks_drop, World.lookup_without, if_neg hNe]
  | lose w slot =>
    refine Eq.trans ?_ hIdle.symm
    rw [World.letGo_callback (hSound.backed slot)]

theorem Continues.lookup_eq (hRuns : c.Continues l c') (hReady : c.Ready) (hLt : task < c.world.nextTask)
    (hSpared : .dropped (some task) ∉ l) :
    c'.world.tasks.lookup task =
      (c.world.tasks.lookup task).bind (·.after (l.filterMap (·.turnOf? task))) := by
  induction hRuns with
  | refl c => exact (Option.bind_fun_some _).symm
  | @step c c₁ c' m l hStep _ ih =>
    rw [List.mem_cons, not_or] at hSpared
    have hFirst := hStep.lookup_eq hReady hLt (Ne.symm hSpared.1)
    have hLt₁ := Nat.lt_of_lt_of_le hLt (hStep.nextTask_le hReady)
    rw [ih (hStep.ready hReady) hLt₁ hSpared.2, hFirst, Option.bind_assoc]
    refine congrArg _ (funext fun x => ?_)
    rw [← Waiting.after_append]
    cases hTurn : m.turnOf? task <;> simp [hTurn]

/-! ## Turns -/

/-- Who gets a turn keeps to slots of its own, calls hold their slots, and what the turn starts is there after
the step. -/
theorem Proceeds.of_turn {p : Async α} (hStep : c.Proceeds (.turn k p w) c') (hSound : c.Sound own) :
    p.KeepsTo (own k) (fun _ => True) ∧ w.Holds (own k) ∧ (∀ slot, w.Backed slot) ∧
      (p.turn w).2.tasks ⊆ c'.world.tasks := by
  generalize hm : Moment.turn k p w = m at hStep
  cases hStep with
  | @begin α p hProper limit reports w =>
    cases hm
    refine ⟨hProper.mono (Set.empty_subset _) fun _ => id, hSound.holds none, hSound.backed, ?_⟩
    rw [Progress.world_scene, World.tasks_turnMain]
    exact List.Subset.refl _
  | step limit x w₀ =>
    have hFits := w₀.fits_plan limit x
    rw [Progress.world_scene, World.step_eq_carryOut]
    generalize w₀.plan limit x = plan at hm hFits
    have hHolds (k : Option Nat) : plan.world.Holds (own k) := by
      unfold World.Holds
      rw [hFits.slots, hFits.holds]
      exact hSound.holds k
    have hBacked (slot : Nat) : plan.world.Backed slot := by
      unfold World.Backed
      rw [hFits.slots, hFits.holds]
      exact hSound.backed slot
    cases plan with
    | main v =>
      cases hm
      refine ⟨hSound.main ⟨_, x⟩ rfl w.now, hHolds none, hBacked, ?_⟩
      change (Program.turn _ w).2.tasks ⊆ (w.turnMain limit _).world.tasks
      rw [World.tasks_turnMain]
      exact List.Subset.refl _
    | task t y v =>
      cases hm
      have hMem : (t, y) ∈ w₀.tasks := World.mem_tasks_of_lookup (hFits.chosen t y w rfl)
      refine ⟨(hSound.tasks (t, y) hMem).2 w.now, hHolds (some t), hBacked, ?_⟩
      change (Program.turn _ w).2.tasks ⊆ (World.settleTask _ t _).tasks
      rw [(World.settleTask_eq _ t _).2.2.2]
      exact List.subset_append_left _ _
    | pause _ => cases hm
    | wait _ => cases hm
    | giveUp _ => cases hm
  | dropMain _ _ => cases hm
  | dropTask _ => cases hm
  | lose _ _ => cases hm

theorem Proceeds.of_taskTurn {p : Async Unit} (hStep : c.Proceeds (.turn (some task) p w) c') :
    ∃ x, c.world.tasks.lookup task = some x ∧ p = x.resume w.now ∧
      c' = ⟨c.main, { (p.turn w).2.settleTask task (p.turn w).1 with reports := c.world.reports }⟩ := by
  generalize hm : Moment.turn (some task) p w = m at hStep
  cases hStep with
  | begin _ _ _ _ => cases hm
  | step limit x w₀ =>
    have hFits := w₀.fits_plan limit x
    rw [World.step_eq_carryOut]
    generalize w₀.plan limit x = plan at hm hFits
    cases plan with
    | task t y v =>
      cases hm
      refine ⟨y, hFits.chosen task y w rfl, rfl, ?_⟩
      have hReports : w.reports = w₀.reports := hFits.reports
      rw [← hReports]
      rfl
    | main _ => cases hm
    | pause _ => cases hm
    | wait _ => cases hm
    | giveUp _ => cases hm
  | dropMain _ _ => cases hm
  | dropTask _ => cases hm
  | lose _ _ => cases hm

theorem Proceeds.lookup_forked {p next : Async α} {t : Task} {h : History} {w' : World} (hReady : c.Ready)
    (hStep : c.Proceeds (.turn k p w) c') (hFork : p.Comes w h (.fork t next) w') :
    c'.world.tasks.lookup w'.nextTask = some (.ready t.body) := by
  obtain ⟨own, hSound⟩ := hReady.sound
  obtain ⟨hKeeps, hHolds, -, hSub⟩ := hStep.of_turn hSound
  rw [(hStep.ready hReady).alert.lookup_eq_some_iff]
  exact hSub (hFork.mem_forked hKeeps hHolds)

end Scene

end TestBench
