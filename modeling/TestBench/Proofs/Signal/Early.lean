import TestBench.Proofs.Signal.Timing
import TestBench.Proofs.Signal.LongerTimeout

/-! # Signals before the wait

A callee may signal before it returns its future. Then the call returns the first of these results in the
same turn, at the same time and before any other program gets a turn, unless the turn has used up its budget of
waits: in that case the call gives way once and returns that result in its next turn, still at the same time.
Without such a signal a timeout of zero is over in the same turn. Main statement: `until_settled_early`.
-/

namespace TestBench

open Chronicle Async

/-! ## Up to a point of a turn nobody else gets one -/

/-- From one world to the other no time passes, and the tasks wait as they did; those that are new have not
begun. -/
structure World.Untouched (w w' : World) : Prop where
  now : w'.now = w.now
  tasks : ∃ new, w'.tasks = w.tasks ++ new ∧ ∀ t ∈ new, ∃ p, t.2 = .ready p

namespace World

variable {w w₁ w' : World}

theorem Untouched.refl (w : World) : w.Untouched w := ⟨rfl, [], by simp, nofun⟩

theorem Untouched.trans (first : w.Untouched w₁) (second : w₁.Untouched w') : w.Untouched w' := by
  obtain ⟨new, hTasks, hNew⟩ := first.tasks
  obtain ⟨new', hTasks', hNew'⟩ := second.tasks
  refine ⟨second.now.trans first.now, new ++ new', by rw [hTasks', hTasks, List.append_assoc], ?_⟩
  intro t ht
  exact (List.mem_append.mp ht).elim (hNew t) (hNew' t)

theorem Untouched.after (h : w₁.Untouched w') (hNow : w₁.now = w.now) (hTasks : w₁.tasks = w.tasks) :
    w.Untouched w' := ⟨h.now.trans hNow, hTasks ▸ h.tasks⟩

theorem Untouched.same (hNow : w'.now = w.now) (hTasks : w'.tasks = w.tasks) : w.Untouched w' :=
  (Untouched.refl w').after hNow hTasks

theorem untouched_start (w : World) (t : Task) : w.Untouched (w.start t) := by
  obtain ⟨q, hq⟩ := w.start_eq t
  rw [hq]
  refine ⟨rfl, [(w.nextTask, .ready t.body)], rfl, fun t' ht' => ?_⟩
  exact ⟨t.body, List.mem_singleton.mp ht' ▸ rfl⟩

theorem untouched_perform (w : World) (a : Action) : w.Untouched (w.perform a).2 := by
  refine .same (w.now_perform a) ?_
  obtain ⟨_, _, _, _, _, _, _, hEq⟩ := w.perform_eq a
  rw [hEq]

theorem untouched_of_collectSlot? {slot : Nat} {timeout : Option Nat} {x : Option Result}
    (h : w.collectSlot? slot timeout = some (x, w')) : w.Untouched w' := by
  refine .same (now_of_collectSlot? h) ?_
  unfold collectSlot? at h
  split at h
  · cases h; rfl
  · split at h
    · cases h; rfl
    · cases h
  · cases h; rfl

end World

theorem Program.Comes.untouched {α : Type} {p q : Async α} {w w' : World} {h : History}
    (hComes : p.Comes w h q w') : w.Untouched w' := by
  induction hComes with
  | here => exact .refl _
  | @fork task _ _ w _ _ _ ih => exact (w.untouched_start task).trans ih
  | @act a _ _ w _ _ _ ih => exact (w.untouched_perform a).trans ih
  | report _ ih => exact ih.after rfl rfl
  | notice _ ih => exact ih.after rfl rfl
  | sleep _ _ ih => exact ih.after rfl rfl
  | await _ hCollect _ ih => exact (World.untouched_of_collectSlot? hCollect).trans (ih.after rfl rfl)

namespace Call

variable {α : Type}

/-- In the same turn, and before any other program gets one, the call returns. The task for the work of its
callee has not begun. -/
def ReturnsAtOnce (call : Call α) (r : Result) (number : Nat) (work : Task) : Prop :=
  ∃ h w', call.program.Comes call.world h (call.rest r) w' ∧ call.world.Untouched w' ∧
    (number, .ready work.body) ∈ w'.tasks

/-- How a call comes to its end that found `r` in its slot when it was about to wait, with so much left of the
budget of its turn. -/
structure SettledEarly (call : Call α) (r : Result) (budget number : Nat) (work : Task) (l : Chronicle)
    (c : Scene) : Prop where
  atOnce : budget ≠ 0 → call.ReturnsAtOnce r number work
  givesWay : budget = 0 →
    (call.program.turn call.world).1 = .yields (.postponed call.slot call.timeout call.next)
  resumes : ¬ l.IsOver call.slot → ∀ (p : Async α) w c', c.Turns call.caller p w c' → w.budget ≠ 0 →
    ∃ w', p.Comes w [(call.slot, .looked (some (some r)))] (call.rest r) w'
  sameTime : ¬ l.IsOver call.slot → c.world.now = call.world.now
  found : ∀ u y, (u, call.slot, .looked (some y)) ∈ l → u = call.world.now ∧ y = some r

end Call

/-! ## The point at which a call is about to wait -/

theorem Chronicle.accepted_unique {l : Chronicle} {slot u u' : Nat} {r r' : Result} {s : Option Slot}
    (hLives : Slot.Lives none ((history l).on slot) s) (hr : (u, slot, .signalled r true) ∈ l)
    (hr' : (u', slot, .signalled r' true) ∈ l) : u = u' ∧ r = r' := by
  obtain ⟨a, b, rfl⟩ := List.append_of_mem hr
  have hSplit : (history (a ++ (u, slot, .signalled r true) :: b)).on slot =
      (history a).on slot ++ .signalled r true :: (history b).on slot := by
    rw [history_append, History.on_append]
    exact congrArg _ (History.on_cons_self _ _)
  rw [hSplit] at hLives
  obtain ⟨hBefore, hAfter⟩ : .signalled r' true ∉ (history a).on slot ∧ .signalled r' true ∉ (history b).on slot :=
    hLives.accepted_unique
  rcases List.mem_append.mp hr' with hMem | hMem
  · exact absurd (mem_on_history_iff.mpr ⟨u', hMem⟩) hBefore
  · rcases List.mem_cons.mp hMem with hEq | hMem
    · cases hEq
      exact ⟨rfl, rfl⟩
    · exact absurd (mem_on_history_iff.mpr ⟨u', hMem⟩) hAfter

/-- A call in the turn of a program that is about to wait: `signals` is what its slot has got from the callee. -/
structure Call.AboutToWait {α : Type} (call : Call α) (signals : List Mark) (budget number : Nat) (work : Task)
    (h : History) (w : World) : Prop where
  comes : call.program.Comes call.world h (.await call.slot call.timeout call.next) w
  lives : Slot.Lives none (.opened :: signals) w.slots[call.slot]?
  isOpen : Slot.IsOpen w.slots[call.slot]?
  marked : ∀ m ∈ signals, (call.slot, m) ∈ h
  budget : w.budget = budget
  started : (number, .ready work.body) ∈ w.tasks

section

variable {α : Type} {call : Call α} {c₁ c₂ c : Scene} {own : Option Nat → Set Nat} {l : Chronicle}
  {func : Nat → Async (Async Result)} {work : Async Result} {h : History} {w w₁ : World}

theorem Call.exists_aboutToWait (hSound : c₁.Sound own) (hTurn : c₁.Turns call.caller call.program call.world c₂)
    (hCall : call.program.Comes call.world h
      (((untilSignal func call.timeout).under call.spans).bind call.rest) w)
    (hSlot : call.slot = w.slots.length)
    (hFunc : ((func w.slots.length).under call.spans).turn (w.perform .openSlot).2 = (.finished work, w₁)) :
    ∃ h w₂, call.AboutToWait ((((func w.slots.length).under call.spans).marks (w.perform .openSlot).2).on call.slot)
      w₁.budget w₁.nextTask (workTask call.slot work) h w₂ := by
  have hAwait : Program.Comes (((untilSignal func call.timeout).under call.spans).bind call.rest) w _ _ _ :=
    comes_await hFunc
  obtain ⟨own₀, hPasses₀, hKeeps₀⟩ := hCall.passes (hTurn.keepsTo hSound) (hTurn.holds hSound)
  have hHolds₀ := hPasses₀.holds_own (hTurn.holds hSound)
  obtain ⟨own₂, hPasses₂, hKeeps₂⟩ := hAwait.passes hKeeps₀ hHolds₀
  obtain ⟨q, hq⟩ := (w₁.perform (.hold w.slots.length)).2.start_eq (workTask w.slots.length work)
  have hNone : w.slots[call.slot]? = none := List.getElem?_eq_none (Nat.le_of_eq hSlot.symm)
  rw [← hSlot] at hAwait hFunc hPasses₂ hKeeps₂ hq ⊢
  refine ⟨_, _, hCall.trans hAwait, ?_, ((hPasses₂.holds_own hHolds₀).of_await hKeeps₂).1, ?_, ?_, ?_⟩
  · have hBacked : w.Backed call.slot := by simp [World.Backed, Slot.IsOpen, hNone]
    have hLives := hPasses₂.lives call.slot hBacked
    rwa [hNone, History.on_cons_self] at hLives
  · intro m hm
    exact List.mem_append_right h (List.mem_cons_of_mem _ (History.mem_on_iff.mp hm))
  · rw [hq]
    rfl
  · rw [hq]
    exact List.mem_append_right _ (List.mem_singleton.mpr rfl)

namespace Call.AboutToWait

variable {signals before later : List Mark} {budget number : Nat} {task : Task} {r : Result} {accepted : Bool}

theorem of_signalled (hCall : call.AboutToWait signals budget number task h w)
    (hSignals : signals = before ++ .signalled r accepted :: later)
    (hFirst : ∀ r' a, .signalled r' a ∉ before) :
    accepted = true ∧ (∀ r' a, .signalled r' a ∈ later → a = false) ∧
      w.slots[call.slot]? = some (.settled r) := by
  have hLives := hCall.lives
  have hEnd {m : Mark} (hm : m ∈ .opened :: signals) : ¬ m.IsEnd := hLives.not_isEnd_of_isOpen hCall.isOpen hm
  have hSplit : Slot.Lives none ((.opened :: before) ++ .signalled r accepted :: later) w.slots[call.slot]? := by
    rw [hSignals] at hLives
    exact hLives
  have hAccepted : accepted = true := by
    refine (hSplit.accepted_iff List.mem_cons_self).mpr ⟨fun r' hr' => ?_, fun x hx => ?_, fun hd => ?_⟩
    · exact hFirst r' true ((List.mem_cons.mp hr').resolve_left nofun)
    · exact hEnd (by simpa [hSignals] using Or.inl hx) (.looked x)
    · exact hEnd (by simpa [hSignals] using Or.inl hd) .dropped
  subst hAccepted
  refine ⟨rfl, fun r' a hr' => ?_, ?_⟩
  · cases a with
    | false => rfl
    | true => exact absurd hr' hSplit.accepted_unique.2
  · refine hLives.eq_settled (by simp [hSignals]) (fun x hx => ?_) fun hd => ?_
    · exact hEnd hx (.looked x)
    · exact hEnd hd .dropped

theorem of_not_signalled (hCall : call.AboutToWait signals budget number task h w)
    (hNone : ∀ r a, .signalled r a ∉ signals) : w.slots[call.slot]? = some .vacant := by
  obtain hVacant | ⟨r, hSettled⟩ := hCall.isOpen
  · exact hVacant
  · have hTells := hCall.lives.tells
    rw [hSettled] at hTells
    exact absurd ((List.mem_cons.mp hTells.1).resolve_left nofun) (hNone r true)

theorem returnsAtOnce (hCall : call.AboutToWait signals budget number task h w) {y : Option Result}
    {w' : World} (hCollect : w.collectSlot? call.slot call.timeout = some (y, w')) (hBudget : budget ≠ 0) :
    call.ReturnsAtOnce (y.getD (.ok ())) number task := by
  have hTasks : (number, .ready task.body) ∈ w'.tasks := by
    obtain ⟨new, hEq, -⟩ := (World.untouched_of_collectSlot? hCollect).tasks
    exact hEq ▸ List.mem_append_left new hCall.started
  have hBegun : w.budget ≠ 0 := hCall.budget ▸ hBudget
  have hFound := hCall.comes.trans (.await hBegun hCollect (.here _ _))
  cases y with
  | some r => exact ⟨_, _, hFound, hFound.untouched, hTasks⟩
  | none =>
    have hReturns := hFound.trans (.notice (.here _ _))
    exact ⟨_, _, hReturns, hReturns.untouched, hTasks⟩

theorem mem_marks (hCall : call.AboutToWait signals budget number task h w) {y : Option Result} {w' : World}
    (hCollect : w.collectSlot? call.slot call.timeout = some (y, w')) (hBudget : budget ≠ 0) :
    (call.slot, .looked (some y)) ∈ call.program.marks call.world := by
  have hBegun : w.budget ≠ 0 := hCall.budget ▸ hBudget
  rw [hCall.comes.marks_eq]
  simp [Program.marks, hBegun, hCollect]

theorem settledEarly (hCall : call.AboutToWait signals budget number task h w) (hMade : call.Made l c)
    (hSettled : w.slots[call.slot]? = some (.settled r))
    (hAccepted : (call.world.now, call.slot, .signalled r true) ∈ l) :
    call.SettledEarly r budget number task l c := by
  obtain ⟨⟨own, hSound⟩, hLives, -, hCourse⟩ := hMade.course
  have hPends (hNotOver : ¬ l.IsOver call.slot) : c.Pends call.caller call.slot call.due call.next l := by
    obtain hPends | hSettles := hCourse
    · exact hPends
    · exact absurd hSettles.ended hNotOver
  constructor
  case atOnce =>
    intro hBudget
    have hCollect : w.collectSlot? call.slot call.timeout = some (some r, w.finish call.slot (.taken r)) := by
      simp only [World.collectSlot?, hSettled]
    exact hCall.returnsAtOnce hCollect hBudget
  case givesWay =>
    intro hBudget
    rw [hCall.comes.turn_eq, Program.turn, hCall.budget, if_pos hBudget]
  case resumes =>
    intro hNotOver p w' c' hTurn hBudget
    obtain ⟨x, hHas, hWaits⟩ := (hPends hNotOver).waits
    have hStays : c.world.slots[call.slot]? = some (.settled r) := by
      refine hLives.eq_settled (mem_on_history_iff.mpr ⟨_, hAccepted⟩) (fun y hy => ?_) fun hd => ?_
      · obtain ⟨u, hu⟩ := mem_on_history_iff.mp hy
        exact hNotOver ⟨u, _, hu, .looked y⟩
      · obtain ⟨u, hu⟩ := mem_on_history_iff.mp hd
        exact hNotOver ⟨u, _, hu, .dropped⟩
    exact hTurn.collects hHas hWaits.expects hStays hBudget
  case sameTime => exact fun hNotOver => ((hPends hNotOver).accepted _ r hAccepted).symm
  case found =>
    intro u y hu
    obtain hPends | hSettles := hCourse
    · exact absurd ⟨u, _, hu, .looked y⟩ (hPends.not_isOver hSound hLives)
    · cases y with
      | none => exact absurd hAccepted ((hSettles.expired u hu).2 _ r)
      | some r' =>
        obtain ⟨rfl, rfl⟩ := accepted_unique hLives (hSettles.returned u r' hu) hAccepted
        exact ⟨rfl, rfl⟩

end Call.AboutToWait

end

/-! ## Signals of the callee -/

/-- Of the signals that a callee gives before it returns its future the first is accepted, and the call returns
its result at the same time: at once, or in its next turn if it had to give way. If there is no such signal and
the timeout is zero then the call returns success at once, unless it has to give way, and every signal that it
ever gets is refused. -/
theorem until_settled_early {α : Type} {call : Call α} {l₁ l₂ : Chronicle} {c₁ c₂ c : Scene}
    {func : Nat → Async (Async Result)} {work : Async Result} {h : History} {w w₁ : World}
    (hBefore : Scene.Runs ⟨none, {}⟩ l₁ c₁) (hTurn : c₁.Turns call.caller call.program call.world c₂)
    (hCall : call.program.Comes call.world h
      (((untilSignal func call.timeout).under call.spans).bind call.rest) w)
    (hSlot : call.slot = w.slots.length)
    (hFunc : ((func w.slots.length).under call.spans).turn (w.perform .openSlot).2 = (.finished work, w₁))
    (hAfter : c₂.Runs l₂ c) :
    let signals := (((func w.slots.length).under call.spans).marks (w.perform .openSlot).2).on call.slot
    let l := l₁ ++ (call.program.marks call.world).stamped call.world.now ++ l₂
    let task := workTask call.slot work
    (∀ before r accepted later, signals = before ++ .signalled r accepted :: later →
      (∀ r' a, .signalled r' a ∉ before) →
        accepted = true ∧ (∀ r' a, .signalled r' a ∈ later → a = false) ∧
          call.SettledEarly r w₁.budget w₁.nextTask task l c) ∧
    ((∀ r a, .signalled r a ∉ signals) → call.timeout = some 0 → w₁.budget ≠ 0 →
      call.ReturnsAtOnce (.ok ()) w₁.nextTask task ∧ ∀ u r a, (u, call.slot, .signalled r a) ∈ l → a = false) := by
  intro signals l task
  have hMade : call.Made l c := .intro hBefore hTurn hCall hSlot hFunc hAfter
  obtain ⟨⟨own, hSound⟩, -⟩ := hBefore.reaches.sound Scene.sound_init
  obtain ⟨h', w₂, hWait⟩ := Call.exists_aboutToWait hSound hTurn hCall hSlot hFunc
  have hStamped {m : Mark} (hm : (call.slot, m) ∈ call.program.marks call.world) :
      (call.world.now, call.slot, m) ∈ l :=
    List.mem_append_left l₂ (List.mem_append_right l₁ (mem_stamped_iff.mpr ⟨rfl, hm⟩))
  constructor
  · intro before r accepted later hSignals hFirst
    obtain ⟨rfl, hRefused, hSettled⟩ := hWait.of_signalled hSignals hFirst
    have hMarked : (call.slot, .signalled r true) ∈ call.program.marks call.world := by
      rw [hWait.comes.marks_eq]
      exact List.mem_append_left _ (hWait.marked _ (by simp [signals, hSignals]))
    exact ⟨rfl, hRefused, hWait.settledEarly hMade hSettled (hStamped hMarked)⟩
  · intro hNone hTimeout hBudget
    have hVacant := hWait.of_not_signalled hNone
    have hCollect : w₂.collectSlot? call.slot call.timeout = some (none, w₂.expire call.slot) := by
      simp only [World.collectSlot?, hVacant, hTimeout, if_true]
    refine ⟨hWait.returnsAtOnce hCollect hBudget, fun u r a hr => ?_⟩
    obtain ⟨-, hLives, -, -⟩ := hMade.course
    have hExpired := mem_on_history_iff.mpr ⟨_, hStamped (hWait.mem_marks hCollect hBudget)⟩
    cases a with
    | false => rfl
    | true => exact absurd (mem_on_history_iff.mpr ⟨u, hr⟩) (hLives.not_accepted_of_expired hExpired)

def earlyReject (slot : Nat) : Async (Async Result) :=
  .act (.settle slot (.error (.assertion "early"))) fun _ =>
    .act (.settle slot (.ok ())) fun _ => .pure (.pure (.ok ()))

/-- A call of that callee without any time, behind a task that is already in the queue. -/
def Call.early : Call Result where
  caller := none
  program := .fork (.mk (log "other")) (((untilSignal earlyReject (some 0)).under []).bind .pure)
  world := {}
  slot := 0
  timeout := some 0
  spans := []
  rest := .pure

theorem until_settled_early_of_reject :
    let failed : Result := .error (.assertion "early")
    let opened := ((({} : World).start (.mk (log "other"))).perform .openSlot).2
    ((earlyReject 0).marks opened).on 0 = [.signalled failed true, .signalled (.ok ()) false] ∧
      Call.early.ReturnsAtOnce failed 1 (workTask 0 (.pure (.ok ()))) := by
  intro failed opened
  have hProper : Call.early.program.Proper := by
    have hCallee (slot : Nat) : (earlyReject slot).KeepsTo ∅ Program.Proper :=
      .act trivial fun _ => .act trivial fun _ => .pure (.pure trivial)
    have hLog : (log "other").Proper := proper_perform trivial
    exact .fork hLog ((proper_untilSignal hCallee).seq fun _ => .pure trivial)
  have hBefore := Scene.Runs.single (.start hProper {}) (.inl rfl)
  have hTurn := Scene.Turns.main (.ready Call.early.program) {}
  have hSignals : ((earlyReject 0).marks opened).on 0 =
      [] ++ .signalled failed true :: [.signalled (.ok ()) false] := rfl
  have hFunc : ((earlyReject 0).under []).turn opened =
      (.finished (.pure (.ok ())), { opened with slots := [.settled failed] }) := rfl
  have hEarly := (@until_settled_early _ Call.early _ _ _ _ _ earlyReject _ _ _ _ hBefore hTurn (.fork (.here _ _))
    rfl hFunc (.refl _)).1
  obtain ⟨-, -, hSettled⟩ := hEarly [] failed true _ hSignals nofun
  exact ⟨hSignals, hSettled.atOnce (by decide)⟩

theorem turn_idle_bind {α : Type} (n : Nat) (f : Unit → Async α) (w : World) (hn : n ≤ w.budget) :
    ((idle n).bind f).turn w = (f ()).turn { w with budget := w.budget - n } := by
  induction n generalizing w with
  | zero => rfl
  | succ n ih =>
    have hBudget : w.budget ≠ 0 := by omega
    have hRest : w.budget - 1 - n = w.budget - (n + 1) := by omega
    have hNext := ih w.spend (Nat.le_sub_one_of_lt hn)
    simp only [idle, Program.bind, Program.turn, hBudget, if_true, if_false, hNext]
    simp only [World.spend, hRest]

/-- A program that has used up the budget of its turn has to give way before it can return the result of the
first signal. -/
theorem exists_early_signal_not_at_once :
    ¬ ∀ (before : Async Unit) (func : Nat → Async (Async Result)) (timeout : Option Nat) (w w₁ w₂ : World)
        (work : Async Result) (r : Result) (later : List Mark), before.turn w = (.finished (), w₁) →
      (func w₁.slots.length).turn (w₁.perform .openSlot).2 = (.finished work, w₂) →
      ((func w₁.slots.length).marks (w₁.perform .openSlot).2).on w₁.slots.length = .signalled r true :: later →
      ∃ w', (before.bind fun _ => untilSignal func timeout).turn w = (.finished r, w') := by
  intro h
  have hIdle : (idle turnBudget).turn {} = (.finished (), { budget := 0 }) := by
    have hTurn := turn_idle_bind turnBudget .pure {} (Nat.le_refl _)
    rwa [Program.bind_pure] at hTurn
  obtain ⟨w', hTurn⟩ := h (idle turnBudget) earlyReject none {} _ _ _ _ _ hIdle rfl rfl
  rw [turn_idle_bind turnBudget _ {} (Nat.le_refl _)] at hTurn
  cases hTurn

end TestBench
