import TestBench.Proofs.SelfTest.Waiting
import TestBench.Proofs.Signal.Point

/-! # Waiting for the ticker

A set-up that starts a ticker on a bench waits for its own ring, or until its time is over, and then looks for
a tick on the board. It finds one if its ticker rang, but also if an earlier one rang by then
(`ends_startTicker`).
-/

namespace TestBench.SelfTest

open World

/-- The ticker rings before the time is over. At the same time the one who waits comes first. -/
def ringsWithin (timeout : Option Nat) : Bool := timeout.all (tickDelay < ·)

def waitFor (timeout : Option Nat) : Nat := timeout.elim tickDelay (min · tickDelay)

theorem waitFor_pos {timeout : Option Nat} (h : timeout ≠ some 0) : 0 < waitFor timeout := by
  cases timeout with
  | none => exact Nat.succ_pos _
  | some ms =>
    have hms : 0 < ms := Nat.pos_of_ne_zero fun hZero => h (congrArg some hZero)
    exact Nat.lt_min.mpr ⟨hms, Nat.succ_pos _⟩

theorem waitFor_le (timeout : Option Nat) : waitFor timeout ≤ tickDelay := by
  cases timeout with
  | none => exact Nat.le_refl _
  | some ms => exact Nat.min_le_right _ _

structure Awaited (slot : Nat) (w : World) (chores : List (Nat × Chore)) : Prop where
  vacant : w.slots[slot]? = some .vacant
  pending : Pending w chores slot (w.now + tickDelay)
  only : ∀ due, Pending w chores slot due → due = w.now + tickDelay

variable {timeout : Option Nat} {slot : Nat} {w w' w₂ : World} {chores chores' chores₂ : List (Nat × Chore)}

/-! ## Turns of the wait -/

theorem turnMain_await_yields (h : w.budget = 0) :
    w.turnMain none (.await slot timeout .pure) =
      .waits (.postponed slot timeout (.pure : Option Result → Async (Option Result))) w := by
  simp only [turnMain, Program.turn, h, if_true]
  rfl

theorem turnMain_await_settled (timeout : Option Nat) {r : Result} (h : w.budget ≠ 0)
    (hSlot : w.slots[slot]? = some (.settled r)) :
    w.turnMain none (.await slot timeout (.pure : Option Result → Async (Option Result))) =
      .ended (.finished (some r)) (w.finish slot (.taken r)).spend := by
  simp only [turnMain, Program.turn, h, if_false, collectSlot?, hSlot]

theorem turnMain_await_expires (h : w.budget ≠ 0) (hSlot : w.slots[slot]? = some .vacant) :
    w.turnMain none (.await slot (some 0) (.pure : Option Result → Async (Option Result))) =
      .ended (.finished none) (w.expire slot).spend := by
  simp only [turnMain, Program.turn, h, if_false, if_true, collectSlot?, hSlot]

theorem turnMain_await_waits (h : w.budget ≠ 0) (hSlot : w.slots[slot]? = some .vacant)
    (hTimeout : timeout ≠ some 0) :
    w.turnMain none (.await slot timeout (.pure : Option Result → Async (Option Result))) =
      .waits (.awaiting slot (timeout.map w.dueAfter) .pure) w := by
  simp only [turnMain, Program.turn, h, if_false, collectSlot?, hSlot, hTimeout]
  rfl

/-! ## The wait on a bench -/

/-- How the wait for the ticker comes to its end, after so many steps at most. -/
structure Waited (steps : Nat) (timeout : Option Nat) (slot : Nat) (w : World) (chores : List (Nat × Chore))
    (w' : World) (chores' : List (Nat × Chore)) : Prop where
  ends : Ends none (.await slot timeout .pure) w
    (.finished (if ringsWithin timeout then some (.ok ()) else none)) w'
  soon : Halts steps (.await slot timeout (.pure : Option Result → Async (Option Result))) w
  bench : Bench w' chores'
  rings : (view w chores).Rings (view w' chores')
  now : w'.now = w.now + waitFor timeout
  ticked : ringsWithin timeout → Ticked w'
  /-- If the time is over the tickers that ring at that time have not rung. -/
  left : ¬ ringsWithin timeout → timeout ≠ some 0 →
    ∀ due ∈ (view w chores).pending, w'.now ≤ due → due ∈ (view w' chores').pending
  early : ¬ ringsWithin timeout → timeout ≠ some 0 → Ticked w' →
    Ticked w ∨ ∃ due ∈ (view w chores).pending, due < w'.now

theorem Awaited.passes (h : Awaited slot w chores) (hPasses : Passes w chores w₂ chores₂)
    (hNow : w₂.now = w.now) : Awaited slot w₂ chores₂ := by
  have hEarly : ¬ w.now + tickDelay ≤ w.now := by simp [tickDelay]
  refine ⟨?_, ?_, fun due hPending => hNow ▸ h.only due (hPasses.kept slot due hPending)⟩
  · obtain hSame | ⟨-, -, due, hPending, hDue⟩ := hPasses.slots slot
    · exact hSame.trans h.vacant
    · rw [h.only due hPending, hNow] at hDue
      exact absurd hDue hEarly
  · rw [hNow]
    obtain hStill | ⟨hDue, -⟩ := hPasses.gone slot _ h.pending
    · exact hStill
    · exact absurd (hNow ▸ hDue) hEarly

theorem Reached.ends_of_waits {α : Type} {p : Async α} {main : Waiting α} {e : Ending α}
    (h : Reached main w chores w₂ chores₂) (hWait : w.turnMain none p = .waits main w)
    (hTurn : w₂.beginTurn.turnMain none (main.resume w₂.now) = .ended e w') :
    Ends none p w e w' ∧ Halts (patience w chores) p w := by
  unfold Ends Halts
  rw [hWait]
  exact ⟨h.turn e w' (hTurn ▸ ⟨rfl, rfl⟩), h.soon 0 (hTurn ▸ .ended)⟩

theorem Bench.waited_of_zero (h : Bench w chores) (hVacant : w.slots[slot]? = some .vacant)
    (hBudget : w.budget ≠ 0) :
    Waited (patience w chores) (some 0) slot w chores (w.expire slot).spend chores := by
  have hTurn := turnMain_await_expires hBudget hVacant
  refine ⟨?_, ?_, ?_, ?_, rfl, nofun, fun _ hNot => absurd rfl hNot, fun _ hNot => absurd rfl hNot⟩
  · unfold Ends
    rw [hTurn]
    exact ⟨rfl, rfl⟩
  · unfold Halts
    rw [hTurn]
    exact .ended
  · exact h.idle rfl rfl (Nat.le_of_eq List.length_set.symm) rfl rfl rfl (fun _ => id)
      fun _ hBacked => hBacked.finish (by simp [Slot.IsOpen])
  · exact ⟨Nat.le_refl _, fun _ => id, fun _ => .inl, .inl, id⟩

def beginningWait (timeout : Option Nat) (slot : Nat) (w : World) : Waiting (Option Result) :=
  .awaiting slot (timeout.map w.dueAfter) .pure

theorem awaits_beginningWait (timeout : Option Nat) (slot : Nat) (w : World) :
    (beginningWait timeout slot w).awaits slot := beq_self_eq_true slot

section

variable (hReached : Reached (beginningWait timeout slot w) w chores w₂ chores₂)
  (hAwaited : Awaited slot w chores) (hBudget : w.budget ≠ 0) (hTimeout : timeout ≠ some 0)

include hReached hAwaited hBudget hTimeout

theorem exists_waited_of_expired
    (hDue : (beginningWait timeout slot w).isDue w₂.now) :
    ∃ w', Waited (patience w chores) timeout slot w chores w' chores₂ := by
  have hAwaits := awaits_beginningWait timeout slot w
  have hPrompt := hReached.prompt slot _ hAwaits hAwaited.pending
  obtain ⟨hDueNow, hVacant, hLeft⟩ := hReached.inTime hDue
  obtain ⟨ms, rfl, hms⟩ := Option.map_eq_some_iff.mp hDueNow
  have hShort : ms ≤ tickDelay ∧ w₂.now = w.now + ms := by
    unfold dueAfter longestWait at hms
    unfold tickDelay at hPrompt ⊢
    omega
  have hLeftOver : some (w.dueAfter ms - w₂.now) = some 0 := by rw [hms, Nat.sub_self]
  have hWithin : ringsWithin (some ms) = false := decide_eq_false (Nat.not_lt.mpr hShort.1)
  have hTurn : w₂.beginTurn.turnMain none (.await slot (some (w.dueAfter ms - w₂.now))
      (.pure : Option Result → Async (Option Result))) =
      .ended (.finished none) (w₂.beginTurn.expire slot).spend := by
    rw [hLeftOver]
    exact turnMain_await_expires (by decide : turnBudget ≠ 0) (hVacant slot hAwaits)
  obtain ⟨hEnds, hSoon⟩ :=
    hReached.ends_of_waits (turnMain_await_waits hBudget hAwaited.vacant hTimeout) hTurn
  refine ⟨(w₂.beginTurn.expire slot).spend, ?_, hSoon, ?_, hReached.passes.rings, ?_, ?_, ?_, ?_⟩
  · rw [hWithin]
    exact hEnds
  · exact hReached.bench.idle rfl rfl (Nat.le_of_eq List.length_set.symm) rfl rfl rfl (fun _ => id)
      fun _ hBacked => hBacked.finish (by simp [Slot.IsOpen])
  · exact hShort.2.trans (congrArg _ (Nat.min_eq_left hShort.1).symm)
  · rw [hWithin]
    exact fun h => absurd h Bool.false_ne_true
  · rintro - - due ⟨slot', hPending⟩ hLe
    exact ⟨slot', hLeft slot' due hPending hLe⟩
  · rintro - - hTicked
    refine (hReached.early hDue hTicked).imp id ?_
    rintro ⟨slot', due, hPending, hEarly⟩
    exact ⟨due, ⟨slot', hPending⟩, hEarly⟩

/-- The main program goes on before its time is over, so its own ticker has settled the slot. -/
theorem exists_waited_of_settled
    (hDue : ¬ (beginningWait timeout slot w).isDue w₂.now) :
    ∃ w', Waited (patience w chores) timeout slot w chores w' chores₂ := by
  have hAwaits := awaits_beginningWait timeout slot w
  have hPrompt := hReached.prompt slot _ hAwaits hAwaited.pending
  have hSlot := ne_vacant_of_canResume hAwaits hReached.resumes hDue
  obtain hSame | ⟨hSettled, hTicked, due, hPending, hRung⟩ := hReached.passes.slots slot
  · exact absurd (hSame.trans hAwaited.vacant) hSlot
  · have hNow : w₂.now = w.now + tickDelay := Nat.le_antisymm hPrompt (hAwaited.only due hPending ▸ hRung)
    have hWithin : ringsWithin timeout = true ∧ waitFor timeout = tickDelay := by
      cases timeout with
      | none => exact ⟨rfl, rfl⟩
      | some ms =>
        have hLt : w₂.now < w.dueAfter ms := not_isDue_iff.mp hDue _ rfl
        have hLong : tickDelay < ms := by
          unfold dueAfter at hLt
          omega
        exact ⟨decide_eq_true hLong, Nat.min_eq_right (Nat.le_of_lt hLong)⟩
    have hTurn := turnMain_await_settled (w := w₂.beginTurn) ((timeout.map w.dueAfter).map (· - w₂.now))
      (by decide : turnBudget ≠ 0) hSettled
    obtain ⟨hEnds, hSoon⟩ :=
      hReached.ends_of_waits (turnMain_await_waits hBudget hAwaited.vacant hTimeout) hTurn
    refine ⟨(w₂.beginTurn.finish slot (.taken (.ok ()))).spend, ?_, hSoon, ?_, hReached.passes.rings, ?_,
      fun _ => hTicked, fun hNot => absurd hWithin.1 hNot, fun hNot => absurd hWithin.1 hNot⟩
    · rw [hWithin.1]
      exact hEnds
    · exact hReached.bench.idle rfl rfl (Nat.le_of_eq List.length_set.symm) rfl rfl rfl (fun _ => id)
        fun _ hBacked => hBacked.finish (by simp [Slot.IsOpen])
    · exact hNow.trans (congrArg _ hWithin.2.symm)

end

theorem Bench.waited_of_budget (timeout : Option Nat) (h : Bench w chores) (hAwaited : Awaited slot w chores)
    (hBudget : w.budget ≠ 0) :
    ∃ w' chores', Waited (patience w chores) timeout slot w chores w' chores' := by
  by_cases hTimeout : timeout = some 0
  · subst hTimeout
    exact ⟨_, chores, h.waited_of_zero hAwaited.vacant hBudget⟩
  · have hLater : ¬ (beginningWait timeout slot w).isDue w.now := by
      refine not_isDue_iff.mpr fun due hDue => ?_
      obtain ⟨ms, hms, rfl⟩ := Option.map_eq_some_iff.mp hDue
      exact w.lt_dueAfter fun hZero => hTimeout (hms.trans (congrArg some hZero))
    obtain ⟨w₂, chores₂, hReached⟩ := h.exists_reached (beginningWait timeout slot w) hLater
      (.inr (.inr ⟨slot, _, awaits_beginningWait timeout slot w, hAwaited.pending⟩))
    by_cases hDue : (beginningWait timeout slot w).isDue w₂.now
    · obtain ⟨w', hWaited⟩ := exists_waited_of_expired hReached hAwaited hBudget hTimeout hDue
      exact ⟨w', chores₂, hWaited⟩
    · obtain ⟨w', hWaited⟩ := exists_waited_of_settled hReached hAwaited hBudget hTimeout hDue
      exact ⟨w', chores₂, hWaited⟩

theorem Bench.waited (timeout : Option Nat) (h : Bench w chores) (hAwaited : Awaited slot w chores) :
    ∃ w' chores', Waited (2 * patience w chores) timeout slot w chores w' chores' := by
  by_cases hBudget : w.budget = 0
  · -- The program gives way before its wait, and no time passes until it has its turn again.
    let main : Waiting (Option Result) := .postponed slot timeout .pure
    obtain ⟨w₂, chores₂, hReached⟩ := h.exists_reached main nofun (.inl rfl)
    have hNow : w₂.now = w.now := hReached.still rfl
    have hBegun : w₂.beginTurn.budget ≠ 0 := (by decide : turnBudget ≠ 0)
    have hBench : Bench w₂.beginTurn chores₂ :=
      hReached.bench.idle rfl rfl (Nat.le_refl _) rfl rfl rfl (fun _ => id) fun _ => id
    have hPasses : Passes w chores w₂.beginTurn chores₂ := hReached.passes.trans (.of_same rfl rfl rfl)
    obtain ⟨w', chores', hWaited⟩ :=
      hBench.waited_of_budget timeout (hAwaited.passes hPasses hNow) hBegun
    have hCalmer : patience w₂.beginTurn chores₂ ≤ patience w chores := hReached.calmer
    have hPositive (hTimeout : timeout ≠ some 0) : w₂.now < w'.now := by
      have hEnd : w'.now = w₂.now + waitFor timeout := hWaited.now
      exact hEnd ▸ Nat.lt_add_of_pos_right (waitFor_pos hTimeout)
    refine ⟨w', chores', ?_, ?_, hWaited.bench, ?_, ?_, hWaited.ticked, ?_, ?_⟩
    · unfold Ends
      rw [turnMain_await_yields hBudget]
      exact hReached.turn _ _ hWaited.ends
    · unfold Halts
      rw [turnMain_await_yields hBudget, Nat.two_mul]
      exact hReached.soon _ (hWaited.soon.mono hCalmer)
    · exact hPasses.rings.trans hWaited.rings
    · rw [hWaited.now]
      exact congrArg (· + waitFor timeout) hNow
    · rintro hNot hTimeout due ⟨slot', hPending⟩ hLe
      refine hWaited.left hNot hTimeout due ?_ hLe
      refine (hPasses.rings.gone due ⟨slot', hPending⟩).resolve_right fun hGone => ?_
      exact absurd (Nat.le_trans hLe hGone.1) (Nat.not_le.mpr (hPositive hTimeout))
    · rintro hNot hTimeout hTicked
      obtain hTicked₂ | ⟨due, hPending, hEarly⟩ := hWaited.early hNot hTimeout hTicked
      · refine (hPasses.rings.rung hTicked₂).imp id ?_
        rintro ⟨due, hPending, hRung⟩
        exact ⟨due, hPending, Nat.lt_of_le_of_lt hRung (hPositive hTimeout)⟩
      · exact .inr ⟨due, hPasses.rings.kept due hPending, hEarly⟩
  · obtain ⟨w', chores', hWaited⟩ := h.waited_of_budget timeout hAwaited hBudget
    exact ⟨w', chores', { hWaited with soon := hWaited.soon.mono (by omega) }⟩

/-! ## The set-up -/

instance (w : World) : Decidable (Ticked w) := inferInstanceAs (Decidable (_ = true))

def notFired : Failure := .ofMessage "ticker did not fire before the timeout"

def View.started (v : View) : View := { v with pending := insert (v.now + tickDelay) v.pending }

def lookForTick (started : Nat) : Async Result :=
  .act (.look tickKey) fun note => match note with
    | some (.time fired) => .notice ⟨[], .tickerFired (fired - started)⟩ (.pure (.ok ()))
    | _ => .pure (.error notFired)

def afterCall (started : Nat) (timeout : Option Nat) : Option Result → Async Result
  | some (.ok ()) => lookForTick started
  | some (.error f) => .pure (.error f)
  | none => .notice ⟨[], .timedOut timeout⟩ (lookForTick started)

theorem prompt_afterCall (started : Nat) (timeout : Option Nat) (x : Option Result) :
    (afterCall started timeout x).Prompt fun _ => True := by
  have hLook : (lookForTick started).Prompt fun _ => True := by
    refine ⟨trivial, ?_⟩
    rintro (_ | _ | _) <;> trivial
  rcases x with _ | _ | _
  · exact hLook
  · trivial
  · exact hLook

theorem run_startTicker (timeout : Option Nat) :
    (startTicker timeout).run = .act .now fun started => .act .openSlot fun slot => .act (.hold slot) fun _ =>
      .fork (.mk ((Chore.work slot).waiting.resume 0))
        ((Program.await slot timeout .pure).bind (afterCall started timeout)) := by
  have hLook (started : Nat) : Program.muted (.act (.look tickKey) fun note => match note with
      | some (.time fired) => .notice ⟨[], .tickerFired (fired - started)⟩ (.pure (.ok ()))
      | _ => .pure (.error notFired)) = lookForTick started := by
    refine congrArg (Program.act (.look tickKey)) (funext fun note => ?_)
    rcases note with _ | (_ | _) <;> rfl
  refine congrArg (Program.act .now) (funext fun started => ?_)
  refine congrArg (Program.act .openSlot) (funext fun slot => ?_)
  refine congrArg (Program.act (.hold slot)) (funext fun _ => ?_)
  refine congrArg (Program.fork _) (congrArg (Program.await slot timeout) (funext fun x => ?_))
  rcases x with _ | (f | ⟨⟩)
  · exact congrArg (Program.notice ⟨[], .timedOut timeout⟩) (hLook started)
  · rfl
  · exact hLook started

/-- The look at the board tells if there is a tick, whoever left it. -/
theorem Bench.ends_lookForTick (h : Bench w chores) (started : Nat) (spans : List Span) :
    ∃ events, Ends none ((lookForTick started).under spans) w
      (.finished (if Ticked w then .ok () else .error notFired)) { w with events } := by
  cases hLook : w.look tickKey with
  | none =>
    refine ⟨w.events, ?_⟩
    have hNot : ¬ Ticked w := by simp [Ticked, hLook]
    rw [if_neg hNot, lookForTick, Program.under_act, ends_act_iff]
    simp only [perform, hLook, Program.under_pure]
    exact ends_pure_iff.mpr ⟨rfl, rfl⟩
  | some note =>
    obtain ⟨fired, rfl⟩ := h.noted note hLook
    have hTicked : Ticked w := by simp [Ticked, hLook]
    refine ⟨w.events ++ [⟨spans ++ [], .tickerFired (fired - started)⟩], ?_⟩
    rw [if_pos hTicked, lookForTick, Program.under_act, ends_act_iff]
    simp only [perform, hLook, Program.under_notice, Program.under_pure]
    exact ends_notice_iff.mpr (ends_pure_iff.mpr ⟨rfl, rfl⟩)

theorem Bench.ends_afterCall (timeout : Option Nat) (h : Bench w chores) (started : Nat) (spans : List Span) :
    ∃ events, Ends none ((afterCall started timeout
        (if ringsWithin timeout then some (.ok ()) else none)).under spans) w
      (.finished (if Ticked w then .ok () else .error notFired)) { w with events } := by
  by_cases hWithin : ringsWithin timeout
  · rw [if_pos hWithin]
    exact h.ends_lookForTick started spans
  · rw [if_neg hWithin]
    let noted : World := { w with events := w.events ++ [⟨spans ++ [], .timedOut timeout⟩] }
    have hNoted : Bench noted chores := h.idle rfl rfl (Nat.le_refl _) rfl rfl rfl (fun _ => id) fun _ => id
    obtain ⟨events, hEnds⟩ := hNoted.ends_lookForTick started spans
    refine ⟨events, ?_⟩
    rw [afterCall, Program.under_notice]
    exact ends_notice_iff.mpr hEnds

theorem Bench.exists_started (h : Bench w chores) :
    ∃ w₁ chores₁, ((w.perform .openSlot).2.perform (.hold w.slots.length)).2.start
        (.mk ((Chore.work w.slots.length).waiting.resume 0)) = w₁ ∧
      Bench w₁ chores₁ ∧ Awaited w.slots.length w₁ chores₁ ∧ view w₁ chores₁ = (view w chores).started ∧
      patience w₁ chores₁ ≤ patience w chores + 12 := by
  let opened : World :=
    { (w.perform .openSlot).2 with holds := (.callback, w.slots.length) :: (w.perform .openSlot).2.holds }
  let t : Nat × Chore := (w.nextTask, .work w.slots.length)
  have hLength : opened.slots.length = w.slots.length + 1 := List.length_append
  have hOpened : Bench opened chores :=
    h.idle rfl rfl (by omega) rfl rfl rfl (fun _ => id) fun slot hBacked =>
      (World.passes_perform _ ∅ (a := .hold w.slots.length) trivial).backed slot
        ((w.passes_openSlot ∅).backed slot hBacked)
  obtain ⟨q, hq, hMem⟩ := World.enqueueAll_spec { opened with
    nextTask := opened.nextTask + 1, tasks := opened.tasks ++ [(opened.nextTask, t.2.waiting)] } [opened.nextTask]
  have hQueue := World.length_enqueueAll_le { opened with
    nextTask := opened.nextTask + 1, tasks := opened.tasks ++ [(opened.nextTask, t.2.waiting)] } [opened.nextTask]
  rw [hq] at hQueue
  refine ⟨_, chores ++ [t], hq, ?_, ⟨?_, ?_, fun due hPending => ?_⟩, ?_, ?_⟩
  · refine hOpened.add (fun t' ht' => Nat.ne_of_lt (h.lt t' ht')) (Nat.le_succ _) (Nat.lt_succ_self _) rfl rfl
      rfl rfl rfl rfl (fun task hTask => (hMem task).mpr (.inl hTask)) ?_ (Nat.le_add_right _ _)
      fun _ => (hMem _).mpr (.inr (List.mem_singleton.mpr rfl))
    rw [hLength]
    exact Nat.lt_succ_self _
  · exact List.getElem?_concat_length
  · exact pending_append.mpr (.inr ⟨rfl, rfl⟩)
  · obtain ⟨t', ht', hSlot, -⟩ | ⟨-, rfl⟩ := pending_append.mp hPending
    · exact absurd hSlot (Nat.ne_of_lt (h.opened t' ht'))
    · rfl
  · exact congrArg (fun pending => View.mk w.now pending (Ticked w)) (dues_append (t := t))
  · have hQueue : q.length ≤ w.queue.length + 1 := hQueue
    change 2 * (toDo w.now (chores ++ [t]) + q.length) + (if w.streak < longestStreak then 1 else 2) ≤ _
    rw [toDo_append, patience]
    simp only [t, Chore.effort]
    omega

structure Started (timeout : Option Nat) (v : View) (w' : World) (chores' : List (Nat × Chore)) : Prop where
  bench : Bench w' chores'
  rings : v.started.Rings (view w' chores')
  now : w'.now = v.now + waitFor timeout
  ticked : ringsWithin timeout → Ticked w'
  left : ¬ ringsWithin timeout → timeout ≠ some 0 →
    ∀ due ∈ v.started.pending, w'.now ≤ due → due ∈ (view w' chores').pending
  early : ¬ ringsWithin timeout → timeout ≠ some 0 → Ticked w' →
    v.ticked ∨ ∃ due ∈ v.started.pending, due < w'.now

theorem Bench.ends_startTicker (timeout : Option Nat) (h : Bench w chores) (spans : List Span) :
    ∃ w' chores', Started timeout (view w chores) w' chores' ∧
      Ends none ((startTicker timeout).run.under spans) w
        (.finished (if Ticked w' then .ok () else .error notFired)) w' ∧
      Halts (2 * (patience w chores + 12)) ((startTicker timeout).run.under spans) w := by
  obtain ⟨w₁, chores₁, hStart, hBench, hAwaited, hView, hPatience⟩ := h.exists_started
  obtain ⟨w₂, chores₂, hWaited⟩ := hBench.waited timeout hAwaited
  obtain ⟨events, hAfter⟩ := hWaited.bench.ends_afterCall timeout w.now spans
  -- The call, and what follows it, from the world in which the wait begins.
  have hAwait (slot : Nat) : (Program.await slot timeout (.pure : _ → Async (Option Result))).under spans =
      .await slot timeout .pure := by
    rw [Program.under_await]
    exact congrArg _ (funext fun x => Program.under_pure spans x)
  have hTurn : w.turnMain none ((startTicker timeout).run.under spans) = w₁.turnMain none
      ((Program.await w.slots.length timeout .pure).bind fun x => (afterCall w.now timeout x).under spans) := by
    rw [run_startTicker, ← hStart, ← hAwait, ← Program.under_bind]
    simp only [Program.under_act, Program.under_fork]
    rfl
  refine ⟨{ w₂ with events }, chores₂, ⟨?_, hView ▸ hWaited.rings, ?_, hWaited.ticked, ?_, ?_⟩, ?_, ?_⟩
  · exact hWaited.bench.idle rfl rfl (Nat.le_refl _) rfl rfl rfl (fun _ => id) fun _ => id
  · have hNow : w₁.now = w.now := congrArg View.now hView
    exact hWaited.now.trans (congrArg (· + waitFor timeout) hNow)
  · exact fun hNot hTimeout => hView ▸ hWaited.left hNot hTimeout
  · intro hNot hTimeout hTicked
    have hTickedBefore : Ticked w₁ ↔ Ticked w := (congrArg View.ticked hView).to_iff
    exact hView ▸ (hWaited.early hNot hTimeout hTicked).imp_left hTickedBefore.mp
  · unfold Ends
    rw [hTurn]
    exact ends_bind_finished_iff.mpr ⟨_, w₂, hWaited.ends, hAfter⟩
  · unfold Halts
    rw [hTurn]
    have hBoth := hWaited.soon.bind fun x w₃ _ => ((prompt_afterCall w.now timeout x).under spans).halts 0 w₃
    exact hBoth.mono (by omega)

end TestBench.SelfTest
