import TestBench.Proofs.Signal.Closure
import TestBench.Proofs.Signal.Scripts
import TestBench.Proofs.Signal.TwinSteps

/-! # A longer timeout changes nothing

A call of `Async.untilSignal` that returns what was signalled, before its time is over, returns the same with
any longer timeout and with none, and the whole run is the same. While the program waits the clock is not past
the time at which the call returns, so its timer is never the next to fire (`World.Leads.le_of_awaited`). Main
statement: `until_longer_timeout`. When the signal comes in the very millisecond in which the time is over, the
timer has its own place in the order of turns (`exists_longer_timeout_other_log`).
-/

namespace TestBench

open Chronicle
open Async

namespace World

variable {α : Type} {slot ms u : Nat} {r : Result} {w w' : World} {limit : Option Nat} {x x' : Waiting α}
  {l l' : Chronicle} {turns : Nat}

theorem isOpen_of_awaited (hReady : Scene.Ready ⟨some ⟨α, x⟩, w⟩) (hAwaited : w.Awaited slot x) :
    Slot.IsOpen w.slots[slot]? := by
  obtain ⟨own, hSound⟩ := hReady.sound
  rcases hAwaited with hAwaits | ⟨t, ht, hAwaits⟩
  · exact (hSound.holds none slot (Scene.mem_of_awaits hAwaits (hSound.main ⟨α, x⟩ rfl))).1
  · exact (hSound.holds (some t.1) slot (Scene.mem_of_awaits hAwaits (hSound.tasks t ht).2)).1

/-- A world after some marks: the slot lived by them, and none of them is from a later time. -/
structure Leads (l : Chronicle) (slot : Nat) (w : World) : Prop where
  lives : Slot.Lives none ((history l).on slot) w.slots[slot]?
  past : ∀ e ∈ l, e.1 ≤ w.now

namespace Leads

theorem begin {p : Async α} (limit : Option Nat) (hProper : p.Proper) (hReady : Scene.Ready ⟨none, w⟩)
    (hNew : w.slots.length ≤ slot) :
    Leads ((w.turnMainMarks limit p).stamped w.now) slot (w.turnMain limit p).world := by
  obtain ⟨own, hSound⟩ := hReady.sound
  obtain ⟨-, hRuns⟩ := Scene.runsTo_begin hProper limit w hReady
  constructor
  case lives =>
    have hLives := (hRuns.reaches.sound hSound).2 slot
    rwa [List.getElem?_eq_none hNew, Progress.world_scene] at hLives
  case past =>
    intro e he
    obtain ⟨_, -, rfl⟩ := List.mem_map.mp he
    exact Nat.le_of_eq (now_turnMain w limit p).symm

theorem step (limit : Option Nat) (h : Leads l slot w) (hReady : Scene.Ready ⟨some ⟨α, x⟩, w⟩) :
    Leads (l ++ w.stepChronicle limit x) slot (w.step limit x).world := by
  obtain ⟨own, hSound⟩ := hReady.sound
  obtain ⟨-, hRuns⟩ := Scene.runsTo_step w limit x hReady
  constructor
  case lives =>
    have hLives := (hRuns.reaches.sound hSound).2 slot
    rw [Progress.world_scene] at hLives
    rw [history_append, History.on_append]
    exact h.lives.append hLives
  case past =>
    intro e he
    rcases List.mem_append.mp he with he | he
    · exact Nat.le_trans (h.past e he) (w.grows_step limit x).now
    · exact Nat.le_of_eq (time_of_mem_stepChronicle he)

theorem inTime (h : Leads l slot w) (hTime : l.InTime slot ms u) : w.InTime slot ms u := by
  intro hms hSlot
  have hOpened := h.lives.opened_mem rfl (by simpa using hSlot)
  obtain ⟨s, hs⟩ := mem_on_history_iff.mp hOpened
  have hBefore := hTime.opened hms s hs
  have hPast : s ≤ w.now := h.past _ hs
  omega

/-- While somebody waits for the slot the look is yet to come, so the next step does not bring the clock past
it. -/
theorem le_of_awaited (h : Leads l slot w) (hReady : Scene.Ready ⟨some ⟨α, x⟩, w⟩)
    (hLook : (u, slot, .looked (some (some r))) ∈ l ++ driveChronicle limit (turns + 1) x w)
    (hAwaited : w.Awaited slot x) : (w.step limit x).world.now ≤ u := by
  have hOpen := isOpen_of_awaited hReady hAwaited
  rcases List.mem_append.mp hLook with hLook | hLook
  · exact absurd (.looked _) (h.lives.not_isEnd_of_isOpen hOpen (mem_on_history_iff.mpr ⟨u, hLook⟩))
  · rcases List.mem_append.mp hLook with hLook | hLook
    · exact Nat.le_of_eq (time_of_mem_stepChronicle hLook).symm
    · cases hEq : w.step limit x with
      | ended e w₁ =>
        rw [hEq] at hLook
        cases hLook
      | waits main w₁ =>
        rw [hEq] at hLook
        exact le_time_of_mem_driveChronicle hLook

end Leads

theorem Twin.drive (h : w.Twin slot ms u w') (hx : x.Retimed slot ms u Eq x')
    (hReady : Scene.Ready ⟨some ⟨α, x⟩, w⟩) (hLeads : Leads l slot w)
    (hTime : (l ++ driveChronicle limit turns x w).InTime slot ms u)
    (hLook : (u, slot, .looked (some (some r))) ∈ l ++ driveChronicle limit turns x w) :
    driveChronicle limit turns x' w' = driveChronicle limit turns x w ∧
      (drive limit turns x' w').1 = (drive limit turns x w).1 ∧
      (drive limit turns x w).2.Twin slot ms u (drive limit turns x' w').2 := by
  -- the marks so far, with those to come, keep telling when the call returns
  induction turns generalizing l x x' w w' with
  | zero => exact ⟨rfl, rfl, h⟩
  | succ turns ih =>
    have hStepTime : (w.stepChronicle limit x).InTime slot ms u := by
      refine hTime.mono (List.Subset.trans ?_ (List.subset_append_right _ _))
      exact List.subset_append_left _ _
    obtain ⟨hSame, hProgress⟩ := h.step hx (hLeads.inTime (hTime.mono (List.subset_append_left _ _))) hStepTime
      (hLeads.le_of_awaited hReady hLook)
    have hLeads' := hLeads.step limit hReady
    have hReady' := (Scene.runsTo_step w limit x hReady).1
    simp only [driveChronicle, World.drive, hSame] at hTime hLook ⊢
    generalize w.step limit x = first at hProgress hLeads' hReady' hTime hLook ⊢
    generalize w'.step limit x' = second at hProgress ⊢
    cases hProgress with
    | ended e hEnd => exact ⟨rfl, rfl, hEnd⟩
    | waits hMain hWorld =>
      rw [← List.append_assoc] at hTime hLook
      obtain ⟨hRest, hEnding, hEnd⟩ := ih hWorld hMain hReady' hLeads' hTime hLook
      exact ⟨congrArg _ hRest, hEnding, hEnd⟩

theorem patient_chronicle {p : Async α} {v : Nat} (hProper : p.Proper) (hReady : Scene.Ready ⟨none, w⟩)
    (hNew : w.slots.length ≤ slot) (hReturns : (u, slot, .looked (some (some r))) ∈ w.chronicle turns limit p) :
    (v, slot, .looked (some none)) ∉ w.chronicle turns limit p := by
  intro hv
  obtain ⟨own, hSound⟩ := hReady.sound
  obtain ⟨main, hRun⟩ := Scene.runsTo_run hProper turns limit w
  have hLives := ((hRun hReady).2.reaches.sound hSound).2 slot
  rw [List.getElem?_eq_none hNew] at hLives
  have hTwice := hLives.isEnd_unique (mem_on_history_iff.mpr ⟨v, hv⟩) (mem_on_history_iff.mpr ⟨u, hReturns⟩)
    (.looked none) (.looked (some r))
  cases hTwice

/-- Twin worlds in which retimed programs run take the same way. -/
theorem Twin.run {p p' : Async α} (hProper : p.Proper) (hReady : Scene.Ready ⟨none, w⟩)
    (hNew : w.slots.length ≤ slot) (hPrograms : p.Retimed slot ms Eq p') (hWorlds : w.Twin slot ms u w')
    (hReturns : (u, slot, .looked (some (some r))) ∈ w.chronicle turns limit p)
    (hBefore : ms ≠ 0 → ∀ s, (s, slot, .opened) ∈ w.chronicle turns limit p → u < s + min ms longestWait) :
    w'.chronicle turns limit p' = w.chronicle turns limit p ∧
      (run turns limit p' w').1 = (run turns limit p w).1 ∧
      (run turns limit p w).2.Twin slot ms u (run turns limit p' w').2 := by
  have hTime : (w.chronicle turns limit p).InTime slot ms u :=
    ⟨fun v => patient_chronicle hProper hReady hNew hReturns, hBefore⟩
  simp only [chronicle, World.run, hWorlds.now_eq] at hTime hReturns ⊢
  have hMarks : ((p.marks w).stamped w.now).InTime slot ms u := by
    refine hTime.mono ?_
    rw [turnMainMarks, History.stamped_append, List.append_assoc]
    exact List.subset_append_left _ _
  -- before the run nobody has the slot, so its time does not matter
  have hUnopened : w.InTime slot ms u := fun _ hSlot => absurd hSlot (Nat.not_lt.mpr hNew)
  have hTurn := hPrograms.lockstep hWorlds hUnopened hMarks
  obtain ⟨hSame, hProgress⟩ := Twin.turnMain hTurn (limit.map (w.now + ·))
  rw [hSame]
  have hLeads := Leads.begin (limit.map (w.now + ·)) hProper hReady hNew
  have hWaits := (Scene.runsTo_begin hProper (limit.map (w.now + ·)) w hReady).1
  generalize w.turnMain (limit.map (w.now + ·)) p = first at hProgress hWaits hLeads hTime hReturns ⊢
  generalize w'.turnMain (limit.map (w.now + ·)) p' = second at hProgress ⊢
  cases hProgress with
  | ended e hEnd => exact ⟨rfl, rfl, hEnd⟩
  | waits hMain hWorld =>
    obtain ⟨hRest, hEnding, hEnd⟩ := hWorld.drive hMain hWaits hLeads hTime hReturns
    exact ⟨congrArg _ hRest, hEnding, hEnd⟩

end World

/-- A longer timeout of a call that returns in time what was signalled changes nothing. -/
structure LongerTimeoutKeeps : Prop where
  /-- Of all executions of one call only that which gets the slot `slot` has another timeout. -/
  call : ∀ {slot t : Nat} {func func' : Nat → Hook} {later : Option Nat},
    (∀ s, (func s).Retimed slot t (func' s)) → (∀ l ∈ later, t ≤ l) →
      (untilSignal func (some t)).Retimed slot t Eq
        (untilSignalBy func' fun other => if other = slot then later else some t)
  /-- The call may be made while another call calls its function, or in the work of that. -/
  callee : ∀ {slot t : Nat} {func func' : Nat → Hook} (timeout : Option Nat),
    (∀ s, (func s).Retimed slot t (func' s)) →
      (untilSignal func timeout).Retimed slot t Eq (untilSignal func' timeout)
  caseRun : ∀ {slot t : Nat} {c c' : Case}, c.Retimed slot t c' → c.run.Retimed slot t Eq c'.run
  setRun : ∀ {slot t : Nat} {set set' : TestSet} (print : Bool) (sink : Sink), set.Retimed slot t set' →
    (set.run print sink).Retimed slot t Eq (set'.run print sink)
  /-- A set may be run in the work of another, which keeps what it reports. -/
  setCollected : ∀ {slot t : Nat} {set set' : TestSet} (print : Bool) (sink : Sink) (earlier : List Report),
    set.Retimed slot t set' → ((set.run print sink).collect earlier).Retimed slot t Eq
      ((set'.run print sink).collect earlier)
  /-- Take a call with `t` milliseconds that returns a signalled result at the time `u`, before its time is over.
  In a program in which this call has a longer timeout, or none, and which is otherwise the same, the whole run is
  the same: every slot gets the same marks at the same times, so the call returns the same result at `u` and all
  signals get the same answers; the run has the same ending; and the worlds that it leaves are equal, with their
  log, their reports and their clock, but for the timeout of the call in what the remaining tasks would do. -/
  run : ∀ {α : Type} {p p' : Async α} {w w' : World} {slot t u turns : Nat} {limit : Option Nat} {r : Result},
    p.Proper → Scene.Ready ⟨none, w⟩ → w.slots.length ≤ slot → p.Retimed slot t Eq p' → w.Twin slot t u w' →
    (u, slot, .looked (some (some r))) ∈ w.chronicle turns limit p →
    (t ≠ 0 → ∀ s, (s, slot, .opened) ∈ w.chronicle turns limit p → u < s + min t longestWait) →
      w'.chronicle turns limit p' = w.chronicle turns limit p ∧
        (World.run turns limit p' w').1 = (World.run turns limit p w).1 ∧
        (World.run turns limit p w).2.Twin slot t u (World.run turns limit p' w').2

theorem until_longer_timeout : LongerTimeoutKeeps where
  call := retimed_longer
  callee timeout hFunc := retimed_untilSignal hFunc timeout
  caseRun := Case.retimed_run
  setRun print sink hSet := TestSet.retimed_run hSet print sink
  setCollected print sink earlier hSet :=
    ((TestSet.retimed_run hSet print sink).collect earlier).mono fun _ _ hSame => Prod.ext hSame.1 hSame.2
  run := World.Twin.run

/-- A callee that signals success after some milliseconds, when it has started one more task. -/
def signalLater (ms slot : Nat) : Async (Async Result) := do
  spawn do
    rest ms
    spawn (log "started")
    settle slot (.ok ())
  return .pure (.ok ())

theorem keepsTo_signalLater (ms slot : Nat) : (signalLater ms slot).KeepsTo ∅ Program.Proper := by
  have hRest : (rest ms).Proper := .sleep (.pure trivial)
  have hLog : (log "started").Proper := proper_perform trivial
  have hSettle : (settle slot (.ok ())).Proper := proper_settle
  have hTask := hRest.seq fun _ => (proper_spawn hLog).seq fun _ => hSettle
  exact Program.KeepsTo.seq (proper_spawn hTask) fun _ _ => .pure (.pure trivial)

def waitingCase (call : Async Result) : Case where
  name := "answered"
  body := .ofWork call

theorem until_longer_timeout_of_case :
    let first := (waitingCase (untilSignal (signalLater 3) (some 5))).run
    let second := (waitingCase (untilSignalBy (signalLater 3) fun slot => if slot = 0 then none else some 5)).run
    World.chronicle {} 9 none second = World.chronicle {} 9 none first ∧
      (World.run 9 none second {}).1 = (World.run 9 none first {}).1 ∧
      (World.run 9 none first {}).2.Twin 0 5 3 (World.run 9 none second {}).2 := by
  intro first second
  have hCase : (waitingCase (untilSignal (signalLater 3) (some 5))).Proper :=
    ⟨.pure (proper_untilSignal (keepsTo_signalLater 3)), nofun, nofun⟩
  have hCall : (untilSignal (signalLater 3) (some 5)).Retimed 0 5 Eq
      (untilSignalBy (signalLater 3) fun slot => if slot = 0 then none else some 5) :=
    until_longer_timeout.call (fun _ => .refl ..) nofun
  have hMarks : World.chronicle {} 9 none first = [(0, 0, .opened), (0, 0, .looked none),
      (3, 0, .signalled (.ok ()) true), (3, 0, .looked (some (some (.ok ()))))] := by decide +kernel
  have hPrograms : first.Retimed 0 5 Eq second := until_longer_timeout.caseRun ⟨rfl, .pure hCall, .none, .none⟩
  have hLook : (3, 0, .looked (some (some (.ok ())))) ∈ World.chronicle {} 9 none first := by simp [hMarks]
  refine until_longer_timeout.run (Case.proper_run hCase) Scene.ready_init (Nat.le_refl 0) hPrograms (.refl {})
    hLook ?_
  intro _ s hs
  obtain rfl : s = 0 := by simpa [hMarks] using hs
  decide

def idle : Nat → Async Unit
  | 0 => .pure ()
  | n + 1 => .sleep 0 (idle n)

/-- A task that uses up its turn, makes a call and logs that it returned. -/
def idleThenCall (call : Async Result) : Async Unit := do
  spawn do
    idle turnBudget
    let _ ← call
    log "returned"
  rest 20

/-- If the signal comes in the millisecond in which the time of the call is over, its timer has put the task that
calls into the queue, and a longer timeout lets another task go first. -/
theorem exists_longer_timeout_other_log :
    ¬ ∀ (p p' : Async Unit) (slot t u turns : Nat) (r : Result), p.Proper → p.Retimed slot t Eq p' →
      (u, slot, .looked (some (some r))) ∈ World.chronicle {} turns none p →
      (World.run turns none p' {}).2.log = (World.run turns none p {}).2.log := by
  intro h
  let first := idleThenCall (untilSignal (signalLater 5) (some 5))
  let second := idleThenCall (untilSignalBy (signalLater 5) fun slot => if slot = 0 then some 6 else some 5)
  have hIdle (n : Nat) : (idle n).Proper := by
    induction n with
    | zero => exact .pure trivial
    | succ n ih => exact .sleep ih
  have hProper : first.Proper := by
    have hCall : (untilSignal (signalLater 5) (some 5)).Proper := proper_untilSignal (keepsTo_signalLater 5)
    have hLog : (log "returned").Proper := proper_perform trivial
    have hTask := (hIdle turnBudget).seq fun _ => hCall.seq fun _ => hLog
    exact (proper_spawn hTask).seq fun _ => .sleep (.pure trivial)
  have hPrograms : first.Retimed 0 5 Eq second := by
    have hCall : (untilSignal (signalLater 5) (some 5)).Retimed 0 5 Eq
        (untilSignalBy (signalLater 5) fun slot => if slot = 0 then some 6 else some 5) :=
      retimed_longer (fun _ => .refl ..) fun l hl => Option.some.inj hl ▸ Nat.le_succ 5
    have hTask := (Program.Retimed.refl (idle turnBudget)).seq fun _ => hCall.seq fun _ => .refl (log "returned")
    exact (retimed_spawn hTask).seq fun _ => .refl (rest 20)
  have hLook : (5, 0, .looked (some (some (.ok ())))) ∈ World.chronicle {} 20 none first := by decide +kernel
  have hLog := h first second 0 5 5 20 (.ok ()) hProper hPrograms hLook
  have hFirst : (World.run 20 none first {}).2.log = [(5, "returned"), (5, "started")] := by decide +kernel
  have hSecond : (World.run 20 none second {}).2.log = [(5, "started"), (5, "returned")] := by decide +kernel
  rw [hFirst, hSecond] at hLog
  exact absurd hLog (by decide)

end TestBench
