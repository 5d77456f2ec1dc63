import TestBench.Proofs.Signal.Origin
import TestBench.Proofs.Signal.Scripts

/-! # The first signal wins

Any number of calls may be under way, made by cases in sets, by tasks, by the callees of other calls. Programs
get their turns, timers end and waits are given up in whatever order. Of each call whose callee returned its
future, the first signal that comes while the call waits is accepted and is what the call returns
(`until_settles_once`).
-/

namespace TestBench

open Async

def History.IsOver (slot : Nat) (h : History) : Prop := ∃ m ∈ h.on slot, m.IsEnd

namespace Slot.Lives

variable {s s' : Option Slot} {a b l : List Mark}

theorem opened_notMem (h : Lives s l s') (hs : s ≠ none) : .opened ∉ l := by
  induction h with
  | nil => exact List.not_mem_nil
  | cons hNext _ ih =>
    rintro (_ | ⟨_, hMem⟩)
    · cases hNext
      exact hs rfl
    · refine ih (fun hNone => ?_) hMem
      subst hNone
      cases hNext
      exact hs rfl

/-- A slot is opened once, and all signals before are refused. -/
theorem of_opened (h : Lives none (a ++ .opened :: b) s) :
    (∀ m ∈ a, ∃ r, m = .signalled r false) ∧ .opened ∉ b := by
  obtain ⟨s₁, hBefore, hRest⟩ := h.split
  obtain _ | ⟨hNext, hLater⟩ := hRest
  cases hNext
  exact ⟨hBefore.tells, hLater.opened_notMem (by simp)⟩

theorem accepted_iff_not_isEnd {r : Result} {accepted : Bool}
    (h : Lives none (a ++ .signalled r accepted :: b) s) (hOpened : .opened ∈ a) :
    accepted = true ↔ (∀ r', .signalled r' true ∉ a) ∧ ∀ m ∈ a, ¬ m.IsEnd := by
  rw [h.accepted_iff hOpened]
  refine and_congr_right fun _ => ⟨?_, fun hOpen => ⟨fun x hx => hOpen _ hx (.looked x), fun hd => ?_⟩⟩
  · rintro ⟨hLooked, hDropped⟩ m hm (x | _)
    · exact hLooked x hm
    · exact hDropped hm
  · exact hOpen _ hd .dropped

end Slot.Lives

theorem World.settle_apart (w : World) (slot : Nat) (r : Result) :
    ∃ slots queue, (w.settle slot r).2 = { w with slots := slots, queue := queue } ∧
      ∀ other, other ≠ slot → slots[other]? = w.slots[other]? := by
  by_cases hVacant : w.slots[slot]? = some .vacant
  · obtain ⟨queue, hSettle⟩ := settle_of_vacant (r := r) hVacant
    rw [hSettle]
    exact ⟨_, queue, rfl, fun other hOther => getElem?_setSlot_of_ne hOther⟩
  · rw [settle_of_ne_vacant hVacant]
    exact ⟨_, _, rfl, fun _ _ => rfl⟩

/-- What the work of a callee signals when a turn of it came to this: a failure or a panic, never success. -/
def Turn.failure? : Turn Result → Option Failure
  | .finished (.error f) => some f
  | .panicked q => some (.ofPayload q)
  | _ => none

theorem Async.marks_afterWork (slot : Nat) (x : Async Result) (w : World) :
    (x.attempt.bind (afterWork slot)).marks w = x.marks w ++ (x.turn w).1.failure?.toList.map fun f =>
      (slot, .signalled (.error f) ((x.turn w).2.settle slot (.error f)).1) := by
  rw [Program.marks_andThen]
  rcases x.turn w with ⟨e, w'⟩
  cases e with
  | finished r => rcases r with f | ⟨⟩ <;> rfl
  | panicked q => rfl
  | waits y => rfl
  | yields y => rfl

namespace Scene

variable {α : Type} {c c' : Scene} {k : Option Nat} {x : Waiting α} {own : Option Nat → Set Nat} {h : History}
  {slot : Nat} {next : Option Result → Async α}

theorem Move.expects (hMove : c.Move h c') (hSound : c.Sound own) (hHas : c.Has k ⟨α, x⟩)
    (hExpects : x.Expects slot next) :
    (∃ x', c'.Has k ⟨α, x'⟩ ∧ x'.Expects slot next) ∨ h.IsOver slot := by
  obtain hHas' | ⟨w, hTurn, rfl⟩ | rfl := hMove.of_has hSound hHas
  · exact .inl ⟨x, hHas', hExpects⟩
  · obtain ⟨left, hResume⟩ := hExpects.resume c.world.now
    rw [hResume] at hTurn ⊢
    obtain ⟨x', hRest, hWaits, -⟩ | ⟨y, w₁, -, -, hMarks⟩ := Program.turn_await slot left next w
    · exact .inl ⟨x', hTurn.has hSound hRest, hWaits.expects⟩
    · right
      rw [hMarks]
      exact ⟨_, History.mem_on_iff.mpr List.mem_cons_self, .looked y⟩
  · right
    rw [hExpects.dropMarks_eq]
    exact ⟨_, History.mem_on_iff.mpr List.mem_cons_self, .dropped⟩

theorem Reaches.expects (hReaches : c.Reaches h c') (hSound : c.Sound own) (hHas : c.Has k ⟨α, x⟩)
    (hExpects : x.Expects slot next) :
    (∃ x', c'.Has k ⟨α, x'⟩ ∧ x'.Expects slot next) ∨ h.IsOver slot := by
  -- each move may hand slots on and leaves another waiting program, so both are taken anew
  induction hReaches generalizing own x with
  | refl c => exact .inl ⟨x, hHas, hExpects⟩
  | @step c c₁ c' h h' hMove _ ih =>
    obtain ⟨⟨own₁, hSound₁⟩, -⟩ := hMove.sound hSound
    have hOver {m : Mark} (hMem : m ∈ h.on slot ∨ m ∈ h'.on slot) (hEnd : m.IsEnd) :
        History.IsOver slot (h ++ h') :=
      ⟨m, by rw [History.on_append]; exact List.mem_append.mpr hMem, hEnd⟩
    obtain ⟨x₁, hHas₁, hExpects₁⟩ | ⟨m, hMem, hEnd⟩ := hMove.expects hSound hHas hExpects
    · refine (ih hSound₁ hHas₁ hExpects₁).imp id ?_
      rintro ⟨m, hMem, hEnd⟩
      exact hOver (.inr hMem) hEnd
    · exact .inr (hOver (.inl hMem) hEnd)

end Scene

/-! ## Calls in cases -/

theorem Case.isCall_run {c : Case} {work : Async Result} {func : Nat → Async (Async Result)} {timeout : Option Nat}
    {spans : List Span} (hBefore : c.before = none) (hBody : c.body = .ofWork work)
    (hWork : work.IsCall func timeout spans) :
    c.run.IsCall (fun slot => (func slot).muted) timeout (.case c.name :: spans) := by
  have hInvoke : c.body.invoke.IsCall (fun slot => (func slot).muted) timeout spans := by
    rw [hBody, Hook.invoke_eq]
    exact hWork.muted.attempt.bind _
  rw [Case.run_eq, Case.examine_eq, hBefore]
  exact ((((hInvoke.bind _).bind _).bind _).within _)

/-! ## The law -/

/-- How the signals of a call, its wait and what it returns agree. The call opens a slot of its own and hands it
to its callee, whose signals are the first that the slot gets. From then on the call waits, until its program looks
at the slot for good in a turn of its own, and goes on with what it found, or is dropped with its wait. The task of
the work signals the failure or the panic that the work ends in. A signal is accepted exactly if none was before and
the wait is not over; after that the next turn of the program, in which it may complete a wait at all, returns its
result, whatever the time is, and if the call returned without a result none was or will be accepted. Nothing but
its own marks ever changes the slot, and a signal changes no other slot. -/
structure Call.SettlesOnce {α : Type} (call : Call α) (func : Nat → Async (Async Result)) (work : Async Result)
    (number : Nat) (l : History) (c : Scene) : Prop where
  handed : ∃ (w : World) (before later : History), call.slot = w.slots.length ∧
    call.program.marks call.world = before ++ (call.slot, .opened) ::
      ((func call.slot).under call.spans).marks (w.perform .openSlot).2 ++ later
  fresh : ∃ a b, l.on call.slot = a ++ .opened :: b ∧ (∀ m ∈ a, ∃ r, m = .signalled r false) ∧ .opened ∉ b
  called : call.program.EndsWait call.slot call.due call.next call.world
  worked : ∀ (p : Async Unit) (w : World) (c' : Scene), c.Turns (some number) p w c' → ∃ y, work.LeftOf y ∧
    p.marks w = (y.resume w.now).marks w ++ ((y.resume w.now).turn w).1.failure?.toList.map fun f =>
      (call.slot, .signalled (.error f) (((y.resume w.now).turn w).2.settle call.slot (.error f)).1)
  unique : ∀ a b r, l.on call.slot = a ++ .signalled r true :: b → ∀ r', .signalled r' true ∉ a ++ b
  accepted : ∀ a b r accepted, l.on call.slot = a ++ .signalled r accepted :: b → .opened ∈ a →
    (accepted = true ↔ (∀ r', .signalled r' true ∉ a) ∧ ∀ m ∈ a, ¬ m.IsEnd)
  waits : ¬ l.IsOver call.slot →
    ∃ x : Waiting α, c.Has call.caller ⟨α, x⟩ ∧ x.Expects call.slot call.next
  polled : ∀ r, .signalled r true ∈ l.on call.slot → ¬ l.IsOver call.slot →
    ∀ (p : Async α) (w : World) (c' : Scene), c.Turns call.caller p w c' → w.budget ≠ 0 →
      ∃ w', p.Comes w [(call.slot, .looked (some (some r)))] (call.rest r) w'
  returns : ∀ h c' y, c.Move h c' → (call.slot, .looked (some y)) ∈ h →
    ∃ p w, c.Turns call.caller p w c' ∧ h = p.marks w ∧ p.Finds call.slot call.next y w
  found : ∀ a b r x, l.on call.slot = a ++ .looked x :: b → .signalled r true ∈ a → x = some (some r)
  returned : ∀ r, .looked (some (some r)) ∈ l.on call.slot → .signalled r true ∈ l.on call.slot
  expired : .looked (some none) ∈ l.on call.slot → ∀ r, .signalled r true ∉ l.on call.slot
  untouched : ∀ h c', c.Move h c' → (∀ m, (call.slot, m) ∉ h) →
    c'.world.slots[call.slot]? = c.world.slots[call.slot]?
  apart : ∀ r, ∃ slots queue, (c.world.settle call.slot r).2 = { c.world with slots := slots, queue := queue } ∧
    ∀ other, other ≠ call.slot → slots[other]? = c.world.slots[other]?

section

variable {α : Type} {call : Call α} {h₁ h₂ h : History} {c₁ c₂ c : Scene} {own : Option Nat → Set Nat}
  {func : Nat → Async (Async Result)} {work : Async Result} {w w₁ : World}

theorem Call.expects_or_isOver (hCalled : call.program.EndsWait call.slot call.due call.next call.world)
    (hSound₁ : c₁.Sound own) (hTurn : c₁.Turns call.caller call.program call.world c₂) (hAfter : c₂.Reaches h₂ c) :
    (∃ x : Waiting α, c.Has call.caller ⟨α, x⟩ ∧ x.Expects call.slot call.next) ∨
      (h₁ ++ call.program.marks call.world ++ h₂).IsOver call.slot := by
  have hOver {m : Mark} (hMem : (call.slot, m) ∈ call.program.marks call.world ∨ (call.slot, m) ∈ h₂)
      (hEnd : m.IsEnd) : (h₁ ++ call.program.marks call.world ++ h₂).IsOver call.slot := by
    refine ⟨m, History.mem_on_iff.mpr ?_, hEnd⟩
    simp only [List.mem_append]
    exact hMem.imp .inr id
  obtain ⟨-, x, hRest, hWaits⟩ | ⟨y, before, w', hMarks, -⟩ := hCalled
  · obtain ⟨⟨own₂, hSound₂⟩, -⟩ := hTurn.move.sound hSound₁
    refine (hAfter.expects hSound₂ (hTurn.has hSound₁ hRest) hWaits.expects).imp id ?_
    rintro ⟨m, hMem, hEnd⟩
    exact hOver (.inr (History.mem_on_iff.mp hMem)) hEnd
  · exact .inr (hOver (.inl (by rw [hMarks]; simp)) (.looked y))

/-- What stays so after a call: its slot lives by its marks, its program waits unless the wait is over, and the task
with the number does the work of the callee. -/
structure Call.Underway {α : Type} (call : Call α) (work : Async Result) (number : Nat) (l : History) (c : Scene) :
    Prop where
  sound : ∃ own, c.Sound own
  lives : Slot.Lives none (l.on call.slot) c.world.slots[call.slot]?
  waits : (∃ x : Waiting α, c.Has call.caller ⟨α, x⟩ ∧ x.Expects call.slot call.next) ∨ l.IsOver call.slot
  works : c.DoesWork call.slot number work

namespace Call.Underway

variable {l : History} {number : Nat}

theorem polled (hUnderway : call.Underway work number l c) {r : Result} (hAccepted : .signalled r true ∈ l.on call.slot)
    (hNotOver : ¬ l.IsOver call.slot) {p : Async α} {w : World} {c' : Scene} (hPoll : c.Turns call.caller p w c')
    (hBudget : w.budget ≠ 0) : ∃ w', p.Comes w [(call.slot, .looked (some (some r)))] (call.rest r) w' := by
  obtain ⟨x, hHas, hExpects⟩ := hUnderway.waits.resolve_right hNotOver
  have hSettled : c.world.slots[call.slot]? = some (.settled r) :=
    hUnderway.lives.eq_settled hAccepted (fun y hy => hNotOver ⟨_, hy, .looked y⟩)
      fun hd => hNotOver ⟨_, hd, .dropped⟩
  exact hPoll.collects hHas hExpects hSettled hBudget

theorem returns (hUnderway : call.Underway work number l c) {c' : Scene} {y : Option Result} (hMove : c.Move h c')
    (hLook : (call.slot, .looked (some y)) ∈ h) :
    ∃ p w, c.Turns call.caller p w c' ∧ h = p.marks w ∧ p.Finds call.slot call.next y w := by
  obtain ⟨own, hSound⟩ := hUnderway.sound
  obtain ⟨x, hHas, hExpects⟩ | ⟨m, hMem, hEnd⟩ := hUnderway.waits
  · exact hMove.finds hSound hUnderway.lives hHas hExpects hLook
  · -- after the end of the wait all marks are refused signals, so there is no further look
    have hLives := hUnderway.lives.append ((hMove.sound hSound).2 call.slot)
    obtain ⟨r, hr⟩ := hLives.refused_of_isEnd hMem hEnd (History.mem_on_iff.mpr hLook)
    cases hr

theorem untouched (hUnderway : call.Underway work number l c) {c' : Scene} (hMove : c.Move h c')
    (hNone : ∀ m, (call.slot, m) ∉ h) : c'.world.slots[call.slot]? = c.world.slots[call.slot]? := by
  obtain ⟨own, hSound⟩ := hUnderway.sound
  have hStill := (hMove.sound hSound).2 call.slot
  have hNil : h.on call.slot = [] :=
    List.eq_nil_iff_forall_not_mem.mpr fun m hm => hNone m (History.mem_on_iff.mp hm)
  rw [hNil] at hStill
  exact hStill.eq_of_nil

end Call.Underway

/-- However many calls are under way, and in whatever order things happen, a call settles at most once. -/
theorem until_settles_once (hBefore : Scene.Reaches ⟨none, {}⟩ h₁ c₁)
    (hTurn : c₁.Turns call.caller call.program call.world c₂)
    (hCall : call.program.Comes call.world h
      (((untilSignal func call.timeout).under call.spans).bind call.rest) w)
    (hSlot : call.slot = w.slots.length)
    (hFunc : ((func w.slots.length).under call.spans).turn (w.perform .openSlot).2 = (.finished work, w₁))
    (hAfter : c₂.Reaches h₂ c) :
    (w₁.nextTask, .ready (workTask call.slot work).body) ∈ c₂.world.tasks ∧
      call.SettlesOnce func work w₁.nextTask (h₁ ++ call.program.marks call.world ++ h₂) c := by
  obtain ⟨⟨own₁, hSound₁⟩, hSlots₁⟩ := hBefore.sound Scene.sound_init
  obtain ⟨⟨own₂, hSound₂⟩, -⟩ := hTurn.move.sound hSound₁
  have hFork : Program.Comes (((untilSignal func call.timeout).under call.spans).bind call.rest) w _ _ _ :=
    comes_fork hFunc
  rw [← hSlot] at hFork
  have hMarks := (hCall.trans hFork).marks_eq
  have hCalled : call.program.EndsWait call.slot call.due call.next call.world := by
    have hStamped : ∀ slot, Slot.Lives none ((h₁.stamped 0).history.on slot) c₁.world.slots[slot]? := by
      simpa using hSlots₁
    obtain ⟨h', w₂, hAwait, hNone, -⟩ := hCall.waits hSound₁ hTurn hStamped hFunc
    rw [← hSlot] at hAwait hNone
    exact hAwait.endsWait hNone
  have hUnderway : call.Underway work w₁.nextTask (h₁ ++ call.program.marks call.world ++ h₂) c := by
    obtain ⟨hWork₂, hLt₂, -⟩ := hTurn.doesWork hSound₁ (hCall.trans hFork)
    exact {
      sound := (hAfter.sound hSound₂).1
      lives := ((hBefore.trans hTurn.reaches).trans hAfter).lives call.slot
      waits := Call.expects_or_isOver hCalled hSound₁ hTurn hAfter
      works := hWork₂.reaches hAfter hSound₂ hLt₂ }
  have hLives := hUnderway.lives
  have hStarted := hTurn.mem_forked hSound₁ (hCall.trans hFork)
  refine ⟨hStarted, ?_⟩
  constructor
  case handed => exact ⟨w, h, _, hSlot, hMarks⟩
  case fresh =>
    have hOpened : .opened ∈ (h₁ ++ call.program.marks call.world ++ h₂).on call.slot := by
      refine History.mem_on_iff.mpr ?_
      rw [hMarks]
      simp
    obtain ⟨a, b, hEq⟩ := List.append_of_mem hOpened
    rw [hEq] at hLives
    exact ⟨a, b, hEq, hLives.of_opened⟩
  case called => exact hCalled
  case worked =>
    intro p v c' hWorks
    obtain ⟨y, hLeft, rfl⟩ := hWorks.work hUnderway.works
    exact ⟨y, hLeft, marks_afterWork call.slot _ v⟩
  case unique =>
    intro a b r hEq r'
    rw [hEq] at hLives
    rw [List.mem_append, not_or]
    exact hLives.accepted_unique
  case accepted =>
    intro a b r accepted hEq hOpened
    rw [hEq] at hLives
    exact hLives.accepted_iff_not_isEnd hOpened
  case waits => exact hUnderway.waits.resolve_right
  case polled => exact fun r hAccepted hNotOver p v c' hPoll => hUnderway.polled hAccepted hNotOver hPoll
  case returns => exact fun h' c' y hMove => hUnderway.returns hMove
  case found =>
    intro a b r x hEq hAccepted
    rw [hEq] at hLives
    exact hLives.look_eq hAccepted
  case returned => exact fun r => hLives.accepted_of_taken
  case expired => exact fun hExpired r => hLives.not_accepted_of_expired hExpired
  case untouched => exact fun h' c' hMove => hUnderway.untouched hMove
  case apart => exact fun r => c.world.settle_apart call.slot r

end

def earlySteps : List Step := [.reject (.assertion "early"), .done]

/-- A case that waits for a callee that rejects and then is done. -/
def rejectsEarly : CaseScript := .mk "early" (.mk none [.mk [] [.untilSignal earlySteps [] (some 0)]]) none none

def calleeInTask (slot : Nat) : Async (Async Result) :=
  (callThen (runSteps (some slot) earlySteps) (runSteps (some slot) [])).muted.muted.muted

theorem isCall_rejectsEarly :
    (runSteps none [.case rejectsEarly]).silenced.IsCall calleeInTask (some 0) [.case "early"] := by
  have hBody : (runSteps none [.untilSignal earlySteps [] (some 0)]).IsCall
      (fun slot => callThen (runSteps (some slot) earlySteps) (runSteps (some slot) [])) (some 0) [] := by
    rw [runSteps, Step.run]
    exact (Program.isCall_untilSignal.bind _).bind _
  have hCase : (rejectsEarly.build none).run.IsCall _ (some 0) [.case "early"] := Case.isCall_run rfl rfl hBody
  rw [runSteps, Step.run]
  exact ((hCase.muted.bind _).bind _).silenced

def World.rejected : World where
  nextTask := 1
  queue := [0]
  slots := [.settled (.error (.assertion "early"))]
  holds := [(.call, 0)]
  log := [(0, "reject=true"), (0, "done=false")]

theorem marks_rejectsEarly : (runSteps none [.case rejectsEarly]).silenced.marks { nextTask := 1, queue := [0] } =
    [(0, .opened), (0, .signalled (.error (.assertion "early")) true), (0, .signalled (.ok ()) false),
      (0, .looked (some (some (.error (.assertion "early")))))] := by
  decide +kernel

theorem until_settles_once_of_early_reject :
    let failed : Result := .error (.assertion "early")
    let marks : History := [(0, .opened), (0, .signalled failed true), (0, .signalled (.ok ()) false),
      (0, .looked (some (some failed)))]
    ∃ (call : Call Unit) (c : Scene),
      call.program = (runSteps none [.case rejectsEarly]).silenced ∧ call.slot = 0 ∧
        call.SettlesOnce calleeInTask (.pure (.ok ())) 1 marks c ∧
          ∀ r, .signalled r true ∉ [Mark.opened] ++ [.signalled (.ok ()) false, .looked (some (some failed))] := by
  intro failed marks
  let main := runSteps none [.spawn [.case rejectsEarly]]
  let task := (runSteps none [.case rejectsEarly]).silenced
  let spawned : World := { nextTask := 1, tasks := [(0, .ready task)], queue := [0] }
  have hSpawned : Scene.Reaches ⟨none, {}⟩ [] ⟨none, spawned⟩ :=
    .step (.start (proper_runSteps none _) {}) (.single (.turnMain (.ready main) {}))
  have hTurn := @Scene.Turns.task none spawned 0 (.ready task) List.mem_cons_self
  obtain ⟨rest, hCall⟩ := isCall_rejectsEarly
  let call : Call Unit := ⟨some 0, task, { nextTask := 1, queue := [0] }, 0, some 0, [.case "early"], rest⟩
  have hComes : call.program.Comes call.world []
      (((untilSignal calleeInTask (some 0)).under [.case "early"]).bind rest) call.world := hCall ▸ .here _ _
  have hFunc : ((calleeInTask call.world.slots.length).under call.spans).turn (call.world.perform .openSlot).2 =
      (.finished (.pure (.ok ())), .rejected) := rfl
  obtain ⟨-, hOnce⟩ := @until_settles_once _ call [] [] [] ⟨none, spawned⟩ _ _ calleeInTask (.pure (.ok ()))
    call.world .rejected hSpawned hTurn hComes rfl hFunc (.refl _)
  rw [List.append_nil, List.nil_append, show call.program.marks call.world = marks from marks_rejectsEarly] at hOnce
  exact ⟨call, _, rfl, rfl, hOnce, hOnce.unique _ _ failed rfl⟩

end TestBench
