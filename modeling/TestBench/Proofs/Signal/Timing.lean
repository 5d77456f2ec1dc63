import TestBench.Proofs.Signal.Closure
import TestBench.Proofs.Signal.Owner
import Mathlib.Algebra.Group.Nat.Defs

/-! # Calls keep time

A call of `Async.untilSignal` is under way until it looks at its slot for good or is dropped. While it is
under way its program waits for the slot, the clock has not passed the time that the call was given, and
no signal was accepted at an earlier time (`Scene.Pends`). Main statement: in every order of events at the
pace of the clock, and every run of a world is one (`Scene.runsTo_run`), a call keeps time
(`until_keeps_time`).
-/

namespace TestBench

def deadline (now : Nat) (left : Option Nat) : Option Nat := left.map fun ms => now + min ms longestWait

/-- A program that waits for a slot: its wait has begun, or it gave way before. -/
inductive Waiting.WaitsFor {α : Type} (slot : Nat) (due : Option Nat) (next : Option Result → Async α)
    (now : Nat) : Waiting α → Prop
  | awaiting : WaitsFor slot due next now (.awaiting slot due next)
  | postponed {left : Option Nat} (h : deadline now left = due) :
      WaitsFor slot due next now (.postponed slot left next)

theorem deadline_sub {now due : Nat} (hLow : now ≤ due) (hHigh : due ≤ now + longestWait) :
    deadline now (some (due - now)) = some due := by
  have hMin : min (due - now) longestWait = due - now := Nat.min_eq_left (by omega)
  simp only [deadline, Option.map_some, hMin]
  congr
  omega

theorem Waiting.WaitsFor.resume {α : Type} {slot now : Nat} {due : Option Nat}
    {next : Option Result → Async α} {x : Waiting α} (h : x.WaitsFor slot due next now)
    (hDue : ∀ d ∈ due, now ≤ d ∧ d ≤ now + longestWait) :
    ∃ left, x.resume now = .await slot left next ∧ deadline now left = due := by
  cases h with
  | postponed hLeft => exact ⟨_, rfl, hLeft⟩
  | awaiting =>
    refine ⟨due.map (· - now), rfl, ?_⟩
    cases due with
    | none => rfl
    | some d =>
      obtain ⟨hLow, hHigh⟩ := hDue d rfl
      exact deadline_sub hLow hHigh

/-- A program that waits for a slot, whatever time it has left for that. -/
inductive Waiting.Expects {α : Type} (slot : Nat) (next : Option Result → Async α) : Waiting α → Prop
  | awaiting (due : Option Nat) : Expects slot next (.awaiting slot due next)
  | postponed (left : Option Nat) : Expects slot next (.postponed slot left next)

theorem Waiting.WaitsFor.expects {α : Type} {slot now : Nat} {due : Option Nat}
    {next : Option Result → Async α} {x : Waiting α} (h : x.WaitsFor slot due next now) :
    x.Expects slot next := by
  cases h with
  | awaiting => exact .awaiting due
  | postponed _ => exact .postponed _

theorem Waiting.Expects.resume {α : Type} {slot : Nat} {next : Option Result → Async α} {x : Waiting α}
    (h : x.Expects slot next) (now : Nat) : ∃ left, x.resume now = .await slot left next := by
  cases h with
  | awaiting due => exact ⟨due.map (· - now), rfl⟩
  | postponed left => exact ⟨left, rfl⟩

theorem Waiting.Expects.dropMarks_eq {α : Type} {slot : Nat} {next : Option Result → Async α} {x : Waiting α}
    (h : x.Expects slot next) : x.dropMarks = [(slot, .dropped)] := by
  cases h <;> rfl

/-- In a turn the wait of the program comes to something, and the program goes on with that. -/
def Program.Finds {α : Type} (slot : Nat) (next : Option Result → Async α) (y : Option Result) (p : Async α)
    (w : World) : Prop :=
  ∃ before w', p.marks w = before ++ (slot, .looked (some y)) :: (next y).marks w' ∧
    p.turn w = (next y).turn w'

/-- In a turn the program goes on waiting, or its wait comes to something. -/
def Program.EndsWait {α : Type} (slot : Nat) (due : Option Nat) (next : Option Result → Async α) (p : Async α)
    (w : World) : Prop :=
  ((∀ y, (slot, .looked (some y)) ∉ p.marks w) ∧
    ∃ x, (p.turn w).1.rest = some x ∧ x.WaitsFor slot due next w.now) ∨
  ∃ y, p.Finds slot next y w

namespace Program

variable {α : Type} {slot : Nat} {left : Option Nat} {next : Option Result → Async α} {w : World}

theorem turn_await (slot : Nat) (left : Option Nat) (next : Option Result → Async α) (w : World) :
    (∃ x, ((await slot left next).turn w).1.rest = some x ∧
      x.WaitsFor slot (deadline w.now left) next w.now ∧
      ∀ m ∈ (await slot left next).marks w, m = (slot, .looked none)) ∨
    ∃ y w₁, w.collectSlot? slot left = some (y, w₁) ∧
      (await slot left next).turn w = (next y).turn w₁.spend ∧
      (await slot left next).marks w = (slot, .looked (some y)) :: (next y).marks w₁.spend := by
  by_cases hBudget : w.budget = 0
  · left
    simp only [turn, marks, hBudget, if_true]
    exact ⟨_, rfl, .postponed rfl, List.forall_mem_nil _⟩
  · cases hCollect : w.collectSlot? slot left with
    | none =>
      left
      simp only [turn, marks, hBudget, hCollect, if_false]
      exact ⟨_, rfl, .awaiting, by simp⟩
    | some found =>
      right
      simp only [turn, marks, hBudget, hCollect, if_false]
      exact ⟨found.1, found.2, rfl, rfl, rfl⟩

theorem Comes.endsWait {p : Async α} {w₁ : World} {h : History}
    (hComes : p.Comes w h (.await slot left next) w₁) (hNone : ∀ y, (slot, .looked (some y)) ∉ h) :
    p.EndsWait slot (deadline w.now left) next w := by
  have hNow := hComes.now_eq
  have hTurn := hComes.turn_eq
  have hMarks := hComes.marks_eq
  obtain ⟨x, hRest, hWaits, hLook⟩ | ⟨y, w₂, -, hTurn₁, hMarks₁⟩ := turn_await slot left next w₁
  · refine .inl ⟨fun y hy => ?_, x, hTurn ▸ hRest, hNow ▸ hWaits⟩
    rw [hMarks] at hy
    rcases List.mem_append.mp hy with hy | hy
    · exact hNone y hy
    · cases hLook _ hy
  · exact .inr ⟨y, h, w₂.spend, hMarks₁ ▸ hMarks, hTurn.trans hTurn₁⟩

end Program

theorem World.left_eq_zero {w w₁ : World} {slot : Nat} {left : Option Nat}
    (h : w.collectSlot? slot left = some (none, w₁)) : left = some 0 := by
  unfold collectSlot? at h
  split at h
  · cases h
  · split at h
    · assumption
    · cases h
  · cases h

theorem Chronicle.waits_or_settles {α : Type} {slot : Nat} {left : Option Nat}
    {next : Option Result → Async α} {w : World} {l : Chronicle} {s : Option Slot}
    (hAccepted : ∀ u r, (u, slot, .signalled r true) ∈ l → u = w.now)
    (hLives : Slot.Lives none ((history (l ++ ((Program.await slot left next).marks w).stamped w.now)).on slot) s) :
    (∃ x, ((Program.await slot left next).turn w).1.rest = some x ∧
      x.WaitsFor slot (deadline w.now left) next w.now) ∨
    Settles (l ++ ((Program.await slot left next).marks w).stamped w.now) slot (deadline w.now left) := by
  obtain ⟨x, hRest, hWaits, -⟩ | ⟨y, w₁, hCollect, -, hMarks⟩ := Program.turn_await slot left next w
  · exact .inl ⟨x, hRest, hWaits⟩
  · right
    have hSplit : l ++ ((Program.await slot left next).marks w).stamped w.now =
        (l ++ [(w.now, slot, .looked (some y))]) ++ ((next y).marks w₁.spend).stamped w.now := by
      rw [hMarks, List.append_assoc]
      rfl
    rw [hSplit] at hLives ⊢
    refine Settles.append ?_ hLives
    rw [history_append, History.on_append] at hLives
    obtain ⟨s₁, hFirst, -⟩ := hLives.split
    have hEnd : Slot.Lives none ((history l).on slot ++ [.looked (some y)]) s₁ := by
      simpa [history] using hFirst
    refine settles_of_isEnd (.looked y) hEnd hAccepted fun hLook => ?_
    cases hLook
    rw [World.left_eq_zero hCollect]
    rfl

namespace Scene

open Chronicle

variable {α : Type} {c c' : Scene} {k : Option Nat} {x : Waiting α} {own : Option Nat → Set Nat}
  {h : History} {slot : Nat} {due : Option Nat} {next : Option Result → Async α} {l l' : Chronicle}

structure Pends (c : Scene) (k : Option Nat) (slot : Nat) (due : Option Nat) (next : Option Result → Async α)
    (l : Chronicle) : Prop where
  waits : ∃ x, c.Has k ⟨α, x⟩ ∧ x.WaitsFor slot due next c.world.now
  inTime : ∀ d ∈ due, c.world.now ≤ d ∧ d ≤ c.world.now + longestWait
  accepted : ∀ u r, (u, slot, .signalled r true) ∈ l → u = c.world.now

theorem Sound.held (hSound : c.Sound own) (hHas : c.Has k ⟨α, x⟩) (hExpects : x.Expects slot next) :
    Slot.IsOpen c.world.slots[slot]? ∧ (.call, slot) ∈ c.world.holds := by
  have hKeeps : x.KeepsTo (own k) := by
    cases k with
    | none => exact hSound.main ⟨α, x⟩ hHas
    | some task =>
      obtain ⟨x, ⟨⟩, hOnly⟩ := hHas
      exact (hSound.tasks (task, x) hOnly.1).2
  have hResume := hKeeps 0
  have hMem : slot ∈ own k := by
    cases hExpects with
    | awaiting _ =>
      cases hResume with
      | await hSlot _ => exact hSlot
    | postponed _ =>
      cases hResume with
      | await hSlot _ => exact hSlot
  exact hSound.holds k slot hMem

theorem Turns.collects {p : Async α} {w : World} {r : Result} (hTurn : c.Turns k p w c')
    (hHas : c.Has k ⟨α, x⟩) (hExpects : x.Expects slot next) (hSettled : c.world.slots[slot]? = some (.settled r))
    (hBudget : w.budget ≠ 0) : ∃ w', p.Comes w [(slot, .looked (some (some r)))] (next (some r)) w' := by
  obtain ⟨left, hResume⟩ := hExpects.resume c.world.now
  have hCollect : w.collectSlot? slot left = some (some r, w.finish slot (.taken r)) := by
    simp only [World.collectSlot?, hTurn.slots_eq, hSettled]
  rw [hTurn.of_has hHas, hResume]
  exact ⟨_, .await hBudget hCollect (.here _ _)⟩

theorem Sound.isOpen (hSound : c.Sound own) (hHas : c.Has k ⟨α, x⟩) (hExpects : x.Expects slot next) :
    Slot.IsOpen c.world.slots[slot]? :=
  (hSound.held hHas hExpects).1

/-- Only the turn of a program that waits for a slot brings its wait to something. -/
theorem Move.finds {l : List Mark} {y : Option Result} (hMove : c.Move h c') (hSound : c.Sound own)
    (hLives : Slot.Lives none l c.world.slots[slot]?) (hHas : c.Has k ⟨α, x⟩) (hExpects : x.Expects slot next)
    (hLook : (slot, .looked (some y)) ∈ h) :
    ∃ p w, c.Turns k p w c' ∧ h = p.marks w ∧ p.Finds slot next y w := by
  obtain ⟨⟨own', hSound'⟩, hSlots⟩ := hMove.sound hSound
  have hLives' := hLives.append (hSlots slot)
  have hMem : Mark.looked (some y) ∈ h.on slot := History.mem_on_iff.mpr hLook
  obtain hHas' | ⟨w, hTurn, rfl⟩ | rfl := hMove.of_has hSound hHas
  · have hOpen := hSound'.isOpen hHas' hExpects
    exact absurd (.looked y) (hLives'.not_isEnd_of_isOpen hOpen (List.mem_append_right _ hMem))
  · obtain ⟨left, hResume⟩ := hExpects.resume c.world.now
    rw [hResume] at hTurn hLook hLives' ⊢
    refine ⟨_, w, hTurn, rfl, ?_⟩
    obtain ⟨x', -, -, hNone⟩ | ⟨z, w₁, -, hTurnEq, hMarks⟩ := Program.turn_await slot left next w
    · cases hNone _ hLook
    · rw [hMarks] at hLook hLives'
      obtain _ | ⟨_, hLater⟩ := hLook
      · exact ⟨[], w₁.spend, hMarks, hTurnEq⟩
      · rw [History.on_cons_self, List.append_cons] at hLives'
        have hSelf : Mark.looked (some z) ∈ l ++ [.looked (some z)] := by simp
        have hMem' := History.mem_on_iff.mpr hLater
        obtain ⟨r, hr⟩ := hLives'.refused_of_isEnd hSelf (.looked z) hMem'
        cases hr
  · simp [hExpects.dropMarks_eq] at hLook

theorem Pends.not_isOver (hPends : c.Pends k slot due next l) (hSound : c.Sound own)
    (hLives : Slot.Lives none ((history l).on slot) c.world.slots[slot]?) : ¬ l.IsOver slot := by
  rintro ⟨u, m, hMem, hEnd⟩
  obtain ⟨x, hHas, hWaits⟩ := hPends.waits
  have hOpen := hSound.isOpen hHas hWaits.expects
  exact hLives.not_isEnd_of_isOpen hOpen (mem_on_history_iff.mpr ⟨u, hMem⟩) hEnd

theorem mem_canGoOn (hHas : c.Has k ⟨α, x⟩) (hResume : c.world.canResume x) : c.CanGoOn := by
  cases k with
  | none => exact .inl ⟨⟨α, x⟩, hHas, hResume⟩
  | some task =>
    obtain ⟨x, ⟨⟩, hOnly⟩ := hHas
    exact .inr ⟨(task, x), hOnly.1, hResume⟩

theorem Paced.le_due (hPaced : c.Paced c') (hMoves : c'.world.now ≠ c.world.now) (hHas : c.Has k ⟨α, x⟩) :
    c.world.now ≤ c'.world.now ∧ ¬ c.world.canResume x ∧ ∀ d ∈ x.due?, c'.world.now ≤ d := by
  obtain hNow | ⟨hLe, hNobody, hMain, hTasks⟩ := hPaced
  · exact absurd hNow hMoves
  · refine ⟨hLe, fun hResume => hNobody (mem_canGoOn hHas hResume), ?_⟩
    cases k with
    | none => exact hMain ⟨α, x⟩ hHas
    | some task =>
      obtain ⟨x, ⟨⟩, hOnly⟩ := hHas
      exact hTasks (task, x) hOnly.1

theorem Pends.stamped {l : Chronicle} {h : History} {now : Nat}
    (hAccepted : ∀ u r, (u, slot, .signalled r true) ∈ l → u = now) {u : Nat} {r : Result}
    (hMem : (u, slot, .signalled r true) ∈ l ++ h.stamped now) : u = now := by
  rcases List.mem_append.mp hMem with hMem | hMem
  · exact hAccepted u r hMem
  · exact (mem_stamped_iff.mp hMem).1

theorem Pends.later (hPends : c.Pends k slot due next l) (hPaced : c.Paced c')
    (hLives : Slot.Lives none ((history l).on slot) c.world.slots[slot]?)
    (hMoves : c'.world.now ≠ c.world.now) (hHas : c.Has k ⟨α, x⟩)
    (hWaits : x.WaitsFor slot due next c.world.now) (hHas' : c'.Has k ⟨α, x⟩) :
    c'.Pends k slot due next l := by
  obtain ⟨hLe, hResume, hDue⟩ := hPaced.le_due hMoves hHas
  -- the clock moves, so the program cannot go on, and its slot has no result
  cases hWaits with
  | postponed _ => exact absurd rfl hResume
  | awaiting =>
    have hVacant : c.world.slots[slot]? = some .vacant := by
      by_contra hNot
      exact hResume (by simp [World.canResume, hNot])
    rw [hVacant] at hLives
    refine ⟨⟨_, hHas', .awaiting⟩, fun d hd => ?_, fun u r hr => ?_⟩
    · have hHigh := (hPends.inTime d hd).2
      have hLow : c'.world.now ≤ d := hDue d hd
      exact ⟨hLow, by omega⟩
    · exact absurd (mem_on_history_iff.mpr ⟨u, hr⟩) (hLives.tells.2.1 r)

theorem Pends.step (hPends : c.Pends k slot due next l) (hMove : c.Move h c') (hPaced : c.Paced c')
    (hSound : c.Sound own) (hLives : Slot.Lives none ((history l).on slot) c.world.slots[slot]?) :
    c'.Pends k slot due next (l ++ h.stamped c.world.now) ∨
      Settles (l ++ h.stamped c.world.now) slot due := by
  have hLives' := hLives.append ((hMove.sound hSound).2 slot)
  rw [← History.on_append, ← history_stamped c.world.now h, ← history_append] at hLives'
  obtain ⟨x, hHas, hWaits⟩ := hPends.waits
  obtain hHas' | ⟨w, hTurn, rfl⟩ | rfl := hMove.of_has hSound hHas
  · left
    by_cases hNow : c'.world.now = c.world.now
    · refine ⟨⟨x, hHas', hNow ▸ hWaits⟩, hNow ▸ hPends.inTime, fun u r hr => ?_⟩
      rw [hNow]
      exact Pends.stamped hPends.accepted hr
    · obtain rfl := hMove.now_eq.resolve_left hNow
      simpa [History.stamped] using hPends.later hPaced hLives hNow hHas hWaits hHas'
  · obtain ⟨left, hResume, hLeft⟩ := hWaits.resume hPends.inTime
    obtain ⟨hBegin, hNow⟩ := hTurn.now_eq
    rw [hResume] at hTurn hLives' ⊢
    rw [← hBegin] at hLives' hLeft ⊢
    have hAccepted := hPends.accepted
    rw [← hBegin] at hAccepted
    obtain ⟨x', hRest, hWaits'⟩ | hSettles := waits_or_settles hAccepted hLives'
    · left
      rw [hLeft, hBegin, ← hNow] at hWaits'
      refine ⟨⟨x', hTurn.has hSound hRest, hWaits'⟩, hNow ▸ hPends.inTime, fun u r hr => ?_⟩
      rw [hNow, ← hBegin]
      exact Pends.stamped hAccepted hr
    · exact .inr (hLeft ▸ hSettles)
  · rw [hWaits.expects.dropMarks_eq] at hLives' ⊢
    have hEnd : Slot.Lives none ((history l).on slot ++ [.dropped]) c'.world.slots[slot]? := by
      rwa [history_append, history_stamped, History.on_append, History.on_cons_self] at hLives'
    exact .inr (settles_of_isEnd .dropped hEnd hPends.accepted (by simp))

theorem Runs.pends_or_settles (hRuns : c.Runs l' c') (hSound : c.Sound own)
    (hLives : Slot.Lives none ((history l).on slot) c.world.slots[slot]?)
    (hCall : c.Pends k slot due next l ∨ Settles l slot due) :
    c'.Pends k slot due next (l ++ l') ∨ Settles (l ++ l') slot due := by
  induction hRuns generalizing l own with
  | refl c => simpa using hCall
  | @step c c₁ c' h l' hMove hPaced _ ih =>
    obtain ⟨⟨own₁, hSound₁⟩, hSlots⟩ := hMove.sound hSound
    have hLives₁ := hLives.append (hSlots slot)
    rw [← History.on_append, ← history_stamped c.world.now h, ← history_append] at hLives₁
    rw [← List.append_assoc]
    refine ih hSound₁ hLives₁ ?_
    obtain hPends | hSettles := hCall
    · exact hPends.step hMove hPaced hSound hLives
    · exact .inr (hSettles.append hLives₁)

end Scene

/-! ## The law -/

open Chronicle Async

/-- A call of `Async.untilSignal` in the turn of a program, the slot that it opens, and what follows it. -/
structure Call (α : Type) where
  caller : Option Nat
  program : Async α
  world : World
  slot : Nat
  timeout : Option Nat
  spans : List Span
  rest : Result → Async α

namespace Call

variable {α : Type}

def due (call : Call α) : Option Nat := deadline call.world.now call.timeout

def next (call : Call α) : Option Result → Async α := afterWait call.timeout call.spans call.rest

/-- From the beginning to a scene the clock keeps pace, with all marks on the way, and in some turn a program
comes to a call whose callee returns its future. -/
inductive Made (call : Call α) : Chronicle → Scene → Prop
  | intro {l₁ l₂ : Chronicle} {c₁ c₂ c : Scene} {func : Nat → Async (Async Result)} {work : Async Result}
      {h : History} {w w₁ : World} (hBefore : Scene.Runs ⟨none, {}⟩ l₁ c₁)
      (hTurn : c₁.Turns call.caller call.program call.world c₂)
      (hCall : call.program.Comes call.world h
        (((untilSignal func call.timeout).under call.spans).bind call.rest) w)
      (hSlot : call.slot = w.slots.length)
      (hFunc : ((func w.slots.length).under call.spans).turn (w.perform .openSlot).2 = (.finished work, w₁))
      (hAfter : c₂.Runs l₂ c) :
      Made call (l₁ ++ (call.program.marks call.world).stamped call.world.now ++ l₂) c

end Call

/-- How a call keeps time. Until it is over the clock has not passed its time and its program waits; whatever
move makes it look for good is a turn of that program, which goes on with what follows the call. It runs out
of time exactly at its due time, if it has one, and then no signal is ever accepted; what it finds was
accepted at that instant. The due time is the exact sum as long as the timeout is not longer than the longest
wait, and adding it up in 64 bits does not wrap. -/
structure KeepsTime {α : Type} (call : Call α) (l : Chronicle) (c : Scene) : Prop where
  called : call.program.EndsWait call.slot call.due call.next call.world
  pending : ¬ l.IsOver call.slot → (∀ d ∈ call.due, c.world.now ≤ d) ∧
    ∃ x : Waiting α, c.Has call.caller ⟨α, x⟩ ∧ x.WaitsFor call.slot call.due call.next c.world.now
  returns : ∀ h c' y, c.Move h c' → (call.slot, .looked (some y)) ∈ h →
    ∃ p w, c.Turns call.caller p w c' ∧ h = p.marks w ∧ p.Finds call.slot call.next y w
  expired : ∀ u, (u, call.slot, .looked (some none)) ∈ l →
    call.due = some u ∧ ∀ u' r, (u', call.slot, .signalled r true) ∉ l
  returned : ∀ u r, (u, call.slot, .looked (some (some r))) ∈ l → (u, call.slot, .signalled r true) ∈ l
  accepted : ∀ u r, (u, call.slot, .signalled r true) ∈ l →
    (u, call.slot, .looked (some (some r))) ∈ l ∨ (u, call.slot, .dropped) ∈ l ∨
      ¬ l.IsOver call.slot ∧ u = c.world.now
  untimed : call.timeout = none → ∀ u, (u, call.slot, .looked (some none)) ∉ l
  punctual : ∀ ms ≤ longestWait, call.timeout = some ms → call.due = some (call.world.now + ms)
  unwrapped : ∀ ms, call.timeout = some ms → call.world.now + longestWait < 2 ^ 64 →
    call.due = some (UInt64.ofNat call.world.now + UInt64.ofNat (min ms longestWait)).toNat

theorem World.Holds.of_await {α : Type} {w : World} {own : Set Nat} {slot : Nat} {left : Option Nat}
    {next : Option Result → Async α} {post : α → Prop} (hHolds : w.Holds own)
    (hKeeps : (Program.await slot left next).KeepsTo own post) :
    Slot.IsOpen w.slots[slot]? ∧ (.call, slot) ∈ w.holds := by
  cases hKeeps with
  | await hSlot _ => exact hHolds slot hSlot

section

variable {α : Type} {c₁ c₂ : Scene} {l₁ : Chronicle} {own : Option Nat → Set Nat} {k : Option Nat}
  {p : Async α} {w w₀ w₁ : World} {h : History} {func : Nat → Async (Async Result)} {timeout : Option Nat}
  {spans : List Span} {rest : Result → Async α} {work : Async Result}

/-- What was accepted before the call comes to its wait was accepted at the time of the call. -/
theorem Program.Comes.waits (hSound : c₁.Sound own) (hTurn : c₁.Turns k p w c₂)
    (hBefore : ∀ slot, Slot.Lives none ((history l₁).on slot) c₁.world.slots[slot]?)
    (hCall : p.Comes w h (((untilSignal func timeout).under spans).bind rest) w₀)
    (hFunc : ((func w₀.slots.length).under spans).turn (w₀.perform .openSlot).2 = (.finished work, w₁)) :
    ∃ h' w₂, p.Comes w h' (.await w₀.slots.length timeout (afterWait timeout spans rest)) w₂ ∧
      (∀ y, (w₀.slots.length, .looked (some y)) ∉ h') ∧
      ∀ u r, (u, w₀.slots.length, .signalled r true) ∈ l₁ ++ h'.stamped w.now → u = w₂.now := by
  have hAwait : Program.Comes (((untilSignal func timeout).under spans).bind rest) w₀ _ _ _ :=
    comes_await hFunc
  have hComes := hCall.trans hAwait
  obtain ⟨own₀, hPasses₀, hKeeps₀⟩ := hCall.passes (hTurn.keepsTo hSound) (hTurn.holds hSound)
  have hHolds₀ := hPasses₀.holds_own (hTurn.holds hSound)
  obtain ⟨own₂, hPasses₂, hKeeps₂⟩ := hAwait.passes hKeeps₀ hHolds₀
  have hOpen := ((hPasses₂.holds_own hHolds₀).of_await hKeeps₂).1
  refine ⟨_, _, hComes, fun y hy => ?_, fun u r hr => ?_⟩
  · have hLives := hTurn.lives hSound hComes (hBefore w₀.slots.length)
    exact hLives.not_isEnd_of_isOpen hOpen (List.mem_append_right _ (History.mem_on_iff.mpr hy)) (.looked y)
  · rw [hComes.now_eq]
    rcases List.mem_append.mp hr with hr | hr
    · -- before the call its slot was not there
      have hNone : w₀.slots[w₀.slots.length]? = none := List.getElem?_eq_none (Nat.le_refl _)
      have hLives := hTurn.lives hSound hCall (hBefore w₀.slots.length)
      rw [hNone] at hLives
      have hMem := List.mem_append_left (h.on w₀.slots.length) (mem_on_history_iff.mpr ⟨u, hr⟩)
      obtain ⟨r', ⟨⟩⟩ := hLives.tells _ hMem
    · exact (mem_stamped_iff.mp hr).1

theorem Scene.Turns.pends_or_settles (hSound : c₁.Sound own) (hTurn : c₁.Turns k p w c₂)
    (hBefore : ∀ slot, Slot.Lives none ((history l₁).on slot) c₁.world.slots[slot]?)
    (hCall : p.Comes w h (((untilSignal func timeout).under spans).bind rest) w₀)
    (hFunc : ((func w₀.slots.length).under spans).turn (w₀.perform .openSlot).2 = (.finished work, w₁)) :
    p.EndsWait w₀.slots.length (deadline w.now timeout) (afterWait timeout spans rest) w ∧
      (c₂.Pends k w₀.slots.length (deadline w.now timeout) (afterWait timeout spans rest)
          (l₁ ++ (p.marks w).stamped w.now) ∨
        Settles (l₁ ++ (p.marks w).stamped w.now) w₀.slots.length (deadline w.now timeout)) := by
  obtain ⟨h', w₂, hComes, hNone, hAccepted⟩ := hCall.waits hSound hTurn hBefore hFunc
  refine ⟨hComes.endsWait hNone, ?_⟩
  obtain ⟨hNow₁, hNow₂⟩ := hTurn.now_eq
  have hLives := (hBefore w₀.slots.length).append ((hTurn.move.sound hSound).2 w₀.slots.length)
  rw [← History.on_append, ← history_stamped w₂.now (p.marks w), ← history_append] at hLives
  have hSplit : l₁ ++ (p.marks w).stamped w₂.now = (l₁ ++ h'.stamped w₂.now) ++
      ((Program.await w₀.slots.length timeout (afterWait timeout spans rest)).marks w₂).stamped w₂.now := by
    rw [hComes.marks_eq, History.stamped_append, List.append_assoc]
  rw [← hComes.now_eq] at hAccepted ⊢
  rw [hSplit] at hLives ⊢
  obtain ⟨x, hRest, hWaits⟩ | hSettles := waits_or_settles hAccepted hLives
  · left
    have hNow : c₂.world.now = w₂.now := by rw [hNow₂, hComes.now_eq, hNow₁]
    rw [← hComes.turn_eq] at hRest
    refine ⟨⟨x, hTurn.has hSound hRest, hNow ▸ hWaits⟩, fun d hd => ?_, fun u r hr => ?_⟩
    · obtain ⟨ms, -, rfl⟩ := Option.map_eq_some_iff.mp hd
      have hMin : min ms longestWait ≤ longestWait := Nat.min_le_right _ _
      omega
    · rw [hNow]
      exact Scene.Pends.stamped hAccepted hr
  · exact .inr hSettles

end

theorem Call.Made.course {α : Type} {call : Call α} {l : Chronicle} {c : Scene} (hMade : call.Made l c) :
    (∃ own, c.Sound own) ∧ Slot.Lives none ((history l).on call.slot) c.world.slots[call.slot]? ∧
      call.program.EndsWait call.slot call.due call.next call.world ∧
      (c.Pends call.caller call.slot call.due call.next l ∨ l.Settles call.slot call.due) := by
  obtain ⟨hBefore, hTurn, hCall, hSlot, hFunc, hAfter⟩ := hMade
  obtain ⟨⟨own₁, hSound₁⟩, -⟩ := hBefore.reaches.sound Scene.sound_init
  obtain ⟨⟨own₂, hSound₂⟩, -⟩ := hTurn.move.sound hSound₁
  obtain ⟨hCalled, hBegun⟩ := hTurn.pends_or_settles hSound₁ hBefore.reaches.lives hCall hFunc
  rw [← hSlot] at hCalled hBegun
  have hBegin := hBefore.trans hTurn.runs
  have hAll := hBegin.trans hAfter
  refine ⟨(hAll.reaches.sound Scene.sound_init).1, hAll.reaches.lives _, hCalled, ?_⟩
  exact hAfter.pends_or_settles hSound₂ (hBegin.reaches.lives _) hBegun

theorem Scene.runs_expired {α : Type} {slot due : Nat} {next : Option Result → Async α} {w : World}
    (hTasks : w.tasks = []) (hVacant : w.slots[slot]? = some .vacant) (hBudget : w.budget ≠ 0)
    (hNow : w.now < due) : ∃ c w', Scene.Runs ⟨some ⟨α, .awaiting slot (some due) next⟩, w⟩
      ((due, slot, .looked (some none)) :: ((next none).marks w').stamped due) c := by
  let later : World := { w with now := due }
  have hNobody : ¬ CanGoOn ⟨some ⟨α, .awaiting slot (some due) next⟩, w⟩ := by
    rintro (⟨m, ⟨⟩, hResume⟩ | ⟨t, ht, -⟩)
    · have hDue : due ≤ w.now := by
        simpa [World.canResume, hVacant, Waiting.isDue, Waiting.due?] using hResume
      omega
    · simp [hTasks] at ht
  have hPaced : Paced ⟨some ⟨α, .awaiting slot (some due) next⟩, w⟩
      ⟨some ⟨α, .awaiting slot (some due) next⟩, later⟩ := by
    refine .inr ⟨Nat.le_of_lt hNow, hNobody, ?_, by simp [hTasks]⟩
    rintro m ⟨⟩ d ⟨⟩
    exact Nat.le_refl _
  have hClock : Move ⟨some ⟨α, .awaiting slot (some due) next⟩, w⟩ []
      ⟨some ⟨α, .awaiting slot (some due) next⟩, later⟩ := .pass rfl rfl rfl rfl
  have hTurn := Move.turnMain (.awaiting slot (some due) next) later
  have hResume : (Waiting.awaiting slot (some due) next).resume later.now = .await slot (some 0) next := by
    simp [Waiting.resume, later]
  have hCollect : later.collectSlot? slot (some 0) = some (none, later.expire slot) := by
    simp only [World.collectSlot?, later, hVacant, if_true]
  have hMarks : (Program.await slot (some 0) next).marks later =
      (slot, .looked (some none)) :: (next none).marks (later.expire slot).spend := by
    have hBudget : later.budget ≠ 0 := hBudget
    simp only [Program.marks, hBudget, hCollect, if_false]
  rw [hResume, hMarks] at hTurn
  exact ⟨_, _, (Runs.single hClock hPaced).trans (.single hTurn (.inl (World.now_turn _ _)))⟩

/-- A call, made first of all, of a callee that never signals. -/
def Call.unanswered (ms : Nat) : Call Result where
  caller := none
  program := ((untilSignal (fun _ => .pure (.pure (.ok ()))) (some ms)).under []).bind .pure
  world := {}
  slot := 0
  timeout := some ms
  spans := []
  rest := .pure

/-- The world after the turn of that call: the work of the callee is a task that has not begun. -/
def World.unanswered : World where
  slots := [.vacant]
  holds := [(.callback, 0), (.call, 0)]
  nextTask := 1
  tasks := [(0, .ready (workTask 0 (.pure (.ok ()))).body)]
  queue := [0]

theorem Call.turn_unanswered {ms : Nat} (hms : ms ≠ 0) :
    (Call.unanswered ms).program.turn {} =
        (.waits (.awaiting 0 (some (min ms longestWait)) (Call.unanswered ms).next), .unanswered) ∧
      (Call.unanswered ms).program.marks {} = [(0, .opened), (0, .looked none)] := by
  let func (_ : Nat) : Async (Async Result) := .pure (.pure (.ok ()))
  have hFunc : ((func ({} : World).slots.length).under []).turn (({} : World).perform .openSlot).2 =
      (.finished (.pure (.ok ())), (({} : World).perform .openSlot).2) := rfl
  have hComes : (Call.unanswered ms).program.Comes {} [(0, .opened)]
      (.await 0 (some ms) (Call.unanswered ms).next) .unanswered := comes_await hFunc
  have hCollect : World.unanswered.collectSlot? 0 (some ms) = none := if_neg (by simpa using hms)
  have hZero : World.unanswered.dueAfter ms = min ms longestWait := Nat.zero_add _
  constructor
  · rw [hComes.turn_eq]
    simp only [Program.turn, hCollect, Option.map_some, hZero]
    rfl
  · rw [hComes.marks_eq]
    simp only [Program.marks, hCollect]
    rfl

theorem Call.made_unanswered {ms : Nat} (hms : ms ≠ 0) : ∃ c, (Call.unanswered ms).Made
    [(0, 0, .opened), (0, 0, .looked none), (min ms longestWait, 0, .looked (some none))] c := by
  let call := Call.unanswered ms
  have hProper : call.program.Proper :=
    (proper_untilSignal fun _ => .pure (.pure trivial)).seq fun _ => .pure trivial
  have hBefore := Scene.Runs.single (.start hProper {}) (.inl rfl)
  let func (_ : Nat) : Async (Async Result) := .pure (.pure (.ok ()))
  have hFunc : ((func ({} : World).slots.length).under []).turn (({} : World).perform .openSlot).2 =
      (.finished (.pure (.ok ())), (({} : World).perform .openSlot).2) := rfl
  obtain ⟨hWaits, hMarks⟩ := Call.turn_unanswered hms
  have hTurn := Scene.Turns.main (.ready call.program) {}
  simp only [Waiting.resume, call, hWaits] at hTurn
  let idle : World := { World.unanswered with holds := [(.call, 0)], tasks := [] }
  have hWork : Scene.Move ⟨some ⟨Result, .awaiting 0 (some (min ms longestWait)) call.next⟩, .unanswered⟩ []
      ⟨some ⟨Result, .awaiting 0 (some (min ms longestWait)) call.next⟩, idle⟩ :=
    @Scene.Move.turnTask _ .unanswered 0 _ List.mem_cons_self
  have hDue : idle.now < min ms longestWait := by
    change 0 < _
    unfold longestWait
    omega
  have hVacant : idle.slots[0]? = some .vacant := rfl
  obtain ⟨c, w, hExpires⟩ := Scene.runs_expired rfl hVacant (Nat.succ_ne_zero 127) hDue
  have hMade := @Call.Made.intro _ call _ _ _ _ _ func _ _ _ _ hBefore hTurn (.here _ _) rfl hFunc
    ((Scene.Runs.single hWork (.inl rfl)).trans hExpires)
  rw [show call.world = {} from rfl, hMarks] at hMade
  exact ⟨c, hMade⟩

/-- A call looks for good, or is dropped, before the clock passes its time. It returns success through the
timer exactly at that time, and then no signal was or will be accepted; a result that was accepted it returns
at the time at which it was accepted. -/
theorem until_keeps_time {α : Type} {call : Call α} {l : Chronicle} {c : Scene} (hMade : call.Made l c) :
    KeepsTime call l c := by
  obtain ⟨⟨own, hSound⟩, hLives, hCalled, hCourse⟩ := hMade.course
  have hOver (hPends : c.Pends call.caller call.slot call.due call.next l) : ¬ l.IsOver call.slot :=
    hPends.not_isOver hSound hLives
  have hExpired : ∀ u, (u, call.slot, .looked (some none)) ∈ l →
      call.due = some u ∧ ∀ u' r, (u', call.slot, .signalled r true) ∉ l := by
    intro u hu
    obtain hPends | hSettles := hCourse
    · exact absurd ⟨u, _, hu, .looked none⟩ (hOver hPends)
    · exact hSettles.expired u hu
  constructor
  case called => exact hCalled
  case pending =>
    intro hNotOver
    obtain hPends | hSettles := hCourse
    · exact ⟨fun d hd => (hPends.inTime d hd).1, hPends.waits⟩
    · exact absurd hSettles.ended hNotOver
  case returns =>
    intro h c' y hMove hLook
    obtain hPends | hSettles := hCourse
    · obtain ⟨x, hHas, hWaits⟩ := hPends.waits
      exact hMove.finds hSound hLives hHas hWaits.expects hLook
    · obtain ⟨u, e, he, hEnd⟩ := hSettles.ended
      have hLives' := hLives.append ((hMove.sound hSound).2 call.slot)
      obtain ⟨r, hr⟩ := hLives'.refused_of_isEnd (mem_on_history_iff.mpr ⟨u, he⟩) hEnd
        (History.mem_on_iff.mpr hLook)
      cases hr
  case expired => exact hExpired
  case returned =>
    intro u r hu
    obtain hPends | hSettles := hCourse
    · exact absurd ⟨u, _, hu, .looked (some r)⟩ (hOver hPends)
    · exact hSettles.returned u r hu
  case accepted =>
    intro u r hu
    obtain hPends | hSettles := hCourse
    · exact .inr (.inr ⟨hOver hPends, hPends.accepted u r hu⟩)
    · exact (hSettles.accepted u r hu).imp id .inl
  case untimed =>
    intro hNone u hu
    have hDue := (hExpired u hu).1
    rw [Call.due, hNone] at hDue
    cases hDue
  case punctual =>
    intro ms hms hSome
    rw [Call.due, hSome, deadline, Option.map_some, Nat.min_eq_left hms]
  case unwrapped =>
    intro ms hSome hLt
    rw [Call.due, hSome, deadline, Option.map_some]
    have hMin : min ms longestWait ≤ longestWait := Nat.min_le_right _ _
    rw [UInt64.toNat_add, UInt64.toNat_ofNat', UInt64.toNat_ofNat']
    congr 1
    omega

theorem until_keeps_time_of_unanswered :
    let marks : Chronicle := [(0, 0, .opened), (0, 0, .looked none), (5, 0, .looked (some none))]
    ∃ c, (Call.unanswered 5).Made marks c ∧ (Call.unanswered 5).due = some 5 ∧
      ∀ u r, (u, 0, .signalled r true) ∉ marks := by
  intro marks
  obtain ⟨c, hMade⟩ := @Call.made_unanswered 5 (by decide)
  have hExpired := (until_keeps_time hMade).expired 5 (by decide)
  exact ⟨c, hMade, hExpired⟩

/-- A call with a longer timeout than any wait lasts returns before its time. -/
theorem exists_timeout_before_its_time :
    ¬ ∀ (call : Call Result) (l : Chronicle) (c : Scene) (ms u : Nat), call.Made l c →
      call.timeout = some ms → ms < 2 ^ 64 → (u, call.slot, .looked (some none)) ∈ l →
      u = call.world.now + ms := by
  intro h
  obtain ⟨c, hMade⟩ := @Call.made_unanswered 1000000000000 (by decide)
  have hTime := h _ _ c 1000000000000 (min 1000000000000 longestWait) hMade rfl (by decide)
    (by simp [Call.unanswered])
  have hEarly : min 1000000000000 longestWait = 946080000000 := by decide
  rw [hEarly] at hTime
  cases hTime

end TestBench
