import TestBench.Proofs.Signal.Turn
import TestBench.Proofs.Async.Spans

/-! # Points of a turn

`Program.Comes` says that a program comes to a point of its turn: what it marked up to there, what it has
yet to run, and in which world. A call of `Async.untilSignal` whose callee returns its future comes to its
wait in the same turn (`Async.comes_await`).
-/

namespace TestBench

/-! ## The clock stands still in a turn -/

namespace World

variable {α : Type}

@[simp] theorem now_perform (w : World) (a : Action) : (w.perform a).2.now = w.now := by
  obtain ⟨_, _, _, _, _, _, _, hEq⟩ := w.perform_eq a
  rw [hEq]

@[simp] theorem now_start (w : World) (t : Task) : (w.start t).now = w.now := now_enqueueAll _ [_]

theorem now_of_collectSlot? {w w' : World} {slot : Nat} {timeout : Option Nat} {r : Option Result}
    (h : w.collectSlot? slot timeout = some (r, w')) : w'.now = w.now := by
  unfold collectSlot? at h
  split at h
  · cases h; rfl
  · split at h
    · cases h; rfl
    · cases h
  · cases h; rfl

@[simp] theorem now_turn (p : Async α) (w : World) : (p.turn w).2.now = w.now := by
  induction p generalizing w with
  | pure | panic | yield => rfl
  | fork task next ih => exact (ih _).trans (w.now_start task)
  | act a next ih => exact (ih _ _).trans (w.now_perform a)
  | report r next ih => exact ih _
  | notice n next ih => exact ih _
  | sleep ms next ih =>
    unfold Program.turn
    split
    · rfl
    · split
      · exact ih w.spend
      · rfl
  | await slot timeout next ih =>
    unfold Program.turn
    split
    · rfl
    · split
      · rename_i x w₁ hCollect
        have hNow : w₁.now = w.now := now_of_collectSlot? hCollect
        exact (ih x w₁.spend).trans hNow
      · rfl

@[simp] theorem now_settleTask (w : World) (task : Nat) (t : Turn Unit) : (w.settleTask task t).now = w.now := by
  have hFollow (w : World) : (w.followUp task).now = w.now := by
    unfold followUp
    split
    · exact now_enqueueAll w [task]
    · rfl
  cases t with
  | finished | panicked => rfl
  | waits x => exact hFollow _
  | yields x => exact hFollow _

@[simp] theorem now_drop (w : World) (x : Waiting α) : (w.drop x).now = w.now := by
  cases x with
  | awaiting slot => exact w.now_perform (.abandon slot)
  | postponed slot => exact w.now_perform (.abandon slot)
  | _ => rfl

end World

namespace Program

variable {α β : Type} {own : Set Nat} {post : α → Prop} {p q : Async α} {w w₁ w' : World} {h h' : History}

inductive Comes {α : Type} : Async α → World → History → Async α → World → Prop
  | here (p : Async α) (w : World) : Comes p w [] p w
  | fork {task : Task} {next q : Async α} {w w' : World} {h : History}
      (hNext : Comes next (w.start task) h q w') : Comes (.fork task next) w h q w'
  | act {a : Action} {next : a.Answer → Async α} {q : Async α} {w w' : World} {h : History}
      (hNext : Comes (next (w.perform a).1) (w.perform a).2 h q w') :
      Comes (.act a next) w (w.marks a ++ h) q w'
  | report {r : Report} {next q : Async α} {w w' : World} {h : History}
      (hNext : Comes next { w with reports := w.reports ++ [r] } h q w') : Comes (.report r next) w h q w'
  | notice {e : Event} {next q : Async α} {w w' : World} {h : History}
      (hNext : Comes next { w with events := w.events ++ [e] } h q w') : Comes (.notice e next) w h q w'
  | sleep {next q : Async α} {w w' : World} {h : History} (hBudget : w.budget ≠ 0)
      (hNext : Comes next w.spend h q w') : Comes (.sleep 0 next) w h q w'
  | await {slot : Nat} {timeout : Option Nat} {next : Option Result → Async α} {x : Option Result}
      {q : Async α} {w w₁ w' : World} {h : History} (hBudget : w.budget ≠ 0)
      (hCollect : w.collectSlot? slot timeout = some (x, w₁)) (hNext : Comes (next x) w₁.spend h q w') :
      Comes (.await slot timeout next) w ((slot, .looked (some x)) :: h) q w'

namespace Comes

theorem turn_eq (hComes : p.Comes w h q w') : p.turn w = q.turn w' := by
  induction hComes with
  | here => rfl
  | fork _ ih => exact ih
  | act _ ih => exact ih
  | report _ ih => exact ih
  | notice _ ih => exact ih
  | sleep hBudget _ ih => simpa only [turn, hBudget, if_true, if_false] using ih
  | await hBudget hCollect _ ih => simpa only [turn, hBudget, hCollect, if_false] using ih

theorem marks_eq (hComes : p.Comes w h q w') : p.marks w = h ++ q.marks w' := by
  induction hComes with
  | here => rfl
  | fork _ ih => exact ih
  | act _ ih => rw [List.append_assoc, ← ih]; rfl
  | report _ ih => exact ih
  | notice _ ih => exact ih
  | sleep hBudget _ ih => simpa only [marks, hBudget, if_true, if_false] using ih
  | await hBudget hCollect _ ih => simp only [marks, hBudget, hCollect, if_false, ih, List.cons_append]

theorem now_eq (hComes : p.Comes w h q w') : w'.now = w.now := by
  have hTurn := congrArg (·.2.now) hComes.turn_eq
  simpa only [World.now_turn] using hTurn.symm

theorem trans {q' : Async α} (first : p.Comes w h q w₁) (second : q.Comes w₁ h' q' w') :
    p.Comes w (h ++ h') q' w' := by
  induction first with
  | here => exact second
  | fork _ ih => exact .fork (ih second)
  | act _ ih => exact List.append_assoc .. ▸ .act (ih second)
  | report _ ih => exact .report (ih second)
  | notice _ ih => exact .notice (ih second)
  | sleep hBudget _ ih => exact .sleep hBudget (ih second)
  | await hBudget hCollect _ ih => exact .await hBudget hCollect (ih second)

/-- Up to the point the program passes from its slots to others, and it keeps to those from there on. -/
theorem passes (hComes : p.Comes w h q w') (hKeeps : p.KeepsTo own post) (hHolds : w.Holds own) :
    ∃ own', w.Passes own h w' own' ∧ q.KeepsTo own' post := by
  have hAfter {own₁ : Set Nat} {q : Async α} {w₁ w' : World} {l h : History}
      (hRest : ∃ own', w₁.Passes own₁ h w' own' ∧ q.KeepsTo own' post) {w : World} {own : Set Nat}
      (hFirst : w.Passes own l w₁ own₁) : ∃ own', w.Passes own (l ++ h) w' own' ∧ q.KeepsTo own' post := by
    obtain ⟨own', hPasses, hKeeps⟩ := hRest
    exact ⟨own', hFirst.trans hPasses, hKeeps⟩
  induction hComes generalizing own with
  | here => exact ⟨own, .idle rfl rfl rfl rfl, hKeeps⟩
  | @fork task next q w w' h _ ih =>
    cases hKeeps with
    | fork hTask hNext =>
      have hFirst : w.Passes own [] (w.start task) own := World.passes_start hTask
      exact hAfter (ih hNext (hFirst.holds_own hHolds)) hFirst
  | @act a next q w w' h _ ih =>
    cases hKeeps with
    | openSlot hNext =>
      have hFresh : w.slots.length ∉ own := fun hMem =>
        Nat.lt_irrefl _ (World.lt_length_of_isOpen (hHolds _ hMem).1)
      have hFirst := w.passes_openSlot own
      exact hAfter (ih (hNext _ hFresh) (hFirst.holds_own hHolds)) hFirst
    | abandon hSlot hNext =>
      have hFirst := World.passes_abandon hSlot hHolds
      exact hAfter (ih (hNext ()) (hFirst.holds_own hHolds)) hFirst
    | act hFree hNext =>
      have hFirst := w.passes_perform own hFree
      exact hAfter (ih (hNext _) (hFirst.holds_own hHolds)) hFirst
  | @report r next q w w' h _ ih =>
    cases hKeeps with
    | report hNext =>
      have hFirst : w.Passes own [] { w with reports := w.reports ++ [r] } own := .idle rfl rfl rfl rfl
      exact hAfter (ih hNext hHolds) hFirst
  | @notice e next q w w' h _ ih =>
    cases hKeeps with
    | notice hNext =>
      have hFirst : w.Passes own [] { w with events := w.events ++ [e] } own := .idle rfl rfl rfl rfl
      exact hAfter (ih hNext hHolds) hFirst
  | @sleep next q w w' h _ _ ih =>
    cases hKeeps with
    | sleep hNext =>
      have hFirst : w.Passes own [] w.spend own := .idle rfl rfl rfl rfl
      exact hAfter (ih hNext hHolds) hFirst
  | @await slot timeout next x q w w₁ w' h _ hCollect _ ih =>
    cases hKeeps with
    | await hSlot hNext =>
      have hFirst := World.passes_collectSlot? hSlot hHolds hCollect
      have hSpent := hFirst.trans (.idle rfl rfl rfl rfl : w₁.Passes _ [] w₁.spend _)
      exact hAfter (ih (hNext x) (hSpent.holds_own hHolds)) hSpent

theorem mem_forked {task : Task} {next : Async α} (hComes : p.Comes w h (.fork task next) w')
    (hKeeps : p.KeepsTo own post) (hHolds : w.Holds own) :
    (w'.nextTask, .ready task.body) ∈ (p.turn w).2.tasks := by
  obtain ⟨own', hPasses, hFork⟩ := hComes.passes hKeeps hHolds
  rw [hComes.turn_eq]
  change _ ∈ (next.turn (w'.start task)).2.tasks
  cases hFork with
  | fork hTask hNext =>
    have hStart : w'.Passes own' [] (w'.start task) own' := World.passes_start hTask
    obtain ⟨own'', hRest, -⟩ := hNext.turnPasses (hStart.holds_own (hPasses.holds_own hHolds))
    obtain ⟨new, hTasks, -⟩ := hRest.tasks
    obtain ⟨q, hq⟩ := w'.start_eq task
    rw [hTasks, hq]
    simp

theorem of_attempt {e : Except Payload α} (hTurn : p.attempt.turn w = (.finished e, w'))
    (f : Except Payload α → Async β) : (p.attempt.bind f).Comes w (p.marks w) (f e) w' := by
  induction p generalizing w with
  | pure _ =>
    obtain ⟨⟨rfl⟩, rfl⟩ := Prod.mk.inj hTurn
    exact .here _ _
  | panic _ =>
    obtain ⟨⟨rfl⟩, rfl⟩ := Prod.mk.inj hTurn
    exact .here _ _
  | yield next _ => cases hTurn
  | fork task next ih => exact .fork (ih hTurn)
  | act a next ih => exact .act (ih _ hTurn)
  | report r next ih => exact .report (ih hTurn)
  | notice e next ih => exact .notice (ih hTurn)
  | sleep ms next ih =>
    simp only [attempt, turn] at hTurn
    split at hTurn
    · cases hTurn
    · split at hTurn
      · rename_i hBudget hms
        subst hms
        simp only [marks, hBudget, if_true, if_false]
        exact .sleep hBudget (ih hTurn)
      · cases hTurn
  | await slot timeout next ih =>
    simp only [attempt, turn] at hTurn
    split at hTurn
    · cases hTurn
    · rename_i hBudget
      cases hCollect : w.collectSlot? slot timeout with
      | none => rw [hCollect] at hTurn; cases hTurn
      | some found =>
        rw [hCollect] at hTurn
        simp only [marks, hBudget, hCollect, if_false]
        exact .await hBudget hCollect (ih _ hTurn)

theorem of_finished {a : α} (hTurn : p.turn w = (.finished a, w')) (f : Except Payload α → Async β) :
    (p.attempt.bind f).Comes w (p.marks w) (f (.ok a)) w' := by
  refine of_attempt ?_ f
  rw [← Program.bind_pure p.attempt, World.turn_andThen, hTurn]
  rfl

end Comes

theorem attempt_attempt (p : Async α) : p.attempt.attempt = p.attempt.bind fun x => .pure (.ok x) := by
  induction p <;> simp_all [attempt, bind]

theorem silenced_eq (p : Async α) : p.silenced = p.attempt.muted.bind fun _ => .pure () := by
  induction p <;> simp_all [attempt, bind, muted, silenced]

end Program

namespace Async

variable {α : Type}

/-- What follows the wait of a call: the call returns, and the program goes on. -/
def afterWait (timeout : Option Nat) (spans : List Span) (rest : Result → Async α) : Option Result → Async α
  | some result => rest result
  | none => .notice ⟨spans, .timedOut timeout⟩ (rest (.ok ()))

theorem under_answered_bind (timeout : Option Nat) (spans : List Span) (rest : Result → Async α) :
    (fun x => ((answered timeout x).under spans).bind rest) = afterWait timeout spans rest := by
  funext x
  cases x with
  | some result => rw [answered, Program.under_pure]; rfl
  | none => rw [answered, Program.under_notice, Program.under_pure, List.append_nil]; rfl

def workTask (slot : Nat) (work : Async Result) : Task :=
  .mk ((runWork slot work).silenced.bind fun _ => perform (.release .callback slot)).silenced

theorem comes_fork {func : Nat → Async (Async Result)} {timeout : Option Nat} {spans : List Span}
    {rest : Result → Async α} {work : Async Result} {w w₁ : World}
    (hFunc : ((func w.slots.length).under spans).turn (w.perform .openSlot).2 = (.finished work, w₁)) :
    (((untilSignal func timeout).under spans).bind rest).Comes w
      ((w.slots.length, .opened) :: ((func w.slots.length).under spans).marks (w.perform .openSlot).2)
      (.fork (workTask w.slots.length work) (.await w.slots.length timeout (afterWait timeout spans rest)))
      (w₁.perform (.hold w.slots.length)).2 := by
  have hEq : ((untilSignal func timeout).under spans).bind rest = .act .openSlot fun slot =>
      ((func slot).under spans).attempt.bind fun x => ((calledBack slot timeout x).under spans).bind rest := by
    rw [untilSignal_eq, Program.under_act]
    refine congrArg (Program.act .openSlot) (funext fun slot => ?_)
    change (((func slot).attempt.bind (calledBack slot timeout)).under spans).bind rest = _
    rw [Program.under_bind, ← Program.attempt_under]
    exact Program.bind_assoc _ _ _
  have hWait (slot : Nat) : ((calledBack slot timeout (.ok work)).under spans).bind rest =
      .act (.hold slot) fun _ => .fork (workTask slot work)
        (.await slot timeout (afterWait timeout spans rest)) := by
    change ((Program.act (.hold slot) fun _ => .fork (workTask slot work)
      (.await slot timeout (answered timeout))).under spans).bind rest = _
    simp only [Program.under_act, Program.under_fork, Program.under_await, ← under_answered_bind]
    rfl
  rw [hEq]
  refine .act ?_
  have hCalled := Program.Comes.of_finished hFunc fun x =>
    ((calledBack w.slots.length timeout x).under spans).bind rest
  rw [hWait] at hCalled
  have hRest := hCalled.trans (.act (.here _ _))
  have hNone : w₁.marks (.hold w.slots.length) = [] := rfl
  rw [hNone, List.append_nil, List.append_nil] at hRest
  exact hRest

theorem comes_await {func : Nat → Async (Async Result)} {timeout : Option Nat} {spans : List Span}
    {rest : Result → Async α} {work : Async Result} {w w₁ : World}
    (hFunc : ((func w.slots.length).under spans).turn (w.perform .openSlot).2 = (.finished work, w₁)) :
    (((untilSignal func timeout).under spans).bind rest).Comes w
      ((w.slots.length, .opened) :: ((func w.slots.length).under spans).marks (w.perform .openSlot).2)
      (.await w.slots.length timeout (afterWait timeout spans rest))
      ((w₁.perform (.hold w.slots.length)).2.start (workTask w.slots.length work)) := by
  have hFork : (((untilSignal func timeout).under spans).bind rest).Comes w _ _ _ := comes_fork hFunc
  have hAwait := hFork.trans (.fork (.here _ _))
  rwa [List.append_nil] at hAwait

/-! ## Calls in the midst of other programs

A call may be made anywhere: in a plain sequence, in a hook whose panics are caught, in a run under its span, in a
task that nobody waits for. Wherever that is, the program is a call and what follows it (`Program.IsCall`). -/

section

variable {func : Nat → Async (Async Result)} {timeout : Option Nat}

theorem attempt_calledBack (slot : Nat) (timeout : Option Nat) (x : Except Payload (Async Result)) :
    (calledBack slot timeout x).attempt = (calledBack slot timeout x).bind fun r => .pure (.ok r) := by
  cases x with
  | error q => rfl
  | ok work =>
    refine congrArg (Program.act (.hold slot)) (funext fun _ => ?_)
    refine congrArg (Program.fork (workTask slot work)) ?_
    refine congrArg (Program.await slot timeout) (funext fun r => ?_)
    cases r <;> rfl

theorem attempt_untilSignal :
    (untilSignal func timeout).attempt = (untilSignal func timeout).bind fun r => .pure (.ok r) := by
  rw [untilSignal_eq]
  refine congrArg (Program.act .openSlot) (funext fun slot => ?_)
  change ((func slot).attempt.bind (calledBack slot timeout)).attempt =
    ((func slot).attempt.bind (calledBack slot timeout)).bind _
  rw [Program.attempt_bind, Program.attempt_attempt, Program.bind_assoc, Program.bind_assoc]
  exact congrArg _ (funext fun x => attempt_calledBack slot timeout x)

theorem muted_untilSignal :
    (untilSignal func timeout).muted = untilSignal (fun slot => (func slot).muted) timeout := by
  rw [untilSignal_eq, untilSignal_eq]
  refine congrArg (Program.act .openSlot) (funext fun slot => ?_)
  change ((func slot).attempt.bind (calledBack slot timeout)).muted = (func slot).muted.attempt.bind _
  rw [Program.muted_bind, Program.attempt_muted]
  refine congrArg _ (funext fun x => ?_)
  cases x with
  | error q => rfl
  | ok work =>
    refine congrArg (Program.act (.hold slot)) (funext fun _ => ?_)
    refine congrArg (Program.fork (workTask slot work)) ?_
    refine congrArg (Program.await slot timeout) (funext fun r => ?_)
    cases r <;> rfl

end

end Async

namespace Program

open Async

variable {α β : Type} {func : Nat → Async (Async Result)} {timeout : Option Nat} {spans : List Span} {p : Async α}

/-- The program makes a call under some spans, and goes on after it. -/
def IsCall (func : Nat → Async (Async Result)) (timeout : Option Nat) (spans : List Span) (p : Async α) : Prop :=
  ∃ rest : Result → Async α, p = ((untilSignal func timeout).under spans).bind rest

theorem isCall_untilSignal : (untilSignal func timeout).IsCall func timeout [] := ⟨.pure, (bind_pure _).symm⟩

namespace IsCall

theorem bind (h : p.IsCall func timeout spans) (f : α → Async β) : (p.bind f).IsCall func timeout spans := by
  obtain ⟨rest, rfl⟩ := h
  exact ⟨_, bind_assoc _ _ _⟩

theorem attempt (h : p.IsCall func timeout spans) : p.attempt.IsCall func timeout spans := by
  obtain ⟨rest, rfl⟩ := h
  rw [attempt_bind, attempt_under, attempt_untilSignal, under_bind, bind_assoc]
  exact ⟨_, rfl⟩

theorem muted (h : p.IsCall func timeout spans) :
    p.muted.IsCall (fun slot => (func slot).muted) timeout spans := by
  obtain ⟨rest, rfl⟩ := h
  rw [muted_bind, muted_under, muted_untilSignal]
  exact ⟨_, rfl⟩

theorem within (h : p.IsCall func timeout spans) (s : Span) : (p.within s).IsCall func timeout (s :: spans) := by
  obtain ⟨rest, rfl⟩ := h
  rw [within_bind, within_under]
  exact ⟨_, rfl⟩

theorem silenced (h : p.IsCall func timeout spans) :
    p.silenced.IsCall (fun slot => (func slot).muted) timeout spans := by
  rw [silenced_eq]
  exact h.attempt.muted.bind _

end IsCall

end Program

end TestBench
