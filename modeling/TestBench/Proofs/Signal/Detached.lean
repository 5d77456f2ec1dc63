import TestBench.Proofs.Signal.Fairness

/-! # Work goes on by itself

The work of a callee is a task of its own. Whatever becomes of the call (a signal comes, its time runs out, it
returns, it is given up with its caller) the work takes its turns in order until it ends, and so do the tasks
that it starts; what it ends in counts only while the slot of the call is vacant. Main statement:
`until_work_lasts`.
-/

namespace TestBench

namespace Async

def afterWork (slot : Nat) : Except Payload Result → Async Unit
  | .ok (.ok ()) => .act (.release .callback slot) fun _ => .pure ()
  | .ok (.error f) => .act (.settle slot (.error f)) fun _ => .act (.release .callback slot) fun _ => .pure ()
  | .error q => .act (.settle slot (.error (.ofPayload q))) fun _ => .act (.release .callback slot) fun _ => .pure ()

theorem silenced_attempt_bind {α : Type} (p : Async α) (f : Except Payload α → Async Unit) (last : Async Unit) :
    ((p.attempt.bind f).silenced.bind fun _ => last).silenced =
      p.muted.attempt.bind fun e => ((f e).silenced.bind fun _ => last).silenced := by
  induction p <;> simp_all [Program.attempt, Program.bind, Program.muted, Program.silenced]

theorem body_workTask (slot : Nat) (work : Async Result) :
    (workTask slot work).body = work.muted.attempt.bind (afterWork slot) := by
  refine (silenced_attempt_bind work _ (perform (.release .callback slot))).trans (congrArg _ (funext fun e => ?_))
  obtain q | (f | ⟨⟩) := e <;> rfl

theorem ready_workTask (slot : Nat) (work : Async Result) :
    Waiting.ready (workTask slot work).body = (Waiting.ready work.muted).andThen (afterWork slot) :=
  congrArg Waiting.ready (body_workTask slot work)

theorem turn_afterWork {slot : Nat} {e : Except Payload Result} {w : World} (hBacked : w.Backed slot)
    (h : e = .ok (.ok ()) ∨ w.slots[slot]? ≠ some .vacant) :
    (afterWork slot e).turn w = (.finished (), { w with holds := w.holds.erase (.callback, slot) }) := by
  rw [← World.letGo_callback hBacked]
  have hRefused (hSettled : w.slots[slot]? ≠ some .vacant) (r : Result) :
      (w.perform (.settle slot r)).2 = w := congrArg (·.2) (World.settle_of_ne_vacant hSettled)
  obtain q | (f | ⟨⟩) := e
  · have hSettled := h.resolve_left (by simp)
    simp only [afterWork, Program.turn, hRefused hSettled]
    rfl
  · have hSettled := h.resolve_left (by simp)
    simp only [afterWork, Program.turn, hRefused hSettled]
    rfl
  · rfl

theorem rest_afterWork (slot : Nat) (e : Except Payload Result) (w : World) :
    ((afterWork slot e).turn w).1.rest = none := by
  obtain q | (f | ⟨⟩) := e <;> rfl

end Async

theorem Waiting.after_andThen {α β : Type} {f : Except Payload α → Async β}
    (hEnds : ∀ e w, ((f e).turn w).1.rest = none) (x : Waiting α) (ws : List World) :
    (x.andThen f).after ws = (x.after ws).map (·.andThen f) := by
  induction ws generalizing x with
  | nil => rfl
  | cons w ws ih =>
    have hRest : (((x.andThen f).resume w.now).turn w).1.rest =
        (((x.resume w.now).turn w).1.rest).map (·.andThen f) := by
      rw [World.resume_andThen, World.turn_andThen]
      obtain ⟨t, w'⟩ := (x.resume w.now).turn w
      cases t with
      | finished a => exact hEnds (.ok a) w'
      | panicked q => exact hEnds (.error q) w'
      | waits y => rfl
      | yields y => rfl
    simp only [after, List.foldlM_cons, hRest]
    cases ((x.resume w.now).turn w).1.rest with
    | none => rfl
    | some y => exact ih y

namespace Scene

open Async

/-- What a later scene has of the work of a callee. The work goes on in its task from where its own turns, in
order, have brought it, and the same holds of all tasks that were started meanwhile. Each turn of the task is the
next turn of the work, and if the work ends in it with success, or after the call was settled, then all that the
step changes besides is that the task lets go of its callback. -/
structure WorkLasts (slot task : Nat) (work : Async Result) (l : List Moment) (c : Scene) : Prop where
  lasts : Lasts task (.ready (workTask slot work).body) l c
  goesOn : c.world.tasks.lookup task =
    ((Waiting.ready work.muted).after (l.filterMap (·.turnOf? task))).map (·.andThen (afterWork slot))
  spawned : ∀ (α : Type) (k : Option Nat) (p next : Async α) (w w' : World) (h : History) (t : Task)
    (l₁ l₂ : List Moment), l = l₁ ++ .turn k p w :: l₂ → p.Comes w h (.fork t next) w' →
    .dropped (some w'.nextTask) ∉ l₂ → Lasts w'.nextTask (.ready t.body) l₂ c
  ends : ∀ p w c', c.Proceeds (.turn (some task) p w) c' → ∃ y : Waiting Result,
    (Waiting.ready work.muted).after (l.filterMap (·.turnOf? task)) = some y ∧
      p = (y.resume w.now).attempt.bind (afterWork slot) ∧
      ∀ e w', (y.resume w.now).attempt.turn w = (.finished e, w') →
        e = .ok (.ok ()) ∨ w'.slots[slot]? ≠ some .vacant →
        c' = ⟨c.main, { w' with holds := w'.holds.erase (.callback, slot), reports := c.world.reports }⟩

theorem Continues.of_append {c c' : Scene} {l l' : List Moment} (hRuns : c.Continues (l ++ l') c') :
    ∃ c₁, c.Continues l c₁ ∧ c₁.Continues l' c' := by
  induction l generalizing c with
  | nil => exact ⟨c, .refl c, hRuns⟩
  | cons m l ih =>
    cases hRuns with
    | step hStep hRest =>
      obtain ⟨c₁, hFirst, hSecond⟩ := ih hRest
      exact ⟨c₁, .step hStep hFirst, hSecond⟩

end Scene

open Async in
/-- Once a call has started the task of its work, the task is scheduled in every later scene until it finishes
or panics, whatever becomes of the call meanwhile. Nobody has a handle on the task by which to give it up. -/
theorem until_work_lasts {α : Type} {c₁ c₂ c : Scene} {l₁ l : List Moment} {k : Option Nat} {p : Async α}
    {v w w₁ : World} {h : History} {func : Nat → Async (Async Result)} {timeout : Option Nat} {spans : List Span}
    {rest : Result → Async α} {work : Async Result} (hBefore : Scene.Continues ⟨none, {}⟩ l₁ c₁)
    (hTurn : c₁.Proceeds (.turn k p v) c₂)
    (hCall : p.Comes v h (((untilSignal func timeout).under spans).bind rest) w)
    (hFunc : ((func w.slots.length).under spans).turn (w.perform .openSlot).2 = (.finished work, w₁))
    (hAfter : c₂.Continues l c) (hSpared : .dropped (some w₁.nextTask) ∉ l) :
    c.WorkLasts w.slots.length w₁.nextTask work l := by
  have hReady₁ := hBefore.ready Scene.ready_init
  have hReady₂ := hTurn.ready hReady₁
  have hFork : Program.Comes (((untilSignal func timeout).under spans).bind rest) w _ _ _ := comes_fork hFunc
  have hStarted := hTurn.lookup_forked hReady₁ (hCall.trans hFork)
  have hLasts : c.Lasts w₁.nextTask (.ready (workTask w.slots.length work).body) l :=
    hAfter.lasts hReady₂ hStarted hSpared
  have hGoesOn := hLasts.stands
  rw [ready_workTask, Waiting.after_andThen (rest_afterWork _)] at hGoesOn
  constructor
  case lasts => exact hLasts
  case goesOn => exact hGoesOn
  case spawned =>
    rintro β k' p' next' v' v'' h' t l₂ l₃ rfl hFork' hSpared'
    obtain ⟨c₃, hFirst, hSecond⟩ := hAfter.of_append
    have hReady₃ := hFirst.ready hReady₂
    cases hSecond with
    | step hStep hRest =>
      exact hRest.lasts (hStep.ready hReady₃) (hStep.lookup_forked hReady₃ hFork') hSpared'
  case ends =>
    intro p' v' c' hStep
    obtain ⟨own, hSound⟩ := (hAfter.ready hReady₂).sound
    obtain ⟨hKeeps, hHolds, hBacked, -⟩ := hStep.of_turn hSound
    obtain ⟨x, hTask, rfl, rfl⟩ := hStep.of_taskTurn
    rw [hTask, eq_comm, Option.map_eq_some_iff] at hGoesOn
    obtain ⟨y, hAfterTurns, rfl⟩ := hGoesOn
    rw [World.resume_andThen] at hKeeps ⊢
    refine ⟨y, hAfterTurns, rfl, fun e v'' hEnd hSettled => ?_⟩
    have hComes := Program.Comes.of_attempt hEnd (afterWork w.slots.length)
    obtain ⟨own', hPasses, -⟩ := hComes.passes hKeeps hHolds
    have hBacked' := hPasses.backed w.slots.length (hBacked w.slots.length)
    rw [hComes.turn_eq, turn_afterWork hBacked' hSettled]
    rfl

open Async in
/-- Work that signals success first, and does the rest ten milliseconds later. -/
def lateWork (slot : Nat) : Async Result :=
  .act (.settle slot (.ok ())) fun _ => .sleep 10 (.act (.put "finished" (.text "true")) fun _ => .pure (.ok ()))

open Async in
def awaitLateWork : Async Unit :=
  ((untilSignal (fun slot => .pure (lateWork slot)) none).under []).bind fun _ => .sleep 50 (.pure ())

/-- When the call has returned, the task of its work is still there, and at the end of the run it has done
what was left. -/
theorem until_work_lasts_of_early_done : ∃ c₂ c main l,
    Scene.Proceeds ⟨none, {}⟩ (.turn none awaitLateWork {}) c₂ ∧ c₂.Continues l c ∧
      c = ⟨main, (World.run 2 none awaitLateWork {}).2⟩ ∧ c.world.slots = [.taken (.ok ())] ∧
      (c.world.tasks.lookup 0).isSome ∧ c.WorkLasts 0 0 (lateWork 0) l ∧
      (World.run 8 none awaitLateWork {}).2.look "finished" = some (.text "true") := by
  have hProper : awaitLateWork.Proper := by
    have hWork (slot : Nat) : (lateWork slot).Proper :=
      .act trivial fun _ => .sleep (.act trivial fun _ => .pure trivial)
    exact (Async.proper_untilSignal fun slot => .pure (hWork slot)).seq fun _ => .sleep (.pure trivial)
  obtain ⟨c₂, main, l, hTurn, hAfter, hSpared⟩ := Scene.continues_run hProper 2 none [] {}
  have hLasts := until_work_lasts (.refl _) hTurn (.here _ _) rfl hAfter (hSpared (some 0))
  exact ⟨c₂, _, main, l, hTurn, hAfter, rfl, by rfl, by rfl, hLasts, by rfl⟩

end TestBench
