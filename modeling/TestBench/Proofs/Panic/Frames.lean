import TestBench.Proofs.Set.Course
import TestBench.Proofs.Signal.Discipline
import TestBench.Proofs.World.Plays

/-! # What catches a panic

A panic leaves no case and no wait for a callback, and it leaves a set only from the hooks of the set itself
(`TestSet.goes_run_error_iff`). A case makes a failure of what leaves its hooks and its body, and a wait for a
callback makes one of what leaves its callee (`Async.goes_untilSignal_iff`) and the work
(`Async.goes_runWork_iff`).
-/

namespace TestBench

open Program (Calm)

variable {l : List Reply} {q : Payload}

/-! ## Hooks and cases -/

namespace Hook

variable {h : Hook}

/-- On the replies on which the hook ends, its invocation ends too, with a failure instead of a panic. -/
theorem goes_invoke_iff {e : Except Payload Result} :
    h.invoke.Goes l e ↔ ∃ x : Ended, h.run.Goes l x ∧ e = .ok x.result := by
  rw [invoke_eq, Program.goes_attempt_bind_iff]
  constructor
  · rintro ⟨x, l₁, l₂, rfl, hRun, hRest⟩
    obtain ⟨rfl, rfl⟩ := Program.goes_pure_iff.mp hRest
    rw [List.append_nil]
    exact ⟨x, hRun, rfl⟩
  · rintro ⟨x, hRun, rfl⟩
    exact ⟨x, l, [], (List.append_nil l).symm, hRun, .pure _⟩

theorem calm_invoke (h : Hook) : Calm h.invoke := by
  intro l q hGoes
  obtain ⟨x, -, hx⟩ := goes_invoke_iff.mp hGoes
  cases hx

theorem calm_invokeOption (h? : Option Hook) : Calm (invokeOption h?) := by
  cases h? with
  | none => exact Program.calm_pure _
  | some h => exact h.calm_invoke

theorem goes_runOption_error_iff {h? : Option Hook} :
    (runOption h?).Goes l (.error q) ↔ ∃ h, h? = some h ∧ h.run.Goes l (.error q) := by
  cases h? with
  | none => exact ⟨fun hGoes => (Program.calm_pure _ l q hGoes).elim, nofun⟩
  | some h => simp [runOption]

end Hook

theorem Sink.calm_put (sink : Sink) (line : Line) : Calm (sink.put line) := by
  rcases sink with _ | color | _
  · exact (Program.calm_pure ()).report
  · exact (Program.calm_pure ()).report
  · exact (Program.calm_pure ()).notice

namespace Case

theorem calm_examine (c : Case) : Calm c.examine := by
  rw [examine_eq]
  apply (Hook.calm_invokeOption c.before).bind
  rintro (f | ⟨⟩)
  · exact (Program.calm_pure _).notice
  · exact c.body.calm_invoke.bind fun _ => Program.calm_pure _

theorem calm_tearDown (c : Case) (found : Finding) : Calm (c.tearDown found) := by
  rw [tearDown_eq]
  apply (Hook.calm_invokeOption c.after).bind
  rintro (f | ⟨⟩)
  · exact (Program.calm_pure _).notice
  · exact Program.calm_pure _

theorem calm_conclude (c : Case) (found : Finding) : Calm (c.conclude found) := by
  rw [conclude_eq]
  exact .act fun id => (Program.calm_pure _).report.notice

theorem calm_run (c : Case) : Calm c.run := by
  rw [run_eq]
  exact ((c.calm_examine.bind c.calm_tearDown).bind c.calm_conclude).within

theorem calm_runAndPrint (c : Case) (sink : Sink) : Calm (c.runAndPrint sink) :=
  c.calm_run.bind fun o => (sink.calm_put o.line).bind fun _ => Program.calm_pure o

end Case

/-! ## Sets -/

namespace TestSet

variable {print : Bool} {sink : Sink} {set : TestSet}

theorem calm_emit (print : Bool) (sink : Sink) (line : Line) : Calm (emit print sink line) := by
  cases print with
  | false => exact Program.calm_pure ()
  | true => exact sink.calm_put line

theorem calm_enter (s : Summary) (o : Outcome) : Calm (s.enter o) := by
  rw [Summary.enter_eq]
  split
  · exact Program.calm_pure _
  · exact (Program.calm_pure _).notice

theorem calm_runTests (cases : List Case) (s : Summary) : Calm (runTests print sink cases s) := by
  induction cases generalizing s with
  | nil => exact Program.calm_pure s
  | cons c rest ih =>
    rw [runTests_cons]
    apply c.calm_run.bind
    intro o
    apply (calm_enter s o).bind
    intro added
    exact (calm_emit print sink o.line).bind fun _ => ih added.2

/-- The panic of a hook of the set itself: of its set-up, or of its teardown after the set-up has succeeded
and all tests have run. -/
inductive Raises (print : Bool) (sink : Sink) (set : TestSet) : List Reply → Payload → Prop
  | setup {h : Hook} {l : List Reply} {q : Payload} (hBefore : set.before = some h)
      (hPanics : h.run.Goes l (.error q)) : Raises print sink set l q
  | teardown {h : Hook} {l₁ l₂ l₃ : List Reply} {s : Summary} {q : Payload} (hAfter : set.after = some h)
      (hSetup : (Hook.runOption set.before).Goes l₁ (.ok (.ok ())))
      (hTests : (runTests print sink set.tests {}).Goes l₂ (.ok s)) (hPanics : h.run.Goes l₃ (.error q)) :
      Raises print sink set (l₁ ++ (l₂ ++ l₃)) q

theorem goes_finish_error_iff {s : Summary} :
    (set.finish print sink s).Goes l (.error q) ↔ (Hook.runOption set.after).Goes l (.error q) := by
  have hEmit {rest : Async (Except Abort Summary)} :
      ((emit print sink s.line).bind fun _ => rest).Goes l (.error q) ↔ rest.Goes l (.error q) := by
    cases print with
    | false => rfl
    | true =>
      rcases sink with _ | color | _
      · exact Program.goes_report_iff
      · exact Program.goes_report_iff
      · exact Program.goes_notice_iff
  unfold finish
  rw [hEmit, Program.goes_bind_error_iff]
  constructor
  · rintro (hPanics | ⟨r, l₁, l₂, -, -, hRest⟩)
    · exact hPanics
    · refine absurd hRest ?_
      rcases r with f | ⟨⟩
      · exact (Program.calm_pure _).notice l₂ q
      · exact (Program.calm_pure _).report.notice l₂ q
  · exact .inl

theorem goes_run_error_iff : (set.run print sink).Goes l (.error q) ↔ set.Raises print sink l q := by
  rw [run_eq]
  refine Program.goes_within_iff.trans (Program.goes_bind_error_iff.trans ?_)
  constructor
  · rintro (hSetup | ⟨f | ⟨⟩, l₁, l₂, rfl, hSetup, hRest⟩)
    · obtain ⟨h, hBefore, hPanics⟩ := Hook.goes_runOption_error_iff.mp hSetup
      exact .setup hBefore hPanics
    · exact absurd hRest ((Program.calm_pure _).notice l₂ q)
    · obtain hTests | ⟨s, l₂, l₃, rfl, hTests, hRest⟩ := Program.goes_bind_error_iff.mp hRest
      · exact absurd hTests (calm_runTests set.tests {} l₂ q)
      · obtain ⟨h, hAfter, hPanics⟩ := Hook.goes_runOption_error_iff.mp (goes_finish_error_iff.mp hRest)
        exact .teardown hAfter hSetup hTests hPanics
  · rintro (⟨hBefore, hPanics⟩ | ⟨hAfter, hSetup, hTests, hPanics⟩)
    · exact .inl (Hook.goes_runOption_error_iff.mpr ⟨_, hBefore, hPanics⟩)
    · refine .inr ⟨.ok (), _, _, rfl, hSetup, Program.goes_bind_error_iff.mpr ?_⟩
      refine .inr ⟨_, _, _, rfl, hTests, goes_finish_error_iff.mpr ?_⟩
      exact Hook.goes_runOption_error_iff.mpr ⟨_, hAfter, hPanics⟩

end TestSet

/-! ## Waits for a callback and tasks -/

namespace Program

variable {α : Type}

def endingWith (f : Payload → α) (p : Async α) : Async α :=
  p.attempt.bind fun
    | .ok a => .pure a
    | .error q => .pure (f q)

theorem silenced_endingWith (f : Payload → α) (p : Async α) : (p.endingWith f).silenced = p.silenced := by
  unfold endingWith
  induction p <;> simp_all [attempt, bind, silenced]

end Program

namespace Async

variable {func : Nat → Async (Async Result)} {timeout : Option Nat} {slot : Nat} {work : Async Result}

/-- Nobody can tell a task that has panicked from one that has ended there. -/
theorem spawn_endingWith {α : Type} (f : Payload → α) (p : Async α) :
    spawn (p.endingWith f) = spawn p := by
  rw [spawn, spawn, Program.silenced_endingWith]

theorem spawnHolding_endingWith {α : Type} (slot : Nat) (f : Payload → α) (p : Async α) :
    spawnHolding slot (p.endingWith f) = spawnHolding slot p := by
  rw [spawnHolding, spawnHolding, Program.silenced_endingWith]

/-- A call either returns the failure that the panic of its callee comes to, or what its wait for the slot
comes to. -/
theorem goes_untilSignal_iff {e : Except Payload Result} :
    (untilSignal func timeout).Goes l e ↔ ∃ slot,
      (∃ q l', l = .answer .openSlot slot :: (l' ++ [.answer (.abandon slot) ()]) ∧
        (func slot).Goes l' (.error q) ∧ e = .ok (.error (.ofPayload q))) ∨
      (∃ work l' x, l = .answer .openSlot slot :: (l' ++ [.answer (.hold slot) (), .found slot x]) ∧
        (func slot).Goes l' (.ok work) ∧ e = .ok (x.getD (.ok ()))) := by
  have hAwait {slot : Nat} {l : List Reply} {work : Async Result} :
      (calledBack slot timeout (.ok work)).Goes l e ↔
        ∃ x, l = [.answer (.hold slot) (), .found slot x] ∧ e = .ok (x.getD (.ok ())) := by
    change (Program.act (.hold slot) fun _ => .fork _ (.await slot timeout (answered timeout))).Goes l e ↔ _
    rw [Program.goes_act_iff]
    constructor
    · rintro ⟨_, _, rfl, hGoes⟩
      obtain ⟨x, rest, rfl, hRest⟩ := Program.goes_await_iff.mp (Program.goes_fork_iff.mp hGoes)
      have hAnswered : rest = [] ∧ e = .ok (x.getD (.ok ())) := by
        cases x with
        | none => exact Program.goes_pure_iff.mp (Program.goes_notice_iff.mp hRest)
        | some r => exact Program.goes_pure_iff.mp hRest
      obtain ⟨rfl, rfl⟩ := hAnswered
      exact ⟨x, rfl, rfl⟩
    · rintro ⟨x, rfl, rfl⟩
      refine ⟨(), _, rfl, .fork (.await x ?_)⟩
      cases x with
      | none => exact .notice (.pure _)
      | some r => exact .pure r
  have hAbandon {slot : Nat} {l : List Reply} {q : Payload} :
      (calledBack slot timeout (.error q)).Goes l e ↔
        l = [.answer (.abandon slot) ()] ∧ e = .ok (.error (.ofPayload q)) := by
    rw [calledBack, Program.goes_act_iff]
    constructor
    · rintro ⟨_, _, rfl, hGoes⟩
      obtain ⟨rfl, rfl⟩ := Program.goes_pure_iff.mp hGoes
      exact ⟨rfl, rfl⟩
    · rintro ⟨rfl, rfl⟩
      exact ⟨(), [], rfl, .pure _⟩
  rw [untilSignal_eq, Program.goes_act_iff]
  constructor
  · rintro ⟨slot, rest, rfl, hGoes⟩
    obtain ⟨q | work, l₁, l₂, rfl, hFunc, hRest⟩ := Program.goes_attempt_bind_iff.mp hGoes
    · obtain ⟨rfl, rfl⟩ := hAbandon.mp hRest
      exact ⟨slot, .inl ⟨q, l₁, rfl, hFunc, rfl⟩⟩
    · obtain ⟨x, rfl, rfl⟩ := hAwait.mp hRest
      exact ⟨slot, .inr ⟨work, l₁, x, rfl, hFunc, rfl⟩⟩
  · rintro ⟨slot, ⟨q, l₁, rfl, hFunc, rfl⟩ | ⟨work, l₁, x, rfl, hFunc, rfl⟩⟩
    · exact ⟨slot, _, rfl, Program.goes_attempt_bind_iff.mpr
        ⟨.error q, l₁, _, rfl, hFunc, hAbandon.mpr ⟨rfl, rfl⟩⟩⟩
    · exact ⟨slot, _, rfl, Program.goes_attempt_bind_iff.mpr
        ⟨.ok work, l₁, _, rfl, hFunc, hAwait.mpr ⟨x, rfl, rfl⟩⟩⟩

theorem calm_untilSignal (func : Nat → Async (Async Result)) (timeout : Option Nat) :
    Calm (untilSignal func timeout) := by
  intro l q hGoes
  obtain ⟨slot, ⟨q', l', -, -, hReturns⟩ | ⟨work, l', x, -, -, hReturns⟩⟩ := goes_untilSignal_iff.mp hGoes
  · cases hReturns
  · cases hReturns

theorem goes_runWork_iff {e : Except Payload Unit} :
    (runWork slot work).Goes l e ↔ e = .ok () ∧ ∃ (x : Ended) (l₁ l₂ : List Reply), l = l₁ ++ l₂ ∧
      work.Goes l₁ x ∧ match x.result with
        | .ok () => l₂ = []
        | .error f => ∃ accepted, l₂ = [.answer (.settle slot (.error f)) accepted] := by
  have hSettle {f : Failure} {l : List Reply} :
      ((settle slot (.error f)).bind fun _ => .pure ()).Goes l e ↔
        e = .ok () ∧ ∃ accepted, l = [.answer (.settle slot (.error f)) accepted] := by
    refine Program.goes_act_iff.trans ?_
    constructor
    · rintro ⟨accepted, _, rfl, hGoes⟩
      obtain ⟨rfl, rfl⟩ := Program.goes_pure_iff.mp hGoes
      exact ⟨rfl, accepted, rfl⟩
    · rintro ⟨rfl, accepted, rfl⟩
      exact ⟨accepted, [], rfl, .pure ()⟩
  refine Program.goes_attempt_bind_iff.trans ?_
  constructor
  · rintro ⟨q | f | ⟨⟩, l₁, l₂, rfl, hWork, hRest⟩
    · obtain ⟨rfl, hOffered⟩ := hSettle.mp hRest
      exact ⟨rfl, .error q, l₁, l₂, rfl, hWork, hOffered⟩
    · obtain ⟨rfl, hOffered⟩ := hSettle.mp hRest
      exact ⟨rfl, .ok (.error f), l₁, l₂, rfl, hWork, hOffered⟩
    · obtain ⟨rfl, rfl⟩ := Program.goes_pure_iff.mp hRest
      exact ⟨rfl, .ok (.ok ()), l₁, [], rfl, hWork, rfl⟩
  · rintro ⟨rfl, q | f | ⟨⟩, l₁, l₂, rfl, hWork, hRest⟩
    · exact ⟨.error q, l₁, l₂, rfl, hWork, hSettle.mpr ⟨rfl, hRest⟩⟩
    · exact ⟨.ok (.error f), l₁, l₂, rfl, hWork, hSettle.mpr ⟨rfl, hRest⟩⟩
    · obtain rfl : l₂ = [] := hRest
      exact ⟨.ok (.ok ()), l₁, [], rfl, hWork, .pure ()⟩

end Async

end TestBench
