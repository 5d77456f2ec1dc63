import TestBench.Proofs.Panic.Scripts

/-! # Panics are contained

The law of panics under any nesting of cases, sets, waits for a callback and tasks (`panics_contained`). It is
stated on the paths of programs, which all runs follow.
-/

namespace TestBench

def Payload.text? : Payload → Option String
  | text message => if message = "" then none else some message
  | other => none

theorem Failure.ofPayload_eq (q : Payload) : ofPayload q = .unexpected q.text? := by
  cases q with
  | other => rfl
  | text message =>
    simp only [ofPayload, ofMessage, Payload.text?, String.isEmpty_iff]
    split <;> rfl

/-- Where panics come from, what they pass, and what stops them. -/
structure PanicsContained : Prop where
  /-- Whatever a program does in its turns, as a task or as a main program, it does on one of its paths. -/
  turns : ∀ {α : Type} (p : Async α) (t : Turn α), p.Plays t → t.On p
  runs : ∀ {α : Type} (p : Async α) (turns : Nat) (limit : Option Nat) (w w' : World) (q : Payload),
    World.run turns limit p w = (.panicked q, w') → ∃ l, p.Goes l (.error q)
  caseRun : ∀ (c : Case) l q, ¬ c.run.Goes l (.error q)
  runAndPrint : ∀ (c : Case) sink l q, ¬ (c.runAndPrint sink).Goes l (.error q)
  untilSignal : ∀ func timeout l q, ¬ (Async.untilSignal func timeout).Goes l (.error q)
  /-- A set lets the panics of its own hooks through and no others, whatever its tests do. -/
  setRun : ∀ (set : TestSet) print sink l q,
    (set.run print sink).Goes l (.error q) ↔ set.Raises print sink l q
  /-- What reaches the edge of a script was raised outside all cases, waits, tasks and tests in it. -/
  script : ∀ slot steps l q, (runSteps slot steps).Goes l (.error q) ↔ Step.RaisesAmong slot steps l q
  hook : ∀ slot (h : HookScript) l q, Program.Goes (h.hook slot).run l (.error q) ↔ h.Raises slot l q
  hookCaught : ∀ (h : Hook) l e, h.invoke.Goes l e ↔ ∃ x : Ended, h.run.Goes l x ∧ e = .ok x.result
  calleeCaught : ∀ func timeout slot l q, Program.Goes (func slot) l (.error q) →
    (Async.untilSignal func timeout).Goes
      (.answer .openSlot slot :: (l ++ [.answer (.abandon slot) ()])) (.ok (.error (.ofPayload q)))
  /-- What leaves the work goes into the slot, like any other failure of the work. -/
  workCaught : ∀ slot work l q, work.Goes l (.error q) → ∀ accepted,
    (Async.runWork slot work).Goes
      (l ++ [.answer (.settle slot (.error (.ofPayload q))) accepted]) (.ok ())
  workAnswered : ∀ func timeout slot l work r, Program.Goes (func slot) l (.ok work) →
    (Async.untilSignal func timeout).Goes
      (.answer .openSlot slot :: (l ++ [.answer (.hold slot) (), .found slot (some r)])) (.ok r)
  failure : ∀ q, Failure.ofPayload q = .unexpected q.text?
  /-- To start a task that panics is to start one that ends there, and the world goes on alike. -/
  task : ∀ {α : Type} (p : Async α) (f : Payload → α) slot, Async.spawn (p.endingWith f) = Async.spawn p ∧
    Async.spawnHolding slot (p.endingWith f) = Async.spawnHolding slot p
  taskTurn : ∀ (w : World) task q, w.settleTask task (.panicked q) = w.settleTask task (.finished ())

/-- Panics are contained, in every program and in every script. -/
theorem panics_contained : PanicsContained where
  turns _ _ h := h.on
  runs _ _ _ _ _ _ h := World.goes_of_run_panicked h
  caseRun c := c.calm_run
  runAndPrint c sink := c.calm_runAndPrint sink
  untilSignal func timeout := Async.calm_untilSignal func timeout
  setRun _ _ _ _ _ := TestSet.goes_run_error_iff
  script slot steps _ _ := goes_runSteps_error_iff slot steps
  hook slot h _ _ := HookScript.goes_run_error_iff slot h
  hookCaught _ _ _ := Hook.goes_invoke_iff
  calleeCaught _ _ slot l q h := Async.goes_untilSignal_iff.mpr ⟨slot, .inl ⟨q, l, rfl, h, rfl⟩⟩
  workCaught _ _ l q h accepted := Async.goes_runWork_iff.mpr ⟨rfl, .error q, l, _, rfl, h, accepted, rfl⟩
  workAnswered _ _ slot l work r h :=
    Async.goes_untilSignal_iff.mpr ⟨slot, .inr ⟨work, l, some r, rfl, h, rfl⟩⟩
  failure := Failure.ofPayload_eq
  task p f slot := ⟨Async.spawn_endingWith f p, Async.spawnHolding_endingWith slot f p⟩
  taskTurn _ _ _ := rfl

end TestBench
