import TestBench.Script.Meaning
import TestBench.Proofs.Panic.Frames

/-! # Panics of scripts

A panic that leaves a script was raised by a step of the script itself, or let through by a set that the
script runs, from a hook of that set (`goes_runSteps_error_iff`). Cases, waits for a callback and tasks let
nothing through.
-/

namespace TestBench

open Program (Calm)

variable {l : List Reply} {q : Payload}

/-! ## Where a script panics -/

mutual

/-- On these replies the step panics. Only three kinds of steps do: one that raises the panic, one that runs
steps just to log how they ended, and one that runs a set. -/
def Step.Raises (slot : Option Nat) : Step → List Reply → Payload → Prop
  | .panic p, l, q => l = [] ∧ p = q
  | .attempt steps, l, q => Step.RaisesAmong slot steps l q
  | .set s, l, q => s.Raises slot l q
  | _, _, _ => False

def Step.RaisesAmong (slot : Option Nat) : List Step → List Reply → Payload → Prop
  | [], _, _ => False
  | step :: rest, l, q => step.Raises slot l q ∨ ∃ l₁ l₂, l = l₁ ++ l₂ ∧
      (step.run slot).Goes l₁ (.ok .next) ∧ Step.RaisesAmong slot rest l₂ q

def CallScript.Raises (slot : Option Nat) : CallScript → List Reply → Payload → Prop
  | .mk called later, l, q => Step.RaisesAmong slot called l q ∨ ∃ r l₁ l₂, l = l₁ ++ l₂ ∧
      (runSteps slot called).Goes l₁ (.ok r) ∧ Step.RaisesAmong slot later l₂ q

/-- The call of that number panics; the last call serves all further numbers. -/
def CallScript.RaisesAt (slot : Option Nat) : List CallScript → Nat → List Reply → Payload → Prop
  | [], _, _, _ => False
  | c :: [], _, l, q => c.Raises slot l q
  | c :: _ :: _, 0, l, q => c.Raises slot l q
  | _ :: c :: rest, n + 1, l, q => CallScript.RaisesAt slot (c :: rest) n l q

def HookScript.Raises (slot : Option Nat) : HookScript → List Reply → Payload → Prop
  | .mk none calls, l, q => CallScript.RaisesAt slot calls 0 l q
  | .mk (some counter) calls, l, q => ∃ (earlier : Nat) (rest : List Reply),
      l = .answer (.countCall counter) earlier :: rest ∧ CallScript.RaisesAt none calls earlier rest q

def HookScript.RaisesOption (slot : Option Nat) : Option HookScript → List Reply → Payload → Prop
  | none, _, _ => False
  | some h, l, q => h.Raises slot l q

/-- The set-up of the set panics, or its teardown after the set-up has succeeded and all tests have run. -/
def SetScript.Raises (slot : Option Nat) : SetScript → List Reply → Payload → Prop
  | .mk tests before after, l, q => HookScript.RaisesOption slot before l q ∨
      ∃ s l₁ l₂ l₃, l = l₁ ++ (l₂ ++ l₃) ∧
        (Hook.runOption (HookScript.hook? slot before)).Goes l₁ (.ok (.ok ())) ∧
        (TestSet.runTests true .memory (CaseScript.buildAll slot tests) {}).Goes l₂ (.ok s) ∧
        HookScript.RaisesOption slot after l₃ q

end

/-! ## Steps that never panic -/

theorem calm_signal (slot : Option Nat) (result : Result) : Calm (signal slot result) := by
  cases slot with
  | none => exact Program.calm_pure false
  | some slot => exact .act fun accepted => Program.calm_pure accepted

theorem calm_logSignal (name : String) (accepted : Bool) : Calm (logSignal name accepted) :=
  .act fun _ => Program.calm_pure ()

theorem calm_noteText? (key : String) : Calm (noteText? key) := by
  refine .act fun note => ?_
  rcases note with _ | s | ms <;> exact Program.calm_pure _

theorem calm_spawnWithin (slot : Option Nat) (p : Async Result) : Calm (spawnWithin slot p) := by
  cases slot with
  | none => exact (Program.calm_pure ()).fork
  | some slot => exact .act fun _ => (Program.calm_pure ()).fork

theorem calm_logLines (lines : List Line) : Calm (logLines lines) := by
  induction lines with
  | nil => exact Program.calm_pure ()
  | cons line rest ih => exact .act fun _ => ih

theorem calm_runInnerCase (c : Case) : Calm (runInnerCase c) :=
  c.calm_run.muted.bind fun _ => .act fun _ => Program.calm_pure _

theorem goes_runInnerSet_error_iff {set : TestSet} :
    (runInnerSet set).Goes l (.error q) ↔ set.Raises true .memory l q := by
  refine Program.goes_bind_error_iff.trans ?_
  rw [Program.goes_collect_error_iff, TestSet.goes_run_error_iff]
  constructor
  · rintro (hRaises | ⟨⟨result, reports⟩, l₁, l₂, -, -, hRest⟩)
    · exact hRaises
    · refine absurd hRest ((calm_logLines _).bind (fun _ => ?_) l₂ q)
      cases result <;> exact Program.calm_pure _
  · exact .inl

theorem goes_callThen_run_error_iff {called later : Async Result} :
    Program.Goes (callThen called later).run l (.error q) ↔ called.Goes l (.error q) ∨
      ∃ r l₁ l₂, l = l₁ ++ l₂ ∧ called.Goes l₁ (.ok r) ∧ later.Goes l₂ (.error q) := by
  have hRun : (callThen called later).run = Program.muted (called.bind fun _ => later) := by
    change Program.muted ((called.bind fun _ => .pure later).bind id) = _
    rw [Program.bind_assoc]
    rfl
  rw [hRun, Program.goes_muted_iff, Program.goes_bind_error_iff]

theorem pickCall_singleton (h : Hook) (n : Nat) : pickCall [h] n = h := by
  simp [pickCall]

theorem pickCall_zero (h : Hook) (rest : List Hook) : pickCall (h :: rest) 0 = h := by
  simp [pickCall]

theorem pickCall_succ (h₁ h₂ : Hook) (rest : List Hook) (n : Nat) :
    pickCall (h₁ :: h₂ :: rest) (n + 1) = pickCall (h₂ :: rest) n := by
  have hIndex : min (n + 1) ((h₁ :: h₂ :: rest).length - 1) = min n ((h₂ :: rest).length - 1) + 1 := by
    simp only [List.length_cons]
    omega
  simp only [pickCall, hIndex, List.getElem?_cons_succ]

/-! ## The law -/

mutual

theorem Step.goes_run_error_iff (slot : Option Nat) (step : Step) {l : List Reply} {q : Payload} :
    (step.run slot).Goes l (.error q) ↔ step.Raises slot l q := by
  have hCalm (h : Calm (step.run slot)) (hNot : ¬ step.Raises slot l q) :
      (step.run slot).Goes l (.error q) ↔ step.Raises slot l q :=
    ⟨fun hGoes => (h l q hGoes).elim, fun hRaises => (hNot hRaises).elim⟩
  cases step with
  | panic p =>
    rw [Step.run, Program.goes_panic_iff, Step.Raises]
    simp [eq_comm]
  | attempt steps =>
    rw [Step.run, Step.Raises, ← goes_runSteps_error_iff slot steps]
    refine Program.goes_bind_error_iff.trans (or_iff_left ?_)
    rintro ⟨r, l₁, l₂, -, -, hLog⟩
    exact Program.Calm.act (fun _ => Program.calm_pure _) l₂ q hLog
  | set s =>
    rw [Step.run, Step.Raises, goes_runInnerSet_error_iff, SetScript.raises_build_iff slot s]
  | log line => exact hCalm (.act fun _ => Program.calm_pure _) id
  | put key text => exact hCalm (.act fun _ => Program.calm_pure _) id
  | remove key => exact hCalm (.act fun _ => Program.calm_pure _) id
  | sleep ms => exact hCalm (Program.calm_pure _).sleep id
  | yield => exact hCalm (Program.calm_pure _).yield id
  | fail f => exact hCalm (Program.calm_pure _) id
  | leave => exact hCalm (Program.calm_pure _) id
  | check v => exact hCalm (Program.calm_pure _) id
  | checkEquals v w => exact hCalm (Program.calm_pure _) id
  | expectNote key text => exact hCalm ((calm_noteText? key).bind fun _ => Program.calm_pure _) id
  | hasNote key => exact hCalm ((calm_noteText? key).bind fun _ => Program.calm_pure _) id
  | done =>
    refine hCalm ((calm_signal slot _).bind fun accepted => ?_) id
    exact (calm_logSignal _ accepted).bind fun _ => Program.calm_pure _
  | reject f =>
    refine hCalm ((calm_signal slot _).bind fun accepted => ?_) id
    exact (calm_logSignal _ accepted).bind fun _ => Program.calm_pure _
  | spawn steps => exact hCalm ((calm_spawnWithin slot _).bind fun _ => Program.calm_pure _) id
  | untilSignal called later timeout =>
    exact hCalm ((Async.calm_untilSignal _ timeout).bind fun _ => Program.calm_pure _) id
  | case c => exact hCalm (calm_runInnerCase (c.build slot)) id

theorem goes_runSteps_error_iff (slot : Option Nat) (steps : List Step) {l : List Reply} {q : Payload} :
    (runSteps slot steps).Goes l (.error q) ↔ Step.RaisesAmong slot steps l q := by
  cases steps with
  | nil => exact ⟨fun hGoes => (Program.calm_pure _ l q hGoes).elim, False.elim⟩
  | cons step rest =>
    rw [runSteps, Step.RaisesAmong]
    refine Program.goes_bind_error_iff.trans (or_congr (Step.goes_run_error_iff slot step) ?_)
    constructor
    · rintro ⟨flow, l₁, l₂, rfl, hStep, hRest⟩
      cases flow with
      | next => exact ⟨l₁, l₂, rfl, hStep, (goes_runSteps_error_iff slot rest).mp hRest⟩
      | leave result => exact (Program.calm_pure result l₂ q hRest).elim
    · rintro ⟨l₁, l₂, rfl, hStep, hRest⟩
      exact ⟨.next, l₁, l₂, rfl, hStep, (goes_runSteps_error_iff slot rest).mpr hRest⟩

theorem CallScript.goes_run_error_iff (slot : Option Nat) (c : CallScript) {l : List Reply} {q : Payload} :
    Program.Goes (c.hook slot).run l (.error q) ↔ c.Raises slot l q := by
  obtain ⟨called, later⟩ := c
  rw [CallScript.hook, CallScript.Raises, goes_callThen_run_error_iff, goes_runSteps_error_iff slot called]
  simp only [goes_runSteps_error_iff slot later]

theorem CallScript.goes_pickCall_error_iff (slot : Option Nat) (calls : List CallScript) (n : Nat)
    {l : List Reply} {q : Payload} :
    Program.Goes (pickCall (callHooks slot calls) n).run l (.error q) ↔
      CallScript.RaisesAt slot calls n l q := by
  cases calls with
  | nil => exact ⟨fun hGoes => (Program.calm_pure _ l q hGoes).elim, False.elim⟩
  | cons c rest =>
    rw [callHooks]
    cases rest with
    | nil =>
      rw [callHooks, pickCall_singleton, CallScript.RaisesAt]
      exact CallScript.goes_run_error_iff slot c
    | cons d rest =>
      rw [callHooks]
      cases n with
      | zero =>
        rw [pickCall_zero, CallScript.RaisesAt]
        exact CallScript.goes_run_error_iff slot c
      | succ n =>
        rw [pickCall_succ, CallScript.RaisesAt, ← callHooks]
        exact CallScript.goes_pickCall_error_iff slot (d :: rest) n

theorem HookScript.goes_run_error_iff (slot : Option Nat) (h : HookScript) {l : List Reply} {q : Payload} :
    Program.Goes (h.hook slot).run l (.error q) ↔ h.Raises slot l q := by
  obtain ⟨_ | counter, calls⟩ := h
  · rw [HookScript.hook, HookScript.Raises]
    exact CallScript.goes_pickCall_error_iff slot calls 0
  · rw [HookScript.hook, HookScript.Raises]
    refine (Program.goes_act_iff (a := .countCall counter)).trans ?_
    exact exists₂_congr fun earlier rest =>
      and_congr_right' (CallScript.goes_pickCall_error_iff none calls earlier)

theorem HookScript.goes_runOption_error_iff (slot : Option Nat) (h? : Option HookScript) {l : List Reply}
    {q : Payload} : (Hook.runOption (HookScript.hook? slot h?)).Goes l (.error q) ↔
      HookScript.RaisesOption slot h? l q := by
  cases h? with
  | none => exact ⟨fun hGoes => (Program.calm_pure _ l q hGoes).elim, False.elim⟩
  | some h =>
    rw [HookScript.hook?, HookScript.RaisesOption]
    exact HookScript.goes_run_error_iff slot h

theorem SetScript.raises_build_iff (slot : Option Nat) (s : SetScript) {l : List Reply} {q : Payload} :
    (s.build slot).Raises true .memory l q ↔ s.Raises slot l q := by
  obtain ⟨tests, before, after⟩ := s
  have hSetup {l : List Reply} := HookScript.goes_runOption_error_iff slot before (l := l) (q := q)
  have hTeardown {l : List Reply} := HookScript.goes_runOption_error_iff slot after (l := l) (q := q)
  rw [SetScript.build, SetScript.Raises]
  constructor
  · rintro (⟨hBefore, hPanics⟩ | ⟨hAfter, hSucceeds, hTests, hPanics⟩)
    · exact .inl (hSetup.mp (Hook.goes_runOption_error_iff.mpr ⟨_, hBefore, hPanics⟩))
    · refine .inr ⟨_, _, _, _, rfl, hSucceeds, hTests, ?_⟩
      exact hTeardown.mp (Hook.goes_runOption_error_iff.mpr ⟨_, hAfter, hPanics⟩)
  · rintro (hRaises | ⟨s, l₁, l₂, l₃, rfl, hSucceeds, hTests, hRaises⟩)
    · obtain ⟨h, hBefore, hPanics⟩ := Hook.goes_runOption_error_iff.mp (hSetup.mpr hRaises)
      exact .setup hBefore hPanics
    · obtain ⟨h, hAfter, hPanics⟩ := Hook.goes_runOption_error_iff.mp (hTeardown.mpr hRaises)
      exact .teardown hAfter hSucceeds hTests hPanics

end

end TestBench
