import TestBench.Script.Meaning
import TestBench.Proofs.Set.Course
import TestBench.Proofs.Signal.Alert

/-! # Scripts keep to their slots

Cases and sets with proper hooks run properly, and so does whatever a script stands for
(`proper_runSteps`): a script opens slots only for its own waits.
-/

namespace TestBench

open Program (KeepsTo Proper)

def Hook.Proper (h : Hook) : Prop := KeepsTo ∅ Program.Proper h

namespace Hook

variable {h : Hook} {h? : Option Hook}

theorem proper_ofWork {work : Async Result} (hWork : work.Proper) : (ofWork work).Proper := .pure hWork

theorem proper_run (hProper : h.Proper) : Program.Proper h.run :=
  (hProper.seq fun _ hWork => hWork).muted

theorem proper_invoke (hProper : h.Proper) : Program.Proper h.invoke := by
  rw [invoke_eq]
  exact (proper_run hProper).attempt.seq fun _ _ => .pure trivial

theorem proper_invokeOption (hProper : ∀ h ∈ h?, Hook.Proper h) : Program.Proper (invokeOption h?) := by
  cases h? with
  | none => exact .pure trivial
  | some h => exact proper_invoke (hProper h rfl)

theorem proper_runOption (hProper : ∀ h ∈ h?, Hook.Proper h) : Program.Proper (runOption h?) := by
  cases h? with
  | none => exact .pure trivial
  | some h => exact proper_run (hProper h rfl)

end Hook

structure Case.Proper (c : Case) : Prop where
  body : c.body.Proper
  before : ∀ h ∈ c.before, Hook.Proper h
  after : ∀ h ∈ c.after, Hook.Proper h

theorem Case.proper_run {c : Case} (h : c.Proper) : c.run.Proper := by
  have hExamine : c.examine.Proper := by
    rw [examine_eq]
    refine Program.Proper.seq (Hook.proper_invokeOption h.before) fun r => ?_
    rcases r with f | ⟨⟩
    · exact .notice (.pure trivial)
    · exact Program.Proper.seq (Hook.proper_invoke h.body) fun _ => .pure trivial
  have hTearDown (found : Finding) : (c.tearDown found).Proper := by
    rw [tearDown_eq]
    refine Program.Proper.seq (Hook.proper_invokeOption h.after) fun r => ?_
    rcases r with f | ⟨⟩
    · exact .notice (.pure trivial)
    · exact .pure trivial
  have hConclude (found : Finding) : (c.conclude found).Proper :=
    .act trivial fun _ => .notice (.report (.pure trivial))
  rw [run_eq]
  exact KeepsTo.within ((hExamine.seq hTearDown).seq hConclude)

structure TestSet.Proper (set : TestSet) : Prop where
  tests : ∀ c ∈ set.tests, c.Proper
  before : ∀ h ∈ set.before, Hook.Proper h
  after : ∀ h ∈ set.after, Hook.Proper h

namespace TestSet

variable {print : Bool} {sink : Sink} {set : TestSet}

theorem proper_emit {line : Line} : (emit print sink line).Proper := by
  cases print with
  | false => exact .pure trivial
  | true =>
    rcases sink with _ | color | _
    · exact .report (.pure trivial)
    · exact .report (.pure trivial)
    · exact .notice (.pure trivial)

theorem proper_enter {s : Summary} {o : Outcome} : (s.enter o).Proper := by
  rw [Summary.enter_eq]
  split
  · exact .pure trivial
  · exact .notice (.pure trivial)

theorem proper_runTests {cases : List Case} {s : Summary} (h : ∀ c ∈ cases, c.Proper) :
    (runTests print sink cases s).Proper := by
  induction cases generalizing s with
  | nil => exact .pure trivial
  | cons c rest ih =>
    rw [runTests_cons]
    refine (Case.proper_run (h c List.mem_cons_self)).seq fun o => proper_enter.seq fun added => ?_
    exact proper_emit.seq fun _ => ih fun c hc => h c (List.mem_cons_of_mem _ hc)

theorem proper_run (h : set.Proper) : (set.run print sink).Proper := by
  rw [run_eq]
  refine KeepsTo.within (Program.Proper.seq (Hook.proper_runOption h.before) fun r => ?_)
  rcases r with f | ⟨⟩
  · exact .notice (.pure trivial)
  · refine (proper_runTests h.tests).seq fun s => proper_emit.seq fun _ => ?_
    refine Program.Proper.seq (Hook.proper_runOption h.after) fun r => ?_
    rcases r with f | ⟨⟩
    · exact .notice (.pure trivial)
    · exact .notice (.report (.pure trivial))

end TestSet

theorem proper_signal {slot : Option Nat} {result : Result} : (signal slot result).Proper := by
  cases slot with
  | none => exact .pure trivial
  | some slot => exact Async.proper_settle

theorem proper_spawnWithin {slot : Option Nat} {p : Async Result} (h : p.Proper) :
    (spawnWithin slot p).Proper := by
  cases slot with
  | none => exact Async.proper_spawn h
  | some slot => exact Async.proper_spawnHolding h

theorem proper_logLines (lines : List Line) : (logLines lines).Proper := by
  induction lines with
  | nil => exact .pure trivial
  | cons l rest ih => exact .act trivial fun _ => ih

theorem proper_callThen {called later : Async Result} (hCalled : called.Proper) (hLater : later.Proper) :
    (callThen called later).Proper := KeepsTo.seq hCalled fun _ _ => .pure hLater

theorem proper_pickCall {hooks : List Hook} (h : ∀ hook ∈ hooks, Hook.Proper hook) (earlier : Nat) :
    (pickCall hooks earlier).Proper := by
  unfold pickCall
  cases hGet : hooks[min earlier (hooks.length - 1)]? with
  | none => exact Hook.proper_ofWork (.pure trivial)
  | some hook => exact h hook (List.mem_of_getElem? hGet)

theorem proper_logSignal {name : String} {accepted : Bool} : (logSignal name accepted).Proper :=
  Async.proper_perform trivial

theorem proper_noteText? {key : String} : (noteText? key).Proper := by
  refine .act trivial fun note => ?_
  rcases note with _ | (s | ms) <;> exact .pure trivial

theorem proper_runInnerCase {c : Case} (h : c.Proper) : (runInnerCase c).Proper := by
  refine Program.Proper.seq (KeepsTo.muted (Case.proper_run h)) fun o => ?_
  exact .act trivial fun _ => .pure trivial

theorem proper_runInnerSet {set : TestSet} (h : set.Proper) : (runInnerSet set).Proper := by
  refine KeepsTo.seq (KeepsTo.collect (TestSet.proper_run h)) fun x _ => ?_
  obtain ⟨result, reports⟩ := x
  refine Program.Proper.seq (proper_logLines _) fun _ => ?_
  cases result <;> exact .pure trivial

mutual

theorem Step.proper_run (slot : Option Nat) (step : Step) : (step.run slot).Proper := by
  cases step with
  | spawn steps =>
    rw [Step.run]
    exact (proper_spawnWithin (proper_runSteps slot steps)).seq fun _ => .pure trivial
  | untilSignal called later timeout =>
    rw [Step.run]
    refine Program.Proper.seq (Async.proper_untilSignal fun slot => ?_) fun _ => .pure trivial
    exact proper_callThen (proper_runSteps slot called) (proper_runSteps slot later)
  | attempt steps =>
    rw [Step.run]
    exact (proper_runSteps slot steps).seq fun _ => .act trivial fun _ => .pure trivial
  | case c =>
    rw [Step.run]
    exact proper_runInnerCase (CaseScript.proper_build slot c)
  | set s =>
    rw [Step.run]
    exact proper_runInnerSet (SetScript.proper_build slot s)
  | done =>
    rw [Step.run]
    exact proper_signal.seq fun _ => proper_logSignal.seq fun _ => .pure trivial
  | reject f =>
    rw [Step.run]
    exact proper_signal.seq fun _ => proper_logSignal.seq fun _ => .pure trivial
  | expectNote key text =>
    rw [Step.run]
    exact proper_noteText?.seq fun _ => .pure trivial
  | hasNote key =>
    rw [Step.run]
    exact proper_noteText?.seq fun _ => .pure trivial
  | log line => exact .act trivial fun _ => .pure trivial
  | put key text => exact .act trivial fun _ => .pure trivial
  | remove key => exact .act trivial fun _ => .pure trivial
  | panic q => exact .panic q
  | sleep ms => exact .sleep (.pure trivial)
  | yield => exact .yield (.pure trivial)
  | fail f => exact .pure trivial
  | leave => exact .pure trivial
  | check v => exact .pure trivial
  | checkEquals v w => exact .pure trivial

/-- Whatever a script does with its callbacks, it opens slots only for its own waits. -/
theorem proper_runSteps (slot : Option Nat) (steps : List Step) : (runSteps slot steps).Proper := by
  cases steps with
  | nil => exact .pure trivial
  | cons step rest =>
    rw [runSteps]
    refine (Step.proper_run slot step).seq fun flow => ?_
    cases flow with
    | next => exact proper_runSteps slot rest
    | leave result => exact .pure trivial

theorem CallScript.proper_hook (slot : Option Nat) (c : CallScript) : (c.hook slot).Proper := by
  obtain ⟨called, later⟩ := c
  rw [CallScript.hook]
  exact proper_callThen (proper_runSteps slot called) (proper_runSteps slot later)

theorem proper_callHooks (slot : Option Nat) (calls : List CallScript) :
    ∀ hook ∈ callHooks slot calls, Hook.Proper hook := by
  cases calls with
  | nil => exact nofun
  | cons c rest =>
    rw [callHooks]
    rintro hook (_ | ⟨_, hMem⟩)
    · exact CallScript.proper_hook slot c
    · exact proper_callHooks slot rest hook hMem

theorem HookScript.proper_hook (slot : Option Nat) (h : HookScript) : (h.hook slot).Proper := by
  obtain ⟨_ | counter, calls⟩ := h
  · rw [HookScript.hook]
    exact proper_pickCall (proper_callHooks slot calls) 0
  · rw [HookScript.hook]
    exact .act trivial fun earlier => proper_pickCall (proper_callHooks none calls) earlier

theorem HookScript.proper_hook? (slot : Option Nat) (h : Option HookScript) :
    ∀ hook ∈ HookScript.hook? slot h, Hook.Proper hook := by
  cases h with
  | none => exact nofun
  | some h =>
    rw [HookScript.hook?]
    rintro hook ⟨⟩
    exact HookScript.proper_hook slot h

theorem CaseScript.proper_build (slot : Option Nat) (c : CaseScript) : (c.build slot).Proper := by
  obtain ⟨name, body, before, after⟩ := c
  rw [CaseScript.build]
  exact ⟨HookScript.proper_hook slot body, HookScript.proper_hook? slot before,
    HookScript.proper_hook? slot after⟩

theorem CaseScript.proper_buildAll (slot : Option Nat) (cases : List CaseScript) :
    ∀ c ∈ CaseScript.buildAll slot cases, c.Proper := by
  cases cases with
  | nil => exact nofun
  | cons c rest =>
    rw [CaseScript.buildAll]
    rintro c' (_ | ⟨_, hMem⟩)
    · exact CaseScript.proper_build slot c
    · exact CaseScript.proper_buildAll slot rest c' hMem

theorem SetScript.proper_build (slot : Option Nat) (s : SetScript) : (s.build slot).Proper := by
  obtain ⟨tests, before, after⟩ := s
  rw [SetScript.build]
  exact ⟨CaseScript.proper_buildAll slot tests, HookScript.proper_hook? slot before,
    HookScript.proper_hook? slot after⟩

end

end TestBench
