import TestBench.Script.Meaning
import TestBench.Proofs.Outcome.Dealing

/-! # Scripts deal in outcomes

Whatever a script stands for deals in outcomes, and knows none at first (`deals_runSteps`): the cases and sets
that it builds and runs make their own.
-/

namespace TestBench

open Program (Deals DealsIn)

variable {known : Set Outcome}

theorem deals_signal {slot : Option Nat} {result : Result} : (signal slot result).DealsIn known := by
  cases slot with
  | none => exact .pure trivial
  | some slot => exact Async.deals_perform nofun

theorem deals_spawnWithin {slot : Option Nat} {p : Async Result} (h : p.DealsIn known) :
    (spawnWithin slot p).DealsIn known := by
  cases slot with
  | none => exact Async.deals_spawn h
  | some slot => exact Async.deals_spawnHolding h

theorem deals_logLines (lines : List Line) : (logLines lines).DealsIn known := by
  induction lines with
  | nil => exact .pure trivial
  | cons l rest ih => exact .act nofun fun _ => ih

theorem deals_logSignal {name : String} {accepted : Bool} : (logSignal name accepted).DealsIn known :=
  Async.deals_perform nofun

theorem deals_noteText? {key : String} : (noteText? key).DealsIn known := by
  refine .act nofun fun note => ?_
  rcases note with _ | (s | ms) <;> exact .pure trivial

theorem deals_callThen {called later : Async Result} (hCalled : called.DealsIn known)
    (hLater : later.DealsIn known) : (callThen called later).Deals known :=
  hCalled.bind fun _ _ hSub => .pure (hLater.mono hSub)

theorem deals_pickCall {hooks : List Hook} (h : ∀ hook ∈ hooks, Hook.Deals known hook) (earlier : Nat) :
    (pickCall hooks earlier).Deals known := by
  unfold pickCall
  cases hGet : hooks[min earlier (hooks.length - 1)]? with
  | none => exact Hook.deals_ofWork (.pure trivial)
  | some hook => exact h hook (List.mem_of_getElem? hGet)

theorem deals_runInnerCase {c : Case} (h : c.Deals known) : (runInnerCase c).DealsIn known := by
  refine (Case.deals_run h).muted.bind fun known' o _ _ => ?_
  exact .act nofun fun _ => .pure trivial

theorem deals_runInnerSet {set : TestSet} (h : set.Deals known) : (runInnerSet set).DealsIn known := by
  refine ((TestSet.deals_run h).collect [] nofun).bind fun known' x _ _ => ?_
  obtain ⟨result, reports⟩ := x
  refine (deals_logLines _).bind fun _ _ _ => ?_
  cases result <;> exact .pure trivial

mutual

theorem Step.deals_run (slot : Option Nat) (step : Step) : (step.run slot).DealsIn known := by
  cases step with
  | spawn steps =>
    rw [Step.run]
    exact (deals_spawnWithin (deals_runSteps slot steps)).bind fun _ _ _ => .pure trivial
  | untilSignal called later timeout =>
    rw [Step.run]
    refine DealsIn.bind (Async.deals_untilSignal fun slot => ?_) fun _ _ _ => .pure trivial
    exact deals_callThen (deals_runSteps slot called) (deals_runSteps slot later)
  | attempt steps =>
    rw [Step.run]
    exact (deals_runSteps slot steps).bind fun _ _ _ => .act nofun fun _ => .pure trivial
  | case c =>
    rw [Step.run]
    exact deals_runInnerCase (CaseScript.deals_build slot c)
  | set s =>
    rw [Step.run]
    exact deals_runInnerSet (SetScript.deals_build slot s)
  | done =>
    rw [Step.run]
    exact deals_signal.bind fun _ _ _ => deals_logSignal.bind fun _ _ _ => .pure trivial
  | reject f =>
    rw [Step.run]
    exact deals_signal.bind fun _ _ _ => deals_logSignal.bind fun _ _ _ => .pure trivial
  | expectNote key text =>
    rw [Step.run]
    exact deals_noteText?.bind fun _ _ _ => .pure trivial
  | hasNote key =>
    rw [Step.run]
    exact deals_noteText?.bind fun _ _ _ => .pure trivial
  | log line => exact .act nofun fun _ => .pure trivial
  | put key text => exact .act nofun fun _ => .pure trivial
  | remove key => exact .act nofun fun _ => .pure trivial
  | panic q => exact .panic q
  | sleep ms => exact .sleep (.pure trivial)
  | yield => exact .yield (.pure trivial)
  | fail f => exact .pure trivial
  | leave => exact .pure trivial
  | check v => exact .pure trivial
  | checkEquals v w => exact .pure trivial

theorem deals_runSteps (slot : Option Nat) (steps : List Step) : (runSteps slot steps).DealsIn known := by
  cases steps with
  | nil => exact .pure trivial
  | cons step rest =>
    rw [runSteps]
    refine (Step.deals_run slot step).bind fun known' flow hSub => ?_
    cases flow with
    | next => exact (deals_runSteps slot rest).mono hSub
    | leave result => exact .pure trivial

theorem CallScript.deals_hook (slot : Option Nat) (c : CallScript) : (c.hook slot).Deals known := by
  obtain ⟨called, later⟩ := c
  rw [CallScript.hook]
  exact deals_callThen (deals_runSteps slot called) (deals_runSteps slot later)

theorem deals_callHooks (slot : Option Nat) (calls : List CallScript) :
    ∀ hook ∈ callHooks slot calls, Hook.Deals known hook := by
  cases calls with
  | nil => exact nofun
  | cons c rest =>
    rw [callHooks]
    rintro hook (_ | ⟨_, hMem⟩)
    · exact CallScript.deals_hook slot c
    · exact deals_callHooks slot rest hook hMem

theorem HookScript.deals_hook (slot : Option Nat) (h : HookScript) : (h.hook slot).Deals known := by
  obtain ⟨_ | counter, calls⟩ := h
  · rw [HookScript.hook]
    exact deals_pickCall (deals_callHooks slot calls) 0
  · rw [HookScript.hook]
    exact .act nofun fun earlier => deals_pickCall (deals_callHooks none calls) earlier

theorem HookScript.deals_hook? (slot : Option Nat) (h : Option HookScript) :
    ∀ hook ∈ HookScript.hook? slot h, Hook.Deals known hook := by
  cases h with
  | none => exact nofun
  | some h =>
    rw [HookScript.hook?]
    rintro hook ⟨⟩
    exact HookScript.deals_hook slot h

theorem CaseScript.deals_build (slot : Option Nat) (c : CaseScript) : (c.build slot).Deals known := by
  obtain ⟨name, body, before, after⟩ := c
  rw [CaseScript.build]
  exact ⟨HookScript.deals_hook slot body, HookScript.deals_hook? slot before,
    HookScript.deals_hook? slot after, nofun⟩

theorem CaseScript.deals_buildAll (slot : Option Nat) (cases : List CaseScript) :
    ∀ c ∈ CaseScript.buildAll slot cases, c.Deals known := by
  cases cases with
  | nil => exact nofun
  | cons c rest =>
    rw [CaseScript.buildAll]
    rintro c' (_ | ⟨_, hMem⟩)
    · exact CaseScript.deals_build slot c
    · exact CaseScript.deals_buildAll slot rest c' hMem

theorem SetScript.deals_build (slot : Option Nat) (s : SetScript) : (s.build slot).Deals known := by
  obtain ⟨tests, before, after⟩ := s
  rw [SetScript.build]
  exact ⟨CaseScript.deals_buildAll slot tests, HookScript.deals_hook? slot before,
    HookScript.deals_hook? slot after, nofun⟩

end

end TestBench
