import TestBench.Proofs.Panic.Frames
import TestBench.Proofs.Case.Cause
import TestBench.Script.Meaning

/-! # Aborts that pass through nested sets

A hook may run a set itself. If that set is given up, the hook fails with what the abort says, and then gives up
the set that it belongs to. Main statement: after any number of such sets nothing is left of the first failure but
its text, after a heading for each phase that was given up (`nested_aborts_worded`).

`Hook.Brings` says how a failure came out of a hook; what the hook's run comes to follows by induction on that
(`Hook.Brings.goes`).
-/

namespace TestBench

/-! ## Failures that pass through sets -/

def Phase.heading (p : Phase) : String := "test set " ++ p.name ++ " failed: "

/-- The text of an abort is never empty, so it is always the message. -/
theorem Abort.toFailure_eq (a : Abort) :
    a.toFailure = .unexpected (some (a.phase.heading ++ a.failure.message)) := by
  obtain ⟨p, f⟩ := a
  have hText : (p.heading ++ f.message).isEmpty = false := by
    cases p <;> simp [Phase.heading]
  change (if (p.heading ++ f.message).isEmpty then Failure.unexpected none else _) = _
  rw [hText]
  rfl

namespace Failure

/-- What a failure has become when it has passed through sets, each of which it has aborted in one of the phases,
the outermost first. -/
def through (phases : List Phase) (f : Failure) : Failure :=
  phases.foldr (fun p g => Abort.toFailure ⟨p, g⟩) f

theorem message_through (phases : List Phase) (f : Failure) :
    (through phases f).message = String.join (phases.map Phase.heading) ++ f.message := by
  induction phases with
  | nil => simp [through]
  | cons p phases ih =>
    change (Abort.toFailure ⟨p, through phases f⟩).message = _
    rw [Abort.toFailure_eq, List.map_cons, String.join_cons, String.append_assoc, ← ih]
    rfl

theorem through_cons (p : Phase) (phases : List Phase) (f : Failure) : through (p :: phases) f =
    .unexpected (some (String.join ((p :: phases).map Phase.heading) ++ f.message)) := by
  change Abort.toFailure ⟨p, through phases f⟩ = _
  rw [Abort.toFailure_eq, message_through, List.map_cons, String.join_cons, String.append_assoc]

end Failure

/-! ## Sets run by hooks -/

/-- Runs a set, looks at how that went and at what was reported, and hands an abort on as a failure. -/
def Async.handOn (run : Async (Except Abort Summary)) (look : Except Abort Summary → List Report → Async Unit)
    (next : Summary → Async Result) : Async Result :=
  (run.collect []).bind fun x => (look x.1 x.2).bind fun _ => match x.1 with
    | .ok s => next s
    | .error a => .pure (.error a.toFailure)

theorem runSteps_set (slot : Option Nat) (s : SetScript) (rest : List Step) :
    runSteps slot (.set s :: rest) = Async.handOn ((s.build slot).run true .memory)
      (fun _ reports => logLines (Report.lines reports)) fun _ => runSteps slot rest := by
  rw [runSteps, Step.run, runInnerSet, Async.handOn]
  refine (Program.bind_assoc _ _ _).trans (congrArg _ (funext fun x => ?_))
  refine (Program.bind_assoc _ _ _).trans (congrArg _ (funext fun _ => ?_))
  obtain ⟨a | s, reports⟩ := x <;> rfl

namespace TestSet

def hookIn (set : TestSet) : Phase → Option Hook
  | .setup => set.before
  | .teardown => set.after

/-- On these replies a run of the set comes to its hook in the phase: at once, or when the set-up has succeeded
and all tests have run. -/
inductive LeadsTo (print : Bool) (sink : Sink) (set : TestSet) : Phase → List Reply → Prop
  | setup : LeadsTo print sink set .setup []
  | teardown {l l' : List Reply} {s : Summary} (hSetup : (Hook.runOption set.before).Goes l (.ok (.ok ())))
      (hTests : (runTests print sink set.tests {}).Goes l' (.ok s)) : LeadsTo print sink set .teardown (l ++ l')

variable {print : Bool} {sink : Sink} {set : TestSet} {phase : Phase} {lead l : List Reply} {h : Hook} {f : Failure}

theorem goes_emit (print : Bool) (sink : Sink) (line : Line) : (emit print sink line).Goes [] (.ok ()) := by
  cases print with
  | false => exact .pure ()
  | true =>
    rcases sink with _ | color | _
    · exact .report (.pure ())
    · exact .report (.pure ())
    · exact .notice (.pure ())

theorem goes_run_of_failure (hLead : set.LeadsTo print sink phase lead) (hHook : set.hookIn phase = some h)
    (hFails : h.run.Goes l (.ok (.error f))) :
    (set.run print sink).Goes (lead ++ l) (.ok (.error ⟨phase, f⟩)) := by
  have hAfter {g : Result → Async (Except Abort Summary)} {e : Except Payload (Except Abort Summary)}
      (hGivenUp : (g (.error f)).Goes [] e) : ((Hook.runOption (set.hookIn phase)).bind g).Goes l e := by
    rw [hHook, ← List.append_nil l]
    exact hFails.bind_iff.mpr hGivenUp
  rw [run_eq]
  refine Program.goes_within_iff.mpr ?_
  cases hLead with
  | setup => exact hAfter (.notice (.pure _))
  | teardown hSetup hTests =>
    rw [List.append_assoc]
    refine hSetup.bind_iff.mpr (hTests.bind_iff.mpr ?_)
    exact (goes_emit print sink _).bind_iff.mpr (hAfter (.notice (.pure _)))

end TestSet

/-- The hook runs a set after some replies, and hands its abort on. -/
def Hook.HandsOn (h : Hook) (l : List Reply) (run : Async (Except Abort Summary))
    (look : Except Abort Summary → List Report → Async Unit) : Prop :=
  ∃ (γ : Type) (before : Async γ) (rest : γ → Async Result) (x : γ) (next : Summary → Async Result),
    h.bind id = before.bind rest ∧ before.Goes l (.ok x) ∧ rest x = Async.handOn run look next

/-- On these replies the hook fails: with a failure of its own, or because it hands on the abort of a set whose hook
in some phase has failed so. With it come the phases in which sets were aborted, the outermost first. -/
inductive Hook.Brings (f : Failure) : Hook → List Reply → List Phase → Prop
  | own {h : Hook} {l : List Reply} (hFails : h.run.Goes l (.ok (.error f))) : Brings f h l []
  | handed {h inner : Hook} {set : TestSet} {print : Bool} {sink : Sink}
      {look : Except Abort Summary → List Report → Async Unit} {phase : Phase} {phases : List Phase}
      {l₁ lead l l₂ : List Reply} (hHands : h.HandsOn l₁ (set.run print sink) look)
      (hLead : set.LeadsTo print sink phase lead) (hHook : set.hookIn phase = some inner)
      (hInner : Brings f inner l phases)
      (hLook : ∀ r reports, ((set.run print sink).collect []).Goes (lead ++ l) (.ok (r, reports)) →
        (look r reports).Goes l₂ (.ok ())) :
      Brings f h (l₁ ++ (lead ++ l ++ l₂)) (phase :: phases)

namespace Hook

def ofSet (set : TestSet) (print : Bool) (sink : Sink) : Hook :=
  .ofWork (Async.handOn (set.run print sink) (fun _ _ => .pure ()) fun _ => .pure (.ok ()))

theorem handsOn_ofSet (set : TestSet) (print : Bool) (sink : Sink) :
    (ofSet set print sink).HandsOn [] (set.run print sink) fun _ _ => .pure () :=
  ⟨Unit, .pure (), fun _ => _, (), fun _ => .pure (.ok ()), rfl, .pure (), rfl⟩

theorem Brings.ofSet {f : Failure} {set : TestSet} {print : Bool} {sink : Sink} {phase : Phase} {h : Hook}
    {lead l : List Reply} {phases : List Phase} (hLead : set.LeadsTo print sink phase lead)
    (hHook : set.hookIn phase = some h) (hBrings : h.Brings f l phases) :
    (Hook.ofSet set print sink).Brings f (lead ++ l) (phase :: phases) := by
  have hHanded := Brings.handed (handsOn_ofSet set print sink) hLead hHook hBrings fun _ _ _ => .pure ()
  rwa [List.nil_append, List.append_nil] at hHanded

/-- A call that succeeds and leaves a set to be run hands its abort on. -/
theorem handsOn_script {called : List Step} {slot : Option Nat} {s : SetScript} {rest : List Step} {l : List Reply}
    {r : Result} (hCalled : (runSteps slot called).Goes l (.ok r)) :
    ((CallScript.mk called (.set s :: rest)).hook slot).HandsOn l ((s.build slot).run true .memory)
      fun _ reports => logLines (Report.lines reports) :=
  ⟨Result, runSteps slot called, fun _ => runSteps slot (.set s :: rest), r, _, Program.bind_assoc _ _ _, hCalled,
    runSteps_set slot s rest⟩

variable {f : Failure} {h : Hook} {l : List Reply} {phases : List Phase}

/-- The induction is over the sets that handed the failure on, from the innermost. -/
theorem Brings.goes (hBrings : h.Brings f l phases) : h.run.Goes l (.ok (.error (.through phases f))) := by
  induction hBrings with
  | own hFails => exact hFails
  | @handed h inner set print sink look phase phases l₁ lead l l₂ hHands hLead hHook _ hLook ih =>
    obtain ⟨γ, before, rest, x, next, hCode, hBefore, hHanding⟩ := hHands
    have hRun : (set.run print sink).Goes (lead ++ l) (.ok (.error ⟨phase, .through phases f⟩)) :=
      TestSet.goes_run_of_failure hLead hHook ih
    obtain ⟨reports, hCollect⟩ := hRun.collect rfl []
    refine Program.goes_muted_iff.mpr ?_
    change (h.bind id).Goes _ _
    rw [hCode]
    refine hBefore.bind_iff.mpr ?_
    rw [hHanding]
    refine hCollect.bind_iff.mpr ?_
    rw [← List.append_nil l₂]
    exact (hLook _ _ hCollect).bind_iff.mpr (.pure _)

end Hook

theorem Outcome.make_error_of_ne {text : String} (hText : text ≠ "") (id : Nat) (test : String) :
    Outcome.make id test .error (some text) = ⟨id, test, .error, some text⟩ := by
  have hCause : Outcome.causeFor .error (some text) = some text :=
    Failure.causeFor_error_of_ne (f := .unexpected (some text)) fun h => hText (Option.some.inj h)
  rw [Outcome.make, hCause]

namespace Case

variable {c : Case} {l rest : List Reply} {text : String} {e : Except Payload Outcome}

theorem goes_conclude_iff {found : Finding} : (c.conclude found).Goes l e ↔ ∃ id : Nat,
    l = [.answer .newOutcome id] ∧ e = .ok (.make id c.name found.kind found.cause) := by
  rw [conclude_eq, Program.goes_act_iff]
  constructor
  · rintro ⟨id, l, rfl, h⟩
    obtain ⟨rfl, rfl⟩ := Program.goes_pure_iff.mp (Program.goes_report_iff.mp (Program.goes_notice_iff.mp h))
    exact ⟨id, rfl, rfl⟩
  · rintro ⟨id, rfl, rfl⟩
    exact ⟨id, [], rfl, .notice (.report (.pure _))⟩

theorem goes_tearDown_iff_of_error {found : Finding} {x : Except Payload Finding} (hKind : found.kind = .error) :
    (c.tearDown found).Goes l x ↔ ∃ r : Result, (Hook.invokeOption c.after).Goes l (.ok r) ∧ x = .ok found := by
  have hKept (f : Failure) : found.afterTeardownFailure f = found := if_pos hKind
  rw [tearDown_eq, Program.goes_bind_iff]
  constructor
  · rintro ⟨q | f | ⟨⟩, l, l', rfl, hAfter, hRest⟩
    · exact absurd hAfter (Hook.calm_invokeOption c.after l q)
    · obtain ⟨rfl, rfl⟩ := Program.goes_pure_iff.mp (Program.goes_notice_iff.mp hRest)
      rw [List.append_nil, hKept]
      exact ⟨_, hAfter, rfl⟩
    · obtain ⟨rfl, rfl⟩ := Program.goes_pure_iff.mp hRest
      rw [List.append_nil]
      exact ⟨_, hAfter, rfl⟩
  · rintro ⟨f | ⟨⟩, hAfter, rfl⟩
    · refine ⟨.ok (.error f), l, [], (List.append_nil l).symm, hAfter, .notice ?_⟩
      rw [hKept]
      exact .pure _
    · exact ⟨.ok (.ok ()), l, [], (List.append_nil l).symm, hAfter, .pure _⟩

theorem goes_closing_iff (hText : text ≠ "") :
    ((c.tearDown ⟨.error, some text⟩).bind c.conclude).Goes rest e ↔
      ∃ (l : List Reply) (r : Result) (id : Nat), rest = l ++ [.answer .newOutcome id] ∧
        (Hook.invokeOption c.after).Goes l (.ok r) ∧ e = .ok ⟨id, c.name, .error, some text⟩ := by
  rw [Program.goes_bind_iff]
  constructor
  · rintro ⟨x, l, l', rfl, hTearDown, hRest⟩
    obtain ⟨r, hAfter, rfl⟩ := (goes_tearDown_iff_of_error rfl).mp hTearDown
    obtain ⟨id, rfl, rfl⟩ := goes_conclude_iff.mp hRest
    exact ⟨l, r, id, rfl, hAfter, congrArg _ (Outcome.make_error_of_ne hText id c.name)⟩
  · rintro ⟨l, r, id, rfl, hAfter, rfl⟩
    refine ⟨_, l, _, rfl, (goes_tearDown_iff_of_error rfl).mpr ⟨r, hAfter, rfl⟩, ?_⟩
    exact goes_conclude_iff.mpr ⟨id, rfl, congrArg _ (Outcome.make_error_of_ne hText id c.name).symm⟩

theorem goes_run_iff_of_unexpected {l' : List Reply} (hText : text ≠ "")
    (hSetup : (Hook.invokeOption c.before).Goes l (.ok (.ok ())))
    (hBody : c.body.run.Goes l' (.ok (.error (.unexpected (some text))))) :
    c.run.Goes (l ++ (l' ++ rest)) e ↔ ∃ (l : List Reply) (r : Result) (id : Nat),
      rest = l ++ [.answer .newOutcome id] ∧ (Hook.invokeOption c.after).Goes l (.ok r) ∧
        e = .ok ⟨id, c.name, .error, some text⟩ := by
  have hInvoke : c.body.invoke.Goes l' (.ok (.error (.unexpected (some text)))) :=
    Hook.goes_invoke_iff.mpr ⟨_, hBody, rfl⟩
  have hExamine : c.examine.Goes (l ++ l') (.ok ⟨.error, some text⟩) := by
    rw [examine_eq, ← List.append_nil l']
    exact hSetup.bind_iff.mpr (hInvoke.bind_iff.mpr (.pure _))
  rw [run_eq, Program.bind_assoc, ← List.append_assoc, ← goes_closing_iff hText]
  exact Program.goes_within_iff.trans hExamine.bind_iff

end Case

/-- A failure that passes through nested sets ends up as an unexpected one with a message, whatever it was at
first: the message names the phases in which the sets were aborted, from the outermost to the innermost, and then
says what the failure said. So it is with the abort of the outermost set, with the failure of a hook that hands it
on, and with the cause of a case whose body does, which is an error however its teardown ends. -/
theorem nested_aborts_worded (f : Failure) (p : Phase) (phases : List Phase) :
    let text := String.join ((p :: phases).map fun p => "test set " ++ p.name ++ " failed: ") ++ f.message
    Abort.toFailure ⟨p, f.through phases⟩ = .unexpected (some text) ∧
    (∀ (set : TestSet) (print : Bool) (sink : Sink) (h : Hook) (lead l : List Reply),
      set.LeadsTo print sink p lead → set.hookIn p = some h → h.Brings f l phases →
      ∀ rest e, (set.run print sink).Goes (lead ++ l ++ rest) e ↔
        rest = [] ∧ e = .ok (.error ⟨p, f.through phases⟩)) ∧
    (∀ (h : Hook) (l : List Reply), h.Brings f l (p :: phases) →
      ∀ rest e, h.run.Goes (l ++ rest) e ↔ rest = [] ∧ e = .ok (.error (.unexpected (some text)))) ∧
    (∀ (c : Case) (l l' : List Reply), (Hook.invokeOption c.before).Goes l (.ok (.ok ())) →
      c.body.Brings f l' (p :: phases) → ∀ rest e, c.run.Goes (l ++ (l' ++ rest)) e ↔
        ∃ (l : List Reply) (r : Result) (id : Nat), rest = l ++ [.answer .newOutcome id] ∧
          (Hook.invokeOption c.after).Goes l (.ok r) ∧ e = .ok ⟨id, c.name, .error, some text⟩) ∧
    ∀ (c : Case) (k : Case.Course) (limit : Option Nat) (spans : List Span) (w w₁ : World), k.Of c →
      Ended.WentWell k.setup → k.body = some (.ok (.error (f.through (p :: phases)))) →
      World.Chain (c.Does limit (spans ++ [.case c.name])) k.invocations w w₁ →
      ∃ w', World.Ends limit (c.run.under spans) w (.finished ⟨w₁.nextOutcome, c.name, .error, some text⟩) w' := by
  intro text
  have hThrough : f.through (p :: phases) = .unexpected (some text) := f.through_cons p phases
  have hText : text ≠ "" := by
    cases p <;> simp [text, Phase.name, String.join_cons]
  refine ⟨hThrough, ?_, ?_, ?_, ?_⟩
  · intro set print sink h lead l hLead hHook hBrings rest e
    exact (TestSet.goes_run_of_failure hLead hHook hBrings.goes).unique
  · intro h l hBrings rest e
    rw [← hThrough]
    exact hBrings.goes.unique
  · intro c l l' hSetup hBrings rest e
    exact c.goes_run_iff_of_unexpected hText hSetup (hThrough ▸ hBrings.goes)
  · intro c k limit spans w w₁ hOf hSetup hBody hChain
    have hFinding : k.finding = ⟨.error, some text⟩ := by
      rw [Case.Course.finding, Case.Course.examined_of_wentWell hSetup, hBody, hThrough]
      exact Case.Course.closed_of_error rfl
    have hEnds := Case.ends_run_of_invocations hOf hChain
    rw [hFinding, Outcome.make_error_of_ne hText] at hEnds
    exact ⟨_, hEnds⟩

/-! An assertion fails in the set-up of a set. The teardown of another set runs that one, and a body runs this
other set; the teardown of its case panics. -/

def lowFailure : Failure := .assertion "low"

def failingSet : TestSet := { before := some (.ofWork (.pure (.error lowFailure))) }

def enclosingSet : TestSet := { after := some (.ofSet failingSet true .memory) }

def enclosingCase : Case :=
  { name := "nested", body := .ofSet enclosingSet true .memory, after := some (.panic .other) }

theorem chain_enclosingCase :
    let k : Case.Course :=
      ⟨none, some (.ok (.error (lowFailure.through [.teardown, .setup]))), some (.error .other)⟩
    World.Chain (enclosingCase.Does none [.case "nested"]) k.invocations {}
      { events := [⟨[.case "nested", .set 0, .set 0], .setSetupFailed lowFailure⟩,
        ⟨[.case "nested", .set 0], .setTeardownFailed (lowFailure.through [.setup])⟩,
        ⟨[.case "nested"], .teardownFailedLate .unknown⟩] } :=
  ⟨_, ⟨rfl, rfl⟩, _, ⟨_, rfl, rfl, rfl⟩, _, rfl, rfl⟩

theorem nested_aborts_worded_of_assertion :
    let text := "test set teardown failed: test set setup failed: low"
    let k : Case.Course :=
      ⟨none, some (.ok (.error (lowFailure.through [.teardown, .setup]))), some (.error .other)⟩
    enclosingSet.LeadsTo true .memory .teardown [] ∧
      (Hook.ofSet failingSet true .memory).Brings lowFailure [] [.setup] ∧
      enclosingCase.body.Brings lowFailure [] [.teardown, .setup] ∧ k.Of enclosingCase ∧
      (enclosingSet.run true .memory).Goes [] (.ok (.error ⟨.teardown, lowFailure.through [.setup]⟩)) ∧
      enclosingCase.body.run.Goes [] (.ok (.error (.unexpected (some text)))) ∧
      enclosingCase.run.Goes [.answer .newOutcome (7 : Nat)] (.ok ⟨7, "nested", .error, some text⟩) ∧
      ∃ w₁, World.Chain (enclosingCase.Does none [.case "nested"]) k.invocations {} w₁ ∧
        ∃ w', World.Ends none (enclosingCase.run.under []) {}
          (.finished ⟨w₁.nextOutcome, "nested", .error, some text⟩) w' := by
  intro text k
  have hWords : String.join ([Phase.teardown, .setup].map fun p => "test set " ++ p.name ++ " failed: ") ++
      lowFailure.message = text := by
    change _ = "test set teardown failed: test set setup failed: low"
    decide
  have hFails : (Hook.ofWork (.pure (.error lowFailure))).run.Goes [] (.ok (.error lowFailure)) := .pure _
  have hInner : (Hook.ofSet failingSet true .memory).Brings lowFailure [] [.setup] :=
    .ofSet .setup rfl (.own hFails)
  have hLead : enclosingSet.LeadsTo true .memory .teardown [] := .teardown (l := []) (.pure _) (.pure _)
  have hBody : enclosingCase.body.Brings lowFailure [] [.teardown, .setup] := .ofSet hLead rfl hInner
  have hTearDown : (Hook.invokeOption enclosingCase.after).Goes [] (.ok (.error .unknown)) :=
    Hook.goes_invoke_iff.mpr ⟨.error .other, .panic _, rfl⟩
  have hOf : k.Of enclosingCase := ⟨rfl, rfl, rfl⟩
  obtain ⟨-, hSet, hHook, hCase, hWorld⟩ := nested_aborts_worded lowFailure .teardown [.setup]
  rw [hWords] at hHook hCase hWorld
  refine ⟨hLead, hInner, hBody, hOf, ?_, ?_, ?_, _, chain_enclosingCase, ?_⟩
  · exact (hSet _ true .memory _ [] [] hLead rfl hInner [] _).mpr ⟨rfl, rfl⟩
  · exact (hHook _ [] hBody [] _).mpr ⟨rfl, rfl⟩
  · exact (hCase enclosingCase [] [] (.pure _) hBody [.answer .newOutcome (7 : Nat)] _).mpr
      ⟨[], .error .unknown, 7, rfl, hTearDown, rfl⟩
  · exact hWorld _ k none [] {} _ hOf (.inl rfl) rfl chain_enclosingCase

end TestBench
