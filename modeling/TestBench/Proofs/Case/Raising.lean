import TestBench.Proofs.Case.Isolation
import TestBench.Proofs.Signal.Discipline

/-! # Ways of raising a message

A hook that cannot go on may return a failure, hand on an error from elsewhere, or panic, in its call or in its
work. Whoever invokes the hook cannot tell these apart: only what came before and the text count
(`Hook.RaisesAfter.invoke_eq`). Main statement: a case runs as the same program, and so does a wait for a
callback, whichever way is taken (`raised_alike`).
-/

namespace TestBench

/-- An error from elsewhere becomes an unexpected failure with the text that the error shows. -/
def Failure.ofError {ε : Type} (shown : ε → String) (e : ε) : Failure := .ofMessage (shown e)

/-- The program raises the text at once. An empty text counts as no message, and then it may as well
say nothing. -/
inductive Raises : String → Async Result → Prop
  | unexpected (s : String) : Raises s (.pure (.error (.ofMessage s)))
  | converted {ε : Type} (shown : ε → String) (e : ε) :
      Raises (shown e) (.pure (.error (.ofError shown e)))
  | panicked (s : String) : Raises s (.panic (.text s))
  | unknown : Raises "" (.pure (.error .unknown))
  | other : Raises "" (.panic .other)

/-- What `lead` leads to: a result, or else the point where `raise` takes over. -/
def Async.orRaise (lead : Async (Option Result)) (raise : Async Result) : Async Result :=
  lead.bind fun r => r.elim raise .pure

/-- The hook does the same as `lead` and raises the text where `lead` ends without a result, either in its
work or already in the call. -/
inductive Hook.RaisesAfter (s : String) : Async (Option Result) → Hook → Prop
  | inWork {γ : Type} (call : Async γ) (work : γ → Async (Option Result)) {raise : Async Result}
      (h : Raises s raise) :
      RaisesAfter s (call.bind work) (call.bind fun c => .pure ((work c).orRaise raise))
  | inCall (call : Async (Option (Async Result))) {q : Payload} (h : Raises s (.panic q)) :
      RaisesAfter s (call.bind fun work => work.elim (.pure none) fun work => work.bind fun r => .pure (some r))
        (call.bind fun work => work.elim (.panic q) .pure)

theorem Raises.attempt_bind {s : String} {raise : Async Result} (h : Raises s raise) :
    raise.attempt.bind (fun e => .pure (Ended.result e)) = .pure (.error (.ofMessage s)) := by
  cases h <;> rfl

namespace Async

variable {s : String} {raise : Async Result}

theorem orRaise_attempt_bind (lead : Async (Option Result)) (h : Raises s raise) :
    (lead.orRaise raise).attempt.bind (fun e => .pure (Ended.result e)) =
      lead.attempt.bind fun r => .pure <| match r with
        | .ok r => r.getD (.error (.ofMessage s))
        | .error q => .error (.ofPayload q) := by
  rw [orRaise, Program.attempt_bind, Program.bind_assoc]
  congr 1
  funext r
  match r with
  | .error q => rfl
  | .ok (some r) => rfl
  | .ok none => exact h.attempt_bind

theorem runWork_eq (slot : Nat) (work : Async Result) :
    runWork slot work = (work.attempt.bind fun e => .pure (Ended.result e)).bind fun
      | .ok () => .pure ()
      | .error f => (settle slot (.error f)).bind fun _ => .pure () := by
  rw [Program.bind_assoc]
  change work.attempt.bind _ = _
  congr 1
  funext e
  match e with
  | .ok (.ok ()) => rfl
  | .ok (.error f) => rfl
  | .error q => rfl

theorem runWork_orRaise (slot : Nat) (lead : Async (Option Result)) {raise' : Async Result}
    (h : Raises s raise) (h' : Raises s raise') :
    runWork slot (lead.orRaise raise) = runWork slot (lead.orRaise raise') := by
  rw [runWork_eq, runWork_eq, orRaise_attempt_bind lead h, orRaise_attempt_bind lead h']

theorem untilSignal_congr {γ : Type} (called : Nat → Async γ) {work work' : Nat → γ → Async Result}
    (hWork : ∀ slot c, runWork slot (work slot c) = runWork slot (work' slot c)) (timeout : Option Nat) :
    untilSignal (fun slot => (called slot).bind fun c => .pure (work slot c)) timeout =
      untilSignal (fun slot => (called slot).bind fun c => .pure (work' slot c)) timeout := by
  rw [untilSignal_eq, untilSignal_eq]
  refine congrArg (Program.act .openSlot) (funext fun slot => ?_)
  rw [Program.attempt_bind, Program.attempt_bind, Program.bind_assoc, Program.bind_assoc]
  refine congrArg (called slot).attempt.bind (funext fun x => ?_)
  match x with
  | .error q => rfl
  | .ok c =>
    exact congrArg (fun p => (spawnHolding slot p).bind fun _ => .await slot timeout (answered timeout))
      (hWork slot c)

end Async

namespace Hook.RaisesAfter

variable {s : String} {lead : Async (Option Result)} {h h' : Hook}

/-- From its call to the end of its work the hook is `lead`, with some way of raising the text behind. -/
theorem exists_bind_eq (hRaises : h.RaisesAfter s lead) :
    ∃ raise, Raises s raise ∧ h.bind id = lead.orRaise raise := by
  cases hRaises with
  | @inWork γ call work raise hRaise =>
    refine ⟨raise, hRaise, ?_⟩
    rw [Async.orRaise, Program.bind_assoc, Program.bind_assoc]
    rfl
  | @inCall call q hRaise =>
    refine ⟨.panic q, hRaise, ?_⟩
    rw [Async.orRaise, Program.bind_assoc, Program.bind_assoc]
    congr 1
    funext work
    match work with
    | none => rfl
    | some work =>
      change work = (work.bind fun r => .pure (some r)).bind _
      rw [Program.bind_assoc]
      exact work.bind_pure.symm

theorem invoke_eq (hRaises : h.RaisesAfter s lead) :
    h.invoke = (lead.attempt.bind fun r => .pure <| match r with
      | .ok r => r.getD (.error (.ofMessage s))
      | .error q => .error (.ofPayload q)).muted := by
  obtain ⟨raise, hRaise, hBind⟩ := hRaises.exists_bind_eq
  calc h.invoke
    _ = ((h.bind id).muted.attempt.bind fun e => .pure (Ended.result e)) := Hook.invoke_eq h
    _ = ((h.bind id).attempt.bind fun e => .pure (Ended.result e)).muted := by
      rw [Program.attempt_muted, Program.muted_bind]
      rfl
    _ = _ := by rw [hBind, Async.orRaise_attempt_bind lead hRaise]

theorem invoke_congr (hRaises : h.RaisesAfter s lead) (hRaises' : h'.RaisesAfter s lead) :
    h.invoke = h'.invoke := by
  rw [hRaises.invoke_eq, hRaises'.invoke_eq]

end Hook.RaisesAfter

namespace Case

def withHook (c : Case) (h : Hook) : Role → Case
  | .setup => { c with before := some h }
  | .body => { c with body := h }
  | .teardown => { c with after := some h }

theorem run_withHook_congr (c : Case) {h h' : Hook} (hInvoke : h.invoke = h'.invoke) (role : Role) :
    (c.withHook h role).run = (c.withHook h' role).run := by
  cases role with
  | setup =>
    have hExamine : (c.withHook h .setup).examine = (c.withHook h' .setup).examine := by
      rw [examine_eq, examine_eq]
      simp only [withHook, Hook.invokeOption, hInvoke]
    rw [run_eq, run_eq, hExamine]
    rfl
  | body =>
    have hExamine : (c.withHook h .body).examine = (c.withHook h' .body).examine := by
      rw [examine_eq, examine_eq]
      simp only [withHook, hInvoke]
    rw [run_eq, run_eq, hExamine]
    rfl
  | teardown =>
    have hTearDown : (c.withHook h .teardown).tearDown = (c.withHook h' .teardown).tearDown := by
      funext found
      rw [tearDown_eq, tearDown_eq]
      simp only [withHook, Hook.invokeOption, hInvoke]
    rw [run_eq, run_eq, hTearDown]
    rfl

end Case

/-- It makes no difference how a text is raised, if the same was done before. A case whose set-up, body or
teardown raises it runs as the same program: with the same calls, notices and outcomes in every world, beside
whatever tasks. A wait for a callback whose work raises it is the same program too. -/
theorem raised_alike (s : String) :
    (∀ (lead : Async (Option Result)) (h h' : Hook), h.RaisesAfter s lead → h'.RaisesAfter s lead →
      ∀ (c : Case) (role : Role), (c.withHook h role).run = (c.withHook h' role).run) ∧
    ∀ (γ : Type) (called : Nat → Async γ) (lead : Nat → γ → Async (Option Result)) (raise raise' : Async Result),
      Raises s raise → Raises s raise' → ∀ timeout : Option Nat,
        Async.untilSignal (fun slot => (called slot).bind fun c => .pure ((lead slot c).orRaise raise)) timeout =
          Async.untilSignal (fun slot => (called slot).bind fun c => .pure ((lead slot c).orRaise raise'))
            timeout := by
  constructor
  · intro lead h h' hRaises hRaises' c role
    exact c.run_withHook_congr (hRaises.invoke_congr hRaises') role
  · intro γ called lead raise raise' hRaise hRaise' timeout
    refine Async.untilSignal_congr called (fun slot c => ?_) timeout
    exact Async.runWork_orRaise slot (lead slot c) hRaise hRaise'

/-- A teardown that panics in its call without a text, and one whose work returns the unknown failure. -/
theorem raised_alike_of_silent_panic :
    let opened : Async Unit := Async.log "opened"
    let lead : Async (Option Result) := opened.bind fun _ => .pure none
    let panicking : Hook := opened.bind fun _ => .panic .other
    let failing : Hook := opened.bind fun _ => .pure (.pure (.error .unknown))
    let c : Case := { name := "closes", body := .ofWork (.pure (.ok ())) }
    panicking.RaisesAfter "" lead ∧ failing.RaisesAfter "" lead ∧
      (c.withHook panicking .teardown).run = (c.withHook failing .teardown).run ∧
        Raises "" (.panic .other) ∧ Raises "" (.pure (.error .unknown)) ∧
          Async.untilSignal (fun _ => .pure (lead.orRaise (.panic .other))) none =
            Async.untilSignal (fun _ => .pure (lead.orRaise (.pure (.error .unknown)))) none := by
  intro opened lead panicking failing c
  have hPanicking : panicking.RaisesAfter "" lead := .inCall (opened.bind fun _ => .pure none) .other
  have hFailing : failing.RaisesAfter "" lead := .inWork opened (fun _ => .pure none) .unknown
  refine ⟨hPanicking, hFailing, ?_, .other, .unknown, ?_⟩
  · exact (raised_alike "").1 lead panicking failing hPanicking hFailing c .teardown
  · exact (raised_alike "").2 Unit (fun _ => .pure ()) (fun _ _ => lead) _ _ .other .unknown none

end TestBench
