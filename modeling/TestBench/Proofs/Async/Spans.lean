import TestBench.Async.Control

/-! # Nested spans and caught panics

`Program.under` opens several spans at once, the outermost first. Spans, silence and the catching of
panics are independent of each other, and a plain sequence is one that passes panics on.
-/

namespace TestBench.Program

variable {τ α β : Type}

def under (spans : List Span) (p : Program τ α) : Program τ α := spans.foldr within p

/-- The rest of a plain sequence: a panic goes on. -/
def passPanic (f : α → Program τ β) : Except Payload α → Program τ β
  | .ok a => f a
  | .error q => .panic q

theorem bind_eq_attempt_bind (p : Program τ α) (f : α → Program τ β) :
    p.bind f = p.attempt.bind (passPanic f) := by
  induction p <;> simp_all [bind, attempt, passPanic]

theorem attempt_within (s : Span) (p : Program τ α) : (p.within s).attempt = p.attempt.within s := by
  induction p <;> simp_all [attempt, within]

theorem attempt_muted (p : Program τ α) : p.muted.attempt = p.attempt.muted := by
  induction p <;> simp_all [attempt, muted]

theorem muted_within (s : Span) (p : Program τ α) : (p.within s).muted = p.muted.within s := by
  induction p <;> simp_all [muted, within]

@[simp] theorem under_nil (p : Program τ α) : p.under [] = p := rfl

theorem within_under (s : Span) (spans : List Span) (p : Program τ α) :
    (p.under spans).within s = p.under (s :: spans) := rfl

theorem under_within (spans : List Span) (s : Span) (p : Program τ α) :
    (p.within s).under spans = p.under (spans ++ [s]) := by
  simp [under]

theorem under_bind (spans : List Span) (p : Program τ α) (f : α → Program τ β) :
    (p.bind f).under spans = (p.under spans).bind fun a => (f a).under spans := by
  induction spans with
  | nil => rfl
  | cons s spans ih => rw [← within_under, ih, within_bind]; rfl

theorem attempt_under (spans : List Span) (p : Program τ α) :
    (p.under spans).attempt = p.attempt.under spans := by
  induction spans with
  | nil => rfl
  | cons s spans ih => rw [← within_under, attempt_within, ih]; rfl

theorem muted_under (spans : List Span) (p : Program τ α) : (p.under spans).muted = p.muted.under spans := by
  induction spans with
  | nil => rfl
  | cons s spans ih => rw [← within_under, muted_within, ih]; rfl

@[simp] theorem under_pure (spans : List Span) (a : α) :
    (pure a : Program τ α).under spans = pure a := by
  induction spans with
  | nil => rfl
  | cons s spans ih => rw [← within_under, ih]; rfl

@[simp] theorem under_panic (spans : List Span) (q : Payload) :
    (panic q : Program τ α).under spans = panic q := by
  induction spans with
  | nil => rfl
  | cons s spans ih => rw [← within_under, ih]; rfl

@[simp] theorem under_fork (spans : List Span) (task : τ) (next : Program τ α) :
    (fork task next).under spans = fork task (next.under spans) := by
  induction spans with
  | nil => rfl
  | cons s spans ih => rw [← within_under, ih]; rfl

@[simp] theorem under_act (spans : List Span) (a : Action) (next : a.Answer → Program τ α) :
    (act a next).under spans = act a fun x => (next x).under spans := by
  induction spans with
  | nil => rfl
  | cons s spans ih => rw [← within_under, ih]; rfl

@[simp] theorem under_report (spans : List Span) (r : Report) (next : Program τ α) :
    (report r next).under spans = report r (next.under spans) := by
  induction spans with
  | nil => rfl
  | cons s spans ih => rw [← within_under, ih]; rfl

@[simp] theorem under_notice (spans : List Span) (e : Event) (next : Program τ α) :
    (notice e next).under spans = notice { e with spans := spans ++ e.spans } (next.under spans) := by
  induction spans with
  | nil => rfl
  | cons s spans ih => rw [← within_under, ih]; rfl

@[simp] theorem under_sleep (spans : List Span) (ms : Nat) (next : Program τ α) :
    (sleep ms next).under spans = sleep ms (next.under spans) := by
  induction spans with
  | nil => rfl
  | cons s spans ih => rw [← within_under, ih]; rfl

@[simp] theorem under_yield (spans : List Span) (next : Program τ α) :
    (yield next).under spans = yield (next.under spans) := by
  induction spans with
  | nil => rfl
  | cons s spans ih => rw [← within_under, ih]; rfl

@[simp] theorem under_await (spans : List Span) (slot : Nat) (timeout : Option Nat)
    (next : Option Result → Program τ α) :
    (await slot timeout next).under spans = await slot timeout fun x => (next x).under spans := by
  induction spans with
  | nil => rfl
  | cons s spans ih => rw [← within_under, ih]; rfl

end TestBench.Program
