import TestBench.Proofs.Async.Paths

/-! # What a program lets observers know

`Program.Shows` is one way through a program with the events on it, to its end or to a wait at which it is
left. All that it assumes of the world is that no number of an outcome is given twice. The laws split a way
through a sequence into a way through its first part and a way through the rest.
-/

namespace TestBench

/-- The answer to an action when the numbers below `n` were given before it and those below `n'` after it. -/
def Action.Numbers (n n' : Nat) : (a : Action) → a.Answer → Prop
  | .newOutcome => fun (id : Nat) => n ≤ id ∧ id < n'
  | _ => fun _ => n ≤ n'

theorem Action.Numbers.le {n n' : Nat} {a : Action} {x : a.Answer} (h : a.Numbers n n' x) : n ≤ n' := by
  cases a with
  | newOutcome => exact Nat.le_trans h.1 (Nat.le_of_lt h.2)
  | _ => exact h

theorem Action.Numbers.mono {m n n' : Nat} {a : Action} {x : a.Answer} (h : a.Numbers n n' x) (hFrom : m ≤ n) :
    a.Numbers m n' x := by
  cases a with
  | newOutcome => exact ⟨Nat.le_trans hFrom h.1, h.2⟩
  | _ => exact Nat.le_trans hFrom h

/-- The program shows some events on a way that begins when the numbers below `n` are given. The way leads
to an end, or it is left at a wait; then the numbers below `n'` are given. -/
inductive Program.Shows {α : Type} : Async α → Nat → List Event → Option (Except Payload α) → Nat → Prop
  | pure (a : α) {n n' : Nat} (h : n ≤ n') : Shows (.pure a) n [] (some (.ok a)) n'
  | panic (q : Payload) {n n' : Nat} (h : n ≤ n') : Shows (.panic q) n [] (some (.error q)) n'
  | fork {task : Task} {next : Async α} {n n' : Nat} {es : List Event} {e : Option (Except Payload α)}
      (h : Shows next n es e n') : Shows (.fork task next) n es e n'
  | act {a : Action} {next : a.Answer → Async α} {n m n' : Nat} {es : List Event}
      {e : Option (Except Payload α)} (x : a.Answer) (hNumbers : a.Numbers n m x)
      (h : Shows (next x) m es e n') : Shows (.act a next) n es e n'
  | report {r : Report} {next : Async α} {n n' : Nat} {es : List Event} {e : Option (Except Payload α)}
      (h : Shows next n es e n') : Shows (.report r next) n es e n'
  | notice {v : Event} {next : Async α} {n n' : Nat} {es : List Event} {e : Option (Except Payload α)}
      (h : Shows next n es e n') : Shows (.notice v next) n (v :: es) e n'
  | sleep {ms : Nat} {next : Async α} {n n' : Nat} {es : List Event} {e : Option (Except Payload α)}
      (h : Shows next n es e n') : Shows (.sleep ms next) n es e n'
  | yield {next : Async α} {n n' : Nat} {es : List Event} {e : Option (Except Payload α)}
      (h : Shows next n es e n') : Shows (.yield next) n es e n'
  | await {slot : Nat} {timeout : Option Nat} {next : Option Result → Async α} {n n' : Nat}
      {es : List Event} {e : Option (Except Payload α)} (x : Option Result) (h : Shows (next x) n es e n') :
      Shows (.await slot timeout next) n es e n'
  | sleeps {ms : Nat} {next : Async α} {n n' : Nat} (h : n ≤ n') : Shows (.sleep ms next) n [] none n'
  | yields {next : Async α} {n n' : Nat} (h : n ≤ n') : Shows (.yield next) n [] none n'
  | awaits {slot : Nat} {timeout : Option Nat} {next : Option Result → Async α} {n n' : Nat} (h : n ≤ n') :
      Shows (.await slot timeout next) n [] none n'

namespace Program

variable {α β : Type} {p : Async α} {n n' m : Nat} {es : List Event} {spans : List Span}

namespace Shows

theorem le {e : Option (Except Payload α)} (h : p.Shows n es e n') : n ≤ n' := by
  induction h with
  | pure _ h | panic _ h | sleeps h | yields h | awaits h => exact h
  | fork _ ih | report _ ih | notice _ ih | sleep _ ih | yield _ ih | await _ _ ih => exact ih
  | act _ hNumbers _ ih => exact Nat.le_trans hNumbers.le ih

theorem later {e : Option (Except Payload α)} (h : p.Shows n es e n') (hFrom : m ≤ n) : p.Shows m es e n' := by
  induction h with
  | pure a h => exact .pure a (Nat.le_trans hFrom h)
  | panic q h => exact .panic q (Nat.le_trans hFrom h)
  | fork _ ih => exact .fork (ih hFrom)
  | act x hNumbers h _ => exact .act x (hNumbers.mono hFrom) h
  | report _ ih => exact .report (ih hFrom)
  | notice _ ih => exact .notice (ih hFrom)
  | sleep _ ih => exact .sleep (ih hFrom)
  | yield _ ih => exact .yield (ih hFrom)
  | await x _ ih => exact .await x (ih hFrom)
  | sleeps h => exact .sleeps (Nat.le_trans hFrom h)
  | yields h => exact .yields (Nat.le_trans hFrom h)
  | awaits h => exact .awaits (Nat.le_trans hFrom h)

theorem goes {e : Except Payload α} (h : p.Shows n es (some e) n') : ∃ l, p.Goes l e := by
  generalize hEnd : some e = e' at h
  induction h with
  | pure a => cases hEnd; exact ⟨[], .pure a⟩
  | panic q => cases hEnd; exact ⟨[], .panic q⟩
  | fork _ ih => exact (ih hEnd).imp fun _ => .fork
  | act x _ _ ih => exact (ih hEnd).elim fun _ h => ⟨_, .act x h⟩
  | report _ ih => exact (ih hEnd).imp fun _ => .report
  | notice _ ih => exact (ih hEnd).imp fun _ => .notice
  | sleep _ ih => exact (ih hEnd).imp fun _ => .sleep
  | yield _ ih => exact (ih hEnd).imp fun _ => .yield
  | await x _ ih => exact (ih hEnd).elim fun _ h => ⟨_, .await x h⟩
  | sleeps | yields | awaits => cases hEnd

/-- A way through a caught program and what follows it leads through the program to its end and on from there,
or the program is left. -/
def Splits (p : Async α) (f : Except Payload α → Async β) (n : Nat) (es : List Event)
    (e : Option (Except Payload β)) (n' : Nat) : Prop :=
  (∃ x es₁ es₂ m, es = es₁ ++ es₂ ∧ p.Shows n es₁ (some x) m ∧ (f x).Shows m es₂ e n') ∨
    (e = none ∧ p.Shows n es none n')

theorem Splits.along {p' : Async α} {f : Except Payload α → Async β} {e : Option (Except Payload β)}
    (es₀ : List Event) (h : Splits p f m es e n')
    (hLeads : ∀ es e n', p.Shows m es e n' → p'.Shows n (es₀ ++ es) e n') : Splits p' f n (es₀ ++ es) e n' := by
  obtain ⟨x, es₁, es₂, l, rfl, hFirst, hRest⟩ | ⟨rfl, hLeft⟩ := h
  · exact .inl ⟨x, es₀ ++ es₁, es₂, l, (List.append_assoc ..).symm, hLeads _ _ _ hFirst, hRest⟩
  · exact .inr ⟨rfl, hLeads _ _ _ hLeft⟩

theorem of_attempt_bind {f : Except Payload α → Async β} {e : Option (Except Payload β)}
    (h : (p.attempt.bind f).Shows n es e n') : Splits p f n es e n' := by
  induction p generalizing n es with
  | pure a => exact .inl ⟨.ok a, [], es, n, rfl, .pure a (Nat.le_refl n), h⟩
  | panic q => exact .inl ⟨.error q, [], es, n, rfl, .panic q (Nat.le_refl n), h⟩
  | fork task next ih =>
    cases h with
    | fork h => exact (ih h).along [] fun _ _ _ => .fork
  | act a next ih =>
    cases h with
    | act x hNumbers h => exact (ih x h).along [] fun _ _ _ => .act x hNumbers
  | report r next ih =>
    cases h with
    | report h => exact (ih h).along [] fun _ _ _ => .report
  | notice v next ih =>
    cases h with
    | notice h => exact (ih h).along [v] fun _ _ _ => .notice
  | sleep ms next ih =>
    cases h with
    | sleep h => exact (ih h).along [] fun _ _ _ => .sleep
    | sleeps h => exact .inr ⟨rfl, .sleeps h⟩
  | yield next ih =>
    cases h with
    | yield h => exact (ih h).along [] fun _ _ _ => .yield
    | yields h => exact .inr ⟨rfl, .yields h⟩
  | await slot timeout next ih =>
    cases h with
    | await x h => exact (ih x h).along [] fun _ _ _ => .await x
    | awaits h => exact .inr ⟨rfl, .awaits h⟩

theorem of_pure {a : α} {e : Option (Except Payload α)} (h : (Program.pure a : Async α).Shows n es e n') :
    es = [] ∧ e = some (.ok a) ∧ n ≤ n' := by
  cases h with
  | pure _ h => exact ⟨rfl, rfl, h⟩

theorem of_panic {q : Payload} {e : Option (Except Payload α)}
    (h : (Program.panic q : Async α).Shows n es e n') : es = [] ∧ e = some (.error q) ∧ n ≤ n' := by
  cases h with
  | panic _ h => exact ⟨rfl, rfl, h⟩

theorem of_notice {v : Event} {e : Option (Except Payload α)} (h : (Program.notice v p).Shows n es e n') :
    ∃ rest, es = v :: rest ∧ p.Shows n rest e n' := by
  cases h with
  | notice h => exact ⟨_, rfl, h⟩

theorem of_report {r : Report} {e : Option (Except Payload α)} (h : (Program.report r p).Shows n es e n') :
    p.Shows n es e n' := by
  cases h with
  | report h => exact h

theorem of_bind {f : α → Async β} {e : Option (Except Payload β)} (h : (p.bind f).Shows n es e n') :
    (∃ a es₁ es₂ m, es = es₁ ++ es₂ ∧ p.Shows n es₁ (some (.ok a)) m ∧ (f a).Shows m es₂ e n') ∨
      (∃ q m, e = some (.error q) ∧ p.Shows n es (some (.error q)) m ∧ m ≤ n') ∨
      (e = none ∧ p.Shows n es none n') := by
  rw [bind_eq_attempt_bind] at h
  obtain ⟨q | a, es₁, es₂, m, rfl, hFirst, hRest⟩ | hLeft := h.of_attempt_bind
  · obtain ⟨rfl, rfl, hm⟩ := of_panic hRest
    exact .inr (.inl ⟨q, m, rfl, (List.append_nil es₁).symm ▸ hFirst, hm⟩)
  · exact .inl ⟨a, es₁, es₂, m, rfl, hFirst, hRest⟩
  · exact .inr (.inr hLeft)

theorem of_bind_ok {f : α → Async β} {b : β} (h : (p.bind f).Shows n es (some (.ok b)) n') :
    ∃ a es₁ es₂ m, es = es₁ ++ es₂ ∧ p.Shows n es₁ (some (.ok a)) m ∧
      (f a).Shows m es₂ (some (.ok b)) n' := by
  obtain hRest | ⟨q, m, hEnd, -, -⟩ | ⟨hEnd, -⟩ := h.of_bind
  · exact hRest
  · cases hEnd
  · cases hEnd

theorem of_calm_bind {f : α → Async β} {e : Option (Except Payload β)} (h : (p.bind f).Shows n es e n')
    (hCalm : p.Calm) :
    (∃ a es₁ es₂ m, es = es₁ ++ es₂ ∧ p.Shows n es₁ (some (.ok a)) m ∧ (f a).Shows m es₂ e n') ∨
      (e = none ∧ p.Shows n es none n') := by
  obtain hRest | ⟨q, m, -, hPanics, -⟩ | hLeft := h.of_bind
  · exact .inl hRest
  · exact hPanics.goes.elim fun l hGoes => (hCalm l q hGoes).elim
  · exact .inr hLeft

end Shows

theorem Calm.under (h : p.Calm) : (p.under spans).Calm := by
  induction spans with
  | nil => exact h
  | cons s spans ih => exact ih.within

end Program

/-! ## Parts of a way -/

/-- Events of a list of parts, one part after the other. -/
def Composed {ι : Type} (tells : ι → List Event → Prop) : List ι → List Event → Prop
  | [], es => es = []
  | part :: rest, es => ∃ es₁ es₂, es = es₁ ++ es₂ ∧ tells part es₁ ∧ Composed tells rest es₂

namespace Composed

variable {ι κ : Type} {tells : ι → List Event → Prop} {es es₁ es₂ : List Event}

theorem nil : Composed tells [] [] := rfl

theorem single {part : ι} (h : tells part es) : Composed tells [part] es :=
  ⟨es, [], (List.append_nil es).symm, h, rfl⟩

theorem append {xs ys : List ι} (h : Composed tells xs es₁) (hRest : Composed tells ys es₂) :
    Composed tells (xs ++ ys) (es₁ ++ es₂) := by
  induction xs generalizing es₁ with
  | nil => exact h ▸ hRest
  | cons part xs ih =>
    obtain ⟨es₃, es₄, rfl, hPart, h⟩ := h
    exact ⟨es₃, es₄ ++ es₂, List.append_assoc .., hPart, ih h⟩

theorem map {f : κ → ι} {xs : List κ} (h : Composed (fun x => tells (f x)) xs es) : Composed tells (xs.map f) es := by
  induction xs generalizing es with
  | nil => exact h
  | cons x xs ih =>
    obtain ⟨es₁, es₂, rfl, hPart, h⟩ := h
    exact ⟨es₁, es₂, rfl, hPart, ih h⟩

end Composed

end TestBench
