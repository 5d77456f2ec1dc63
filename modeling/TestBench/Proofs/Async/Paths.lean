import TestBench.Proofs.Async.Spans

/-! # Paths through a program

The replies that a program gets decide which way it goes. `Program.Goes` is one way from the beginning to
the end, with the replies on it, whatever world gives them. The laws say how the transformations of a
program change its paths: only `attempt` changes the end, and none changes the replies.
-/

namespace TestBench

/-- What comes back to a program: the answer to an action, or the outcome of a wait for a slot. -/
inductive Reply
  | answer (a : Action) (x : a.Answer)
  | found (slot : Nat) (result : Option Result)

/-- The program goes one way to its end: with the value that it returns, or in a panic. -/
inductive Program.Goes {τ α : Type} : Program τ α → List Reply → Except Payload α → Prop
  | pure (a : α) : Goes (.pure a) [] (.ok a)
  | panic (q : Payload) : Goes (.panic q) [] (.error q)
  | fork {task : τ} {next : Program τ α} {l : List Reply} {e : Except Payload α} (h : Goes next l e) :
      Goes (.fork task next) l e
  | act {a : Action} {next : a.Answer → Program τ α} {l : List Reply} {e : Except Payload α}
      (x : a.Answer) (h : Goes (next x) l e) : Goes (.act a next) (.answer a x :: l) e
  | report {r : Report} {next : Program τ α} {l : List Reply} {e : Except Payload α} (h : Goes next l e) :
      Goes (.report r next) l e
  | notice {n : Event} {next : Program τ α} {l : List Reply} {e : Except Payload α} (h : Goes next l e) :
      Goes (.notice n next) l e
  | sleep {ms : Nat} {next : Program τ α} {l : List Reply} {e : Except Payload α} (h : Goes next l e) :
      Goes (.sleep ms next) l e
  | yield {next : Program τ α} {l : List Reply} {e : Except Payload α} (h : Goes next l e) :
      Goes (.yield next) l e
  | await {slot : Nat} {timeout : Option Nat} {next : Option Result → Program τ α} {l : List Reply}
      {e : Except Payload α} (x : Option Result) (h : Goes (next x) l e) :
      Goes (.await slot timeout next) (.found slot x :: l) e

namespace Program

variable {τ α β : Type} {p : Program τ α} {l : List Reply}

@[simp] theorem goes_pure_iff {a : α} {e : Except Payload α} :
    (pure a : Program τ α).Goes l e ↔ l = [] ∧ e = .ok a := by
  constructor
  · rintro ⟨⟩
    exact ⟨rfl, rfl⟩
  · rintro ⟨rfl, rfl⟩
    exact .pure a

@[simp] theorem goes_panic_iff {q : Payload} {e : Except Payload α} :
    (panic q : Program τ α).Goes l e ↔ l = [] ∧ e = .error q := by
  constructor
  · rintro ⟨⟩
    exact ⟨rfl, rfl⟩
  · rintro ⟨rfl, rfl⟩
    exact .panic q

@[simp] theorem goes_fork_iff {task : τ} {e : Except Payload α} :
    (fork task p).Goes l e ↔ p.Goes l e := by
  constructor
  · rintro ⟨⟩
    assumption
  · exact .fork

@[simp] theorem goes_act_iff {a : Action} {next : a.Answer → Program τ α} {e : Except Payload α} :
    (act a next).Goes l e ↔ ∃ x rest, l = .answer a x :: rest ∧ (next x).Goes rest e := by
  constructor
  · rintro ⟨⟩
    exact ⟨_, _, rfl, ‹_›⟩
  · rintro ⟨x, rest, rfl, h⟩
    exact .act x h

@[simp] theorem goes_report_iff {r : Report} {e : Except Payload α} :
    (report r p).Goes l e ↔ p.Goes l e := by
  constructor
  · rintro ⟨⟩
    assumption
  · exact .report

@[simp] theorem goes_notice_iff {n : Event} {e : Except Payload α} :
    (notice n p).Goes l e ↔ p.Goes l e := by
  constructor
  · rintro ⟨⟩
    assumption
  · exact .notice

@[simp] theorem goes_sleep_iff {ms : Nat} {e : Except Payload α} :
    (sleep ms p).Goes l e ↔ p.Goes l e := by
  constructor
  · rintro ⟨⟩
    assumption
  · exact .sleep

@[simp] theorem goes_yield_iff {e : Except Payload α} : (yield p).Goes l e ↔ p.Goes l e := by
  constructor
  · rintro ⟨⟩
    assumption
  · exact .yield

@[simp] theorem goes_await_iff {slot : Nat} {timeout : Option Nat} {next : Option Result → Program τ α}
    {e : Except Payload α} :
    (await slot timeout next).Goes l e ↔ ∃ x rest, l = .found slot x :: rest ∧ (next x).Goes rest e := by
  constructor
  · rintro ⟨⟩
    exact ⟨_, _, rfl, ‹_›⟩
  · rintro ⟨x, rest, rfl, h⟩
    exact .await x h

theorem goes_attempt_bind_iff {f : Except Payload α → Program τ β} {e : Except Payload β} :
    (p.attempt.bind f).Goes l e ↔ ∃ x l₁ l₂, l = l₁ ++ l₂ ∧ p.Goes l₁ x ∧ (f x).Goes l₂ e := by
  constructor
  · intro h
    induction p generalizing l with
    | pure a => exact ⟨.ok a, [], l, rfl, .pure a, h⟩
    | panic q => exact ⟨.error q, [], l, rfl, .panic q, h⟩
    | fork task next ih =>
      obtain ⟨x, l₁, l₂, rfl, hFirst, hRest⟩ := ih (goes_fork_iff.mp h)
      exact ⟨x, l₁, l₂, rfl, .fork hFirst, hRest⟩
    | act a next ih =>
      obtain ⟨y, rest, rfl, hNext⟩ := goes_act_iff.mp h
      obtain ⟨x, l₁, l₂, rfl, hFirst, hRest⟩ := ih y hNext
      exact ⟨x, .answer a y :: l₁, l₂, rfl, .act y hFirst, hRest⟩
    | report r next ih =>
      obtain ⟨x, l₁, l₂, rfl, hFirst, hRest⟩ := ih (goes_report_iff.mp h)
      exact ⟨x, l₁, l₂, rfl, .report hFirst, hRest⟩
    | notice n next ih =>
      obtain ⟨x, l₁, l₂, rfl, hFirst, hRest⟩ := ih (goes_notice_iff.mp h)
      exact ⟨x, l₁, l₂, rfl, .notice hFirst, hRest⟩
    | sleep ms next ih =>
      obtain ⟨x, l₁, l₂, rfl, hFirst, hRest⟩ := ih (goes_sleep_iff.mp h)
      exact ⟨x, l₁, l₂, rfl, .sleep hFirst, hRest⟩
    | yield next ih =>
      obtain ⟨x, l₁, l₂, rfl, hFirst, hRest⟩ := ih (goes_yield_iff.mp h)
      exact ⟨x, l₁, l₂, rfl, .yield hFirst, hRest⟩
    | await slot timeout next ih =>
      obtain ⟨y, rest, rfl, hNext⟩ := goes_await_iff.mp h
      obtain ⟨x, l₁, l₂, rfl, hFirst, hRest⟩ := ih y hNext
      exact ⟨x, .found slot y :: l₁, l₂, rfl, .await y hFirst, hRest⟩
  · rintro ⟨x, l₁, l₂, rfl, hFirst, hRest⟩
    induction hFirst with
    | pure | panic => exact hRest
    | fork _ ih => exact .fork (ih hRest)
    | act y _ ih => exact .act y (ih hRest)
    | report _ ih => exact .report (ih hRest)
    | notice _ ih => exact .notice (ih hRest)
    | sleep _ ih => exact .sleep (ih hRest)
    | yield _ ih => exact .yield (ih hRest)
    | await y _ ih => exact .await y (ih hRest)

theorem goes_bind_iff {f : α → Program τ β} {e : Except Payload β} :
    (p.bind f).Goes l e ↔
      ∃ x l₁ l₂, l = l₁ ++ l₂ ∧ p.Goes l₁ x ∧ (passPanic f x).Goes l₂ e := by
  rw [bind_eq_attempt_bind]
  exact goes_attempt_bind_iff

/-- A sequence panics in its first part, or in the rest after the first part has returned. -/
theorem goes_bind_error_iff {f : α → Program τ β} {q : Payload} :
    (p.bind f).Goes l (.error q) ↔ p.Goes l (.error q) ∨
      ∃ a l₁ l₂, l = l₁ ++ l₂ ∧ p.Goes l₁ (.ok a) ∧ (f a).Goes l₂ (.error q) := by
  rw [goes_bind_iff]
  constructor
  · rintro ⟨q' | a, l₁, l₂, rfl, hFirst, hRest⟩
    · obtain ⟨rfl, ⟨⟩⟩ := goes_panic_iff.mp hRest
      rw [List.append_nil]
      exact .inl hFirst
    · exact .inr ⟨a, l₁, l₂, rfl, hFirst, hRest⟩
  · rintro (h | ⟨a, l₁, l₂, rfl, hFirst, hRest⟩)
    · exact ⟨.error q, l, [], (List.append_nil l).symm, h, .panic q⟩
    · exact ⟨.ok a, l₁, l₂, rfl, hFirst, hRest⟩

@[simp] theorem goes_muted_iff {e : Except Payload α} : p.muted.Goes l e ↔ p.Goes l e := by
  induction p generalizing l <;> simp_all [muted]

@[simp] theorem goes_within_iff {s : Span} {e : Except Payload α} :
    (p.within s).Goes l e ↔ p.Goes l e := by
  induction p generalizing l <;> simp_all [within]

theorem goes_collect_error_iff {earlier : List Report} {q : Payload} :
    (p.collect earlier).Goes l (.error q) ↔ p.Goes l (.error q) := by
  induction p generalizing l earlier <;> simp_all [collect]

/-! ## Programs that follow a known path -/

theorem Goes.attempt_bind_iff {x : Except Payload α} (h : p.Goes l x) {f : Except Payload α → Program τ β}
    {rest : List Reply} {e : Except Payload β} : (p.attempt.bind f).Goes (l ++ rest) e ↔ (f x).Goes rest e := by
  induction h with
  | pure | panic => exact Iff.rfl
  | fork _ ih => exact goes_fork_iff.trans ih
  | report _ ih => exact goes_report_iff.trans ih
  | notice _ ih => exact goes_notice_iff.trans ih
  | sleep _ ih => exact goes_sleep_iff.trans ih
  | yield _ ih => exact goes_yield_iff.trans ih
  | @act a next l e x _ ih =>
    refine goes_act_iff.trans ⟨?_, fun h => ⟨x, l ++ rest, rfl, ih.mpr h⟩⟩
    rintro ⟨y, _, hReplies, h⟩
    cases hReplies
    exact ih.mp h
  | @await slot timeout next l e x _ ih =>
    refine goes_await_iff.trans ⟨?_, fun h => ⟨x, l ++ rest, rfl, ih.mpr h⟩⟩
    rintro ⟨y, _, hReplies, h⟩
    cases hReplies
    exact ih.mp h

theorem Goes.bind_iff {a : α} (h : p.Goes l (.ok a)) {f : α → Program τ β} {rest : List Reply}
    {e : Except Payload β} : (p.bind f).Goes (l ++ rest) e ↔ (f a).Goes rest e := by
  rw [bind_eq_attempt_bind]
  exact h.attempt_bind_iff

/-- The same replies lead to the same end, and there are no more of them. -/
theorem Goes.unique {x e : Except Payload α} (h : p.Goes l x) {rest : List Reply} :
    p.Goes (l ++ rest) e ↔ rest = [] ∧ e = x := by
  constructor
  · intro h'
    have hBoth : (p.attempt.bind .pure).Goes (l ++ rest) (.ok e) :=
      goes_attempt_bind_iff.mpr ⟨e, l ++ rest, [], (List.append_nil _).symm, h', .pure e⟩
    obtain ⟨rfl, hEnd⟩ := goes_pure_iff.mp (h.attempt_bind_iff.mp hBoth)
    exact ⟨rfl, Except.ok.inj hEnd⟩
  · rintro ⟨rfl, rfl⟩
    rwa [List.append_nil]

theorem Goes.collect {a : α} {x : Except Payload α} (h : p.Goes l x) (hEnd : x = .ok a) (earlier : List Report) :
    ∃ reports, (p.collect earlier).Goes l (.ok (a, reports)) := by
  -- The end is kept as a variable with an equation, since the induction needs an index that is one.
  induction h generalizing earlier with
  | pure =>
    obtain rfl := Except.ok.inj hEnd
    exact ⟨earlier, .pure _⟩
  | panic => cases hEnd
  | fork _ ih => exact (ih hEnd earlier).imp fun _ => .fork
  | act x _ ih => exact (ih hEnd earlier).imp fun _ => .act x
  | report _ ih => exact ih hEnd _
  | notice _ ih => exact (ih hEnd earlier).imp fun _ => .notice
  | sleep _ ih => exact (ih hEnd earlier).imp fun _ => .sleep
  | yield _ ih => exact (ih hEnd earlier).imp fun _ => .yield
  | await x _ ih => exact (ih hEnd earlier).imp fun _ => .await x

/-! ## Programs that never panic -/

/-- No reply that the program can get makes it panic. -/
def Calm (p : Program τ α) : Prop := ∀ l q, ¬ p.Goes l (.error q)

theorem calm_pure (a : α) : (pure a : Program τ α).Calm := by
  intro l q h
  cases h

theorem Calm.bind {f : α → Program τ β} (h : p.Calm) (hRest : ∀ a, (f a).Calm) : (p.bind f).Calm := by
  intro l q hGoes
  obtain hFirst | ⟨a, l₁, l₂, -, -, hGoes⟩ := goes_bind_error_iff.mp hGoes
  · exact h l q hFirst
  · exact hRest a l₂ q hGoes

theorem Calm.fork {task : τ} (h : p.Calm) : (fork task p).Calm := fun l q hGoes =>
  h l q (goes_fork_iff.mp hGoes)

theorem Calm.act {a : Action} {next : a.Answer → Program τ α} (h : ∀ x, (next x).Calm) :
    (act a next).Calm := by
  intro l q hGoes
  obtain ⟨x, rest, -, hGoes⟩ := goes_act_iff.mp hGoes
  exact h x rest q hGoes

theorem Calm.report {r : Report} (h : p.Calm) : (report r p).Calm := fun l q hGoes =>
  h l q (goes_report_iff.mp hGoes)

theorem Calm.notice {n : Event} (h : p.Calm) : (notice n p).Calm := fun l q hGoes =>
  h l q (goes_notice_iff.mp hGoes)

theorem Calm.sleep {ms : Nat} (h : p.Calm) : (sleep ms p).Calm := fun l q hGoes =>
  h l q (goes_sleep_iff.mp hGoes)

theorem Calm.yield (h : p.Calm) : (yield p).Calm := fun l q hGoes => h l q (goes_yield_iff.mp hGoes)

theorem Calm.muted (h : p.Calm) : p.muted.Calm := fun l q hGoes => h l q (goes_muted_iff.mp hGoes)

theorem Calm.within {s : Span} (h : p.Calm) : (p.within s).Calm := fun l q hGoes =>
  h l q (goes_within_iff.mp hGoes)

end Program

end TestBench
