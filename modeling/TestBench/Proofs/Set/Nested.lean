import TestBench.Proofs.Set.Account
import TestBench.Proofs.World.Nest

/-! # Cases and sets that run within each other

A case whose body and hooks are nests is itself a nest, and so is a set: each opens its span around all that it
does, and the runs in its body and its hooks open theirs inside. Main statement: what observers learn of runs,
however they are nested, agrees with what the runs return (`observers_agree`).
-/

namespace TestBench

namespace Nest

variable {α β : Type}

/-- A plain sequence: a panic goes on. -/
def bind (nest : Nest α) (f : α → Nest β) : Nest β :=
  nest.andThen fun
    | .ok a => f a
    | .error q => .code (.panic q)

def muted : {α : Type} → Nest α → Nest α
  | _, code p => .code p.muted
  | _, inside s nest => .inside s nest.muted
  | _, andThen nest f => .andThen nest.muted fun e => (f e).muted

def hook (nest : Nest Result) : Hook := .ofWork nest.program

def invoke (nest : Nest Result) : Nest Result := nest.muted.andThen fun e => .code (.pure (Ended.result e))

def invokeOption : Option (Nest Result) → Nest Result
  | none => .code (.pure (.ok ()))
  | some nest => nest.invoke

def runOption : Option (Nest Result) → Nest Result
  | none => .code (.pure (.ok ()))
  | some nest => nest.muted

theorem program_bind (nest : Nest α) (f : α → Nest β) :
    (nest.bind f).program = nest.program.bind fun a => (f a).program := by
  rw [Program.bind_eq_attempt_bind, bind, program]
  congr 1
  funext e
  cases e <;> rfl

theorem program_muted (nest : Nest α) : nest.muted.program = nest.program.muted := by
  induction nest with
  | code p => rfl
  | inside s nest ih => rw [muted, program, program, ih, Program.muted_within]
  | andThen nest f ih ihRest =>
    rw [muted, program, program, Program.muted_bind, ih, Program.attempt_muted]
    exact congrArg _ (funext ihRest)

theorem program_invoke (nest : Nest Result) : nest.invoke.program = nest.hook.invoke := by
  rw [Hook.invoke_eq, invoke, program, program_muted]
  rfl

theorem program_invokeOption (nest? : Option (Nest Result)) :
    (invokeOption nest?).program = Hook.invokeOption (nest?.map hook) := by
  cases nest? with
  | none => rfl
  | some nest => exact nest.program_invoke

theorem program_runOption (nest? : Option (Nest Result)) :
    (runOption nest?).program = Hook.runOption (nest?.map hook) := by
  cases nest? with
  | none => rfl
  | some nest => exact nest.program_muted

end Nest

/-! ## Cases -/

structure NestedCase : Type 1 where
  name : String
  body : Nest Result
  before : Option (Nest Result) := none
  after : Option (Nest Result) := none

namespace NestedCase

def case (c : NestedCase) : Case :=
  { name := c.name, body := c.body.hook, before := c.before.map Nest.hook, after := c.after.map Nest.hook }

def examine (c : NestedCase) : Nest Finding :=
  (Nest.invokeOption c.before).bind fun
    | .error f => .code (.notice ⟨[], .setupFailed f⟩ (.pure (.ofSetupFailure f)))
    | .ok () => c.body.invoke.bind fun r => .code (.pure (.ofBody r))

def tearDown (c : NestedCase) (found : Finding) : Nest Finding :=
  (Nest.invokeOption c.after).bind fun
    | .error f => .code (.notice ⟨[], found.teardownNotice f⟩ (.pure (found.afterTeardownFailure f)))
    | .ok () => .code (.pure found)

def nest (c : NestedCase) : Nest Outcome :=
  .inside (.case c.name) ((c.examine.bind c.tearDown).bind fun found => .code (c.case.conclude found))

theorem program_examine (c : NestedCase) : c.examine.program = c.case.examine := by
  rw [Case.examine_eq, examine, Nest.program_bind, Nest.program_invokeOption]
  congr 1
  funext r
  rcases r with f | ⟨⟩
  · rfl
  · change (c.body.invoke.bind fun r => Nest.code (.pure (Finding.ofBody r))).program = _
    rw [Nest.program_bind, Nest.program_invoke]
    rfl

theorem program_tearDown (c : NestedCase) (found : Finding) :
    (c.tearDown found).program = c.case.tearDown found := by
  rw [Case.tearDown_eq, tearDown, Nest.program_bind, Nest.program_invokeOption]
  congr 1
  funext r
  rcases r with f | ⟨⟩ <;> rfl

theorem program_nest (c : NestedCase) : c.nest.program = c.case.run := by
  rw [Case.run_eq, nest, Nest.program, Nest.program_bind, Nest.program_bind, program_examine,
    funext c.program_tearDown]
  rfl

end NestedCase

/-! ## Sets -/

structure NestedSet : Type 1 where
  tests : List NestedCase := []
  before : Option (Nest Result) := none
  after : Option (Nest Result) := none

namespace NestedSet

open TestSet (emit giveUp)

def set (s : NestedSet) : TestSet :=
  { tests := s.tests.map NestedCase.case, before := s.before.map Nest.hook, after := s.after.map Nest.hook }

def runTests (print : Bool) (sink : Sink) : List NestedCase → Summary → Nest Summary
  | [], s => .code (.pure s)
  | c :: rest, s =>
      c.nest.bind fun o => (Nest.code (s.enter o)).bind fun added =>
        (Nest.code (emit print sink o.line)).bind fun _ => runTests print sink rest added.2

def finish (print : Bool) (sink : Sink) (set : NestedSet) (s : Summary) : Nest (Except Abort Summary) :=
  (Nest.code (emit print sink s.line)).bind fun _ => (Nest.runOption set.after).bind fun
    | .error f => .code (giveUp .teardown (.setTeardownFailed f) f)
    | .ok () => .code (.notice ⟨[], .setFinished s.tally⟩ (.report (.summary s) (.pure (.ok s))))

def nest (print : Bool) (sink : Sink) (set : NestedSet) : Nest (Except Abort Summary) :=
  .inside (.set set.tests.length) <| (Nest.runOption set.before).bind fun
    | .error f => .code (giveUp .setup (.setSetupFailed f) f)
    | .ok () => (runTests print sink set.tests {}).bind (finish print sink set)

variable {print : Bool} {sink : Sink}

theorem program_runTests (cases : List NestedCase) (s : Summary) :
    (runTests print sink cases s).program = TestSet.runTests print sink (cases.map NestedCase.case) s := by
  induction cases generalizing s with
  | nil => rfl
  | cons c rest ih =>
    rw [List.map_cons, TestSet.runTests_cons, runTests, Nest.program_bind, NestedCase.program_nest]
    congr 1
    funext o
    rw [Nest.program_bind]
    congr 1
    funext added
    rw [Nest.program_bind]
    congr 1
    funext _
    exact ih added.2

theorem program_finish (set : NestedSet) (s : Summary) :
    (finish print sink set s).program = set.set.finish print sink s := by
  rw [TestSet.finish, finish, Nest.program_bind]
  congr 1
  funext _
  rw [Nest.program_bind, Nest.program_runOption]
  congr 1
  funext r
  rcases r with f | ⟨⟩ <;> rfl

theorem program_nest (set : NestedSet) : (set.nest print sink).program = set.set.run print sink := by
  have hLength : set.set.tests.length = set.tests.length := List.length_map ..
  rw [TestSet.run_eq, hLength, nest, Nest.program, Nest.program_bind, Nest.program_runOption]
  change _ = Program.within _ _
  congr 2
  funext r
  rcases r with f | ⟨⟩
  · rfl
  · change ((runTests print sink set.tests {}).bind (finish print sink set)).program = _
    rw [Nest.program_bind, program_runTests, funext (set.program_finish)]
    rfl

end NestedSet

/-! ## Observers -/

/-- What observers learn of runs agrees with what the runs return. -/
structure ObserversAgree : Prop where
  /-- A case that comes to its end, among whatever others and under whatever spans, has taken a course with an
  account of all that was announced: what is read of the run itself follows from the course and the outcome. -/
  caseRun : ∀ (c : Case) spans es o n, (c.run.under spans).Played es (.finished o) n →
    ∃ k : Case.Course, k.Account c spans o es
  /-- A set that comes to its end, panics, waits or is left has an account too: what is read of the run itself is
  what it returns, or nothing. -/
  setRun : ∀ (set : TestSet) print sink spans es t n, ((set.run print sink).under spans).Played es t n →
    ∃ p : TestSet.Passage, p.Account set print sink spans t.end? es
  mainRun : ∀ {α : Type} (p : Async α) turns limit w e w', World.run turns limit p w = (e, w') →
    ∃ es t n, p.Played es t n ∧ t.end? = e.end? ∧ w.Announces w' es
  /-- After a poll the same spans are open as before, whether the nest has come to its end, panics or waits, and
  all that was announced is under the spans of the runs around it, the outermost first. So it is when a nest is
  given up. -/
  poll : ∀ {α : Type} (nest : Nest α) opened w, (nest.poll opened w).2.1 = opened ∧
    (nest.program.under opened).turn w =
      ((nest.poll opened w).1.turn.under opened, (nest.poll opened w).2.2)
  resume : ∀ {α : Type} (held : Nest.Held α) now, (held.resume now).program = held.waiting.resume now
  drop : ∀ {α : Type} (held : Nest.Held α) opened w,
    held.drop opened w = (opened, w.drop held.waiting)
  /-- Cases and sets are nests of what is in them, so the accounts are those of their polls. -/
  nestedCase : ∀ c : NestedCase, c.nest.program = c.case.run
  nestedSet : ∀ (set : NestedSet) print sink, (set.nest print sink).program = set.set.run print sink
  polls : ∀ {α : Type} (nest : Nest α) opened es polled n, nest.Runs opened es polled n →
    (nest.program.under opened).Played es (polled.turn.under opened) n

/-- However runs are nested and however they end, observers learn what the runs return. -/
theorem observers_agree : ObserversAgree where
  caseRun _ _ _ _ _ h := h.shows.elim fun _ hShows => (Case.exists_account hShows).2.2
  setRun _ _ _ _ _ _ _ h := h.shows.elim fun _ hShows => TestSet.exists_account hShows
  mainRun _ _ _ _ _ _ h := World.exists_played h
  poll nest opened w := nest.poll_eq opened w
  resume held now := held.program_resume now
  drop held opened w := held.drop_eq opened w
  nestedCase c := c.program_nest
  nestedSet set _ _ := set.program_nest
  polls _ _ _ _ _ h := h.played

/-- The body of the outer case runs a case whose teardown panics, and passes. -/
example :
    let inner : NestedCase :=
      { name := "inner", body := .code (.pure (.error (.assertion "no"))), after := some (.code (.panic .other)) }
    let outer : NestedCase := { name := "outer", body := inner.nest.bind fun _ => .code (.pure (.ok ())) }
    (outer.nest.poll [] {}).2.2.events.map (fun e => (e.reading.spans, e.reading.message)) =
      [([("run", [("test", "outer")]), ("run", [("test", "inner")])], "teardown failed"),
        ([("run", [("test", "outer")]), ("run", [("test", "inner")])], "test finished"),
        ([("run", [("test", "outer")])], "test finished")] := by
  decide

end TestBench
