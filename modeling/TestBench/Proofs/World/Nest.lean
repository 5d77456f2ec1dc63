import TestBench.Proofs.World.Played

/-! # Runs within runs

A run opens a span of its own for as long as it is at work. What is at work in a task at a time is a nest of
runs, and the task keeps a stack of the spans that are open. Whenever a nest is polled each of its runs puts
its span on the stack, polls what is inside, and takes the span off again, whether that has come to its end,
waits, or panics. Main statements: a poll leaves the stack as it was and does what a turn of the program does
whose notices are put under the spans of the runs around them (`Nest.poll_eq`), and so does the dropping of a
nest (`Nest.Held.drop_eq`).
-/

namespace TestBench

/-- What is at work in a task: code, a run under a span, or a nest with what follows it. What follows also
takes over a panic. -/
inductive Nest : Type → Type 1
  | code {α : Type} (p : Async α) : Nest α
  | inside {α : Type} (s : Span) (nest : Nest α) : Nest α
  | andThen {α β : Type} (nest : Nest α) (f : Except Payload α → Nest β) : Nest β

inductive Nest.Held : Type → Type 1
  | code {α : Type} (x : Waiting α) : Held α
  | inside {α : Type} (s : Span) (held : Held α) : Held α
  | andThen {α β : Type} (held : Held α) (f : Except Payload α → Nest β) : Held β

inductive Nest.Polled (α : Type) : Type 1
  | finished (a : α)
  | panicked (q : Payload)
  | waits (held : Nest.Held α)
  | yields (held : Nest.Held α)

def Event.under (spans : List Span) (e : Event) : Event := { e with spans := spans ++ e.spans }

namespace Nest

variable {α β : Type}

namespace Polled

def ofTurn : Turn α → Polled α
  | .finished a => finished a
  | .panicked q => panicked q
  | .waits x => waits (.code x)
  | .yields x => yields (.code x)

def inside (s : Span) : Polled α → Polled α
  | finished a => finished a
  | panicked q => panicked q
  | waits held => waits (.inside s held)
  | yields held => yields (.inside s held)

end Polled

/-- Polls a nest in a world, in a task with some spans open. All that code gives notice of is put under the
spans that are open at that time. -/
def poll : {α : Type} → Nest α → List Span → World → Polled α × List Span × World
  | _, code p, opened, w =>
      let (turn, w') := p.turn { w with events := [] }
      (.ofTurn turn, opened, { w' with events := w.events ++ w'.events.map (Event.under opened) })
  | _, inside s nest, opened, w =>
      let (polled, opened, w) := nest.poll (opened ++ [s]) w
      (polled.inside s, opened.dropLast, w)
  | _, andThen nest f, opened, w =>
      match nest.poll opened w with
      | (.finished a, opened, w) => (f (.ok a)).poll opened w
      | (.panicked q, opened, w) => (f (.error q)).poll opened w
      | (.waits held, opened, w) => (.waits (.andThen held f), opened, w)
      | (.yields held, opened, w) => (.yields (.andThen held f), opened, w)

def Held.resume (now : Nat) : {α : Type} → Held α → Nest α
  | _, code x => .code (x.resume now)
  | _, inside s held => .inside s (held.resume now)
  | _, andThen held f => .andThen (held.resume now) f

/-- Gives up a nest that waits, in a task with some spans open. Each run has its span open while what is inside
is given up. -/
def Held.drop : {α : Type} → Held α → List Span → World → List Span × World
  | _, code x, opened, w => (opened, w.drop x)
  | _, inside s held, opened, w =>
      let (opened, w) := held.drop (opened ++ [s]) w
      (opened.dropLast, w)
  | _, andThen held _, opened, w => held.drop opened w

end Nest

/-! ## Nests as programs -/

namespace Waiting

variable {α β : Type}

def under (spans : List Span) : Waiting α → Waiting α
  | ready next => ready (next.under spans)
  | sleeping due next => sleeping due (next.under spans)
  | awaiting slot due next => awaiting slot due fun x => (next x).under spans
  | postponed slot timeout next => postponed slot timeout fun x => (next x).under spans

theorem under_under (outer spans : List Span) (x : Waiting α) :
    (x.under spans).under outer = x.under (outer ++ spans) := by
  cases x <;> simp [under, Program.under]

theorem resume_under (spans : List Span) (x : Waiting α) (now : Nat) :
    (x.under spans).resume now = (x.resume now).under spans := by
  cases x <;> simp [under, resume]

theorem under_andThen (spans : List Span) (x : Waiting α) (f : Except Payload α → Async β) :
    (x.andThen f).under spans = (x.under spans).andThen fun e => (f e).under spans := by
  cases x <;> simp [under, andThen, Program.under_bind, Program.attempt_under]

end Waiting

def Turn.under {α : Type} (spans : List Span) : Turn α → Turn α
  | finished a => finished a
  | panicked q => panicked q
  | waits x => waits (x.under spans)
  | yields x => yields (x.under spans)

theorem Turn.under_under {α : Type} (outer spans : List Span) (t : Turn α) :
    (t.under spans).under outer = t.under (outer ++ spans) := by
  cases t <;> simp [under, Waiting.under_under]

namespace Nest

variable {α β : Type}

/-- The program of a nest: each run puts what is inside under its span. -/
def program : {α : Type} → Nest α → Async α
  | _, code p => p
  | _, inside s nest => nest.program.within s
  | _, andThen nest f => nest.program.attempt.bind fun e => (f e).program

def Held.waiting : {α : Type} → Held α → Waiting α
  | _, code x => x
  | _, inside s held => held.waiting.under [s]
  | _, andThen held f => held.waiting.andThen fun e => (f e).program

def Polled.turn : Polled α → Turn α
  | finished a => .finished a
  | panicked q => .panicked q
  | waits held => .waits held.waiting
  | yields held => .yields held.waiting

theorem Polled.turn_ofTurn (t : Turn α) : (ofTurn t).turn = t := by cases t <;> rfl

theorem Polled.turn_inside (s : Span) (polled : Polled α) : (polled.inside s).turn = polled.turn.under [s] := by
  cases polled <;> rfl

theorem Held.program_resume (held : Held α) (now : Nat) :
    (held.resume now).program = held.waiting.resume now := by
  induction held with
  | code x => rfl
  | inside s held ih =>
    rw [resume, program, ih, waiting]
    cases held.waiting <;> rfl
  | andThen held f ih =>
    rw [resume, program, ih, waiting]
    cases held.waiting <;> rfl

end Nest

/-! ## Turns under spans -/

namespace World

variable {α : Type}

/-- The world with all that was announced in it put under some spans, after earlier events. -/
def retag (earlier : List Event) (spans : List Span) (w : World) : World :=
  { w with events := earlier ++ w.events.map (Event.under spans) }

variable (earlier : List Event) (spans : List Span)

theorem retag_enqueue (w : World) (task : Nat) :
    (w.retag earlier spans).enqueue task = (w.enqueue task).retag earlier spans := by
  unfold enqueue
  split <;> split <;> first | rfl | contradiction

theorem retag_enqueueAll (w : World) (tasks : List Nat) :
    (w.retag earlier spans).enqueueAll tasks = (w.enqueueAll tasks).retag earlier spans := by
  induction tasks generalizing w with
  | nil => rfl
  | cons task tasks ih =>
    rw [enqueueAll, List.foldl_cons, retag_enqueue]
    exact ih (w.enqueue task)

theorem retag_start (w : World) (task : Task) :
    (w.retag earlier spans).start task = (w.start task).retag earlier spans :=
  retag_enqueue earlier spans
    { w with nextTask := w.nextTask + 1, tasks := w.tasks ++ [(w.nextTask, .ready task.body)] } _

theorem retag_wake (w : World) (p : Waiting Unit → Bool) :
    (w.retag earlier spans).wake p = (w.wake p).retag earlier spans :=
  retag_enqueueAll earlier spans w _

theorem retag_settle (w : World) (slot : Nat) (result : Result) :
    (w.retag earlier spans).settle slot result =
      ((w.settle slot result).1, (w.settle slot result).2.retag earlier spans) := by
  have hSlots : (w.retag earlier spans).slots = w.slots := rfl
  unfold settle
  rw [hSlots]
  split
  · exact congrArg (Prod.mk true) (retag_wake earlier spans (w.setSlot slot _) _)
  · rfl

theorem retag_abandon (w : World) (slot : Nat) :
    (w.retag earlier spans).abandon slot = (w.abandon slot).retag earlier spans := by
  have hSlots : (w.retag earlier spans).slots = w.slots := rfl
  unfold abandon
  rw [hSlots]
  split <;> rfl

theorem retag_letGo (w : World) (holder : Holder) (slot : Nat) :
    (w.retag earlier spans).letGo holder slot = (w.letGo holder slot).retag earlier spans := by
  have hSlots : (w.retag earlier spans).slots = w.slots := rfl
  have hHolds : (w.retag earlier spans).holds = w.holds := rfl
  unfold letGo isHeld close
  rw [hHolds]
  dsimp only
  split
  · rfl
  · rw [hSlots]
    split
    · exact retag_wake earlier spans
        (setSlot { w with holds := w.holds.erase (holder, slot) } slot .closed) _
    · rfl

theorem retag_perform (w : World) (a : Action) :
    (w.retag earlier spans).perform a = ((w.perform a).1, (w.perform a).2.retag earlier spans) := by
  cases a with
  | settle slot result => exact retag_settle earlier spans w slot result
  | abandon slot => exact congrArg (Prod.mk ()) (retag_abandon earlier spans w slot)
  | release holder slot => exact congrArg (Prod.mk ()) (retag_letGo earlier spans w holder slot)
  | _ => rfl

theorem retag_collectSlot? (w : World) (slot : Nat) (timeout : Option Nat) :
    (w.retag earlier spans).collectSlot? slot timeout =
      (w.collectSlot? slot timeout).map fun (r, w) => (r, w.retag earlier spans) := by
  have hSlots : (w.retag earlier spans).slots = w.slots := rfl
  unfold collectSlot?
  rw [hSlots]
  split
  · rfl
  · split <;> rfl
  · rfl

theorem turn_under (p : Async α) (w : World) :
    (p.under spans).turn (w.retag earlier spans) =
      ((p.turn w).1.under spans, (p.turn w).2.retag earlier spans) := by
  induction p generalizing w with
  | pure a => rw [Program.under_pure]; rfl
  | panic q => rw [Program.under_panic]; rfl
  | fork task next ih =>
    rw [Program.under_fork, Program.turn, retag_start]
    exact ih _
  | act a next ih =>
    rw [Program.under_act, Program.turn, retag_perform]
    exact ih _ _
  | report r next ih =>
    rw [Program.under_report]
    exact ih { w with reports := w.reports ++ [r] }
  | notice e next ih =>
    rw [Program.under_notice]
    have hNoted : { w.retag earlier spans with events := (w.retag earlier spans).events ++ [e.under spans] } =
        { w with events := w.events ++ [e] }.retag earlier spans := by
      simp [retag]
    exact (congrArg (next.under spans).turn hNoted).trans (ih _)
  | yield next ih =>
    rw [Program.under_yield]
    rfl
  | sleep ms next ih =>
    have hBudget : (w.retag earlier spans).budget = w.budget := rfl
    rw [Program.under_sleep]
    simp only [Program.turn, hBudget]
    split
    · rw [Turn.under, Waiting.under, Program.under_sleep]
    · split
      · exact ih w.spend
      · rfl
  | await slot timeout next ih =>
    have hBudget : (w.retag earlier spans).budget = w.budget := rfl
    rw [Program.under_await]
    simp only [Program.turn, hBudget, retag_collectSlot?]
    split
    · rfl
    · cases w.collectSlot? slot timeout with
      | none => rfl
      | some found => exact ih found.1 found.2.spend

theorem drop_under (w : World) (x : Waiting α) : w.drop (x.under spans) = w.drop x := by
  cases x <;> rfl

end World

/-! ## Polls are turns -/

namespace Nest

variable {α : Type}

/-- A poll leaves the spans open that it found open, whatever it comes to, and it does what a turn of the
program does under these spans. -/
theorem poll_eq (nest : Nest α) (opened : List Span) (w : World) :
    (nest.poll opened w).2.1 = opened ∧ (nest.program.under opened).turn w =
      ((nest.poll opened w).1.turn.under opened, (nest.poll opened w).2.2) := by
  induction nest generalizing opened w with
  | code p =>
    refine ⟨rfl, ?_⟩
    have hFresh : w = { w with events := [] }.retag w.events opened := by
      simp [World.retag]
    have hTurn := World.turn_under w.events opened p { w with events := [] }
    rw [← hFresh] at hTurn
    rw [program, hTurn, poll, Polled.turn_ofTurn]
    rfl
  | inside s nest ih =>
    obtain ⟨hOpened, hTurn⟩ := ih (opened ++ [s]) w
    rw [program, Program.under_within, hTurn, poll]
    revert hOpened
    rcases nest.poll (opened ++ [s]) w with ⟨polled, opened', w'⟩
    rintro rfl
    exact ⟨List.dropLast_concat, by rw [Polled.turn_inside, Turn.under_under]⟩
  | andThen nest f ih ihRest =>
    obtain ⟨hOpened, hTurn⟩ := ih opened w
    have hProgram : ((nest.andThen f).program).under opened =
        (nest.program.under opened).attempt.bind fun e => ((f e).program).under opened := by
      rw [program, Program.under_bind, Program.attempt_under]
    rw [hProgram, World.turn_andThen, hTurn, poll]
    revert hOpened
    rcases nest.poll opened w with ⟨polled, opened', w'⟩
    rintro rfl
    cases polled with
    | finished a => exact ihRest (.ok a) opened' w'
    | panicked q => exact ihRest (.error q) opened' w'
    | waits held => exact ⟨rfl, by simp [Polled.turn, Turn.under, Held.waiting, Waiting.under_andThen]⟩
    | yields held => exact ⟨rfl, by simp [Polled.turn, Turn.under, Held.waiting, Waiting.under_andThen]⟩

theorem Held.drop_eq (held : Held α) (opened : List Span) (w : World) :
    held.drop opened w = (opened, w.drop held.waiting) := by
  induction held generalizing opened w with
  | code x => rfl
  | inside s held ih =>
    rw [drop, ih, waiting, World.drop_under]
    exact congrArg (·, w.drop held.waiting) List.dropLast_concat
  | andThen held f ih =>
    rw [drop, ih, waiting, World.drop_andThen]

/-- What a nest comes to in a task with some spans open, and the events that its polls announced. Others may
have gone on in between, but no number of an outcome was taken back. -/
inductive Runs (nest : Nest α) (opened : List Span) : List Event → Polled α → Nat → Prop
  | first {w w' : World} {polled : Polled α} {opened' : List Span} {es : List Event}
      (hPoll : nest.poll opened w = (polled, opened', w')) (hEvents : w'.events = w.events ++ es) :
      Runs nest opened es polled w'.nextOutcome
  | again {w w' : World} {polled polled' : Polled α} {opened' : List Span} {held : Held α}
      {es es' : List Event} {n now : Nat} (h : Runs nest opened es polled n)
      (hWaits : polled = .waits held ∨ polled = .yields held) (hLater : n ≤ w.nextOutcome)
      (hPoll : (held.resume now).poll opened w = (polled', opened', w'))
      (hEvents : w'.events = w.events ++ es') : Runs nest opened (es ++ es') polled' w'.nextOutcome

theorem Runs.played {nest : Nest α} {opened : List Span} {es : List Event} {polled : Polled α} {n : Nat}
    (h : nest.Runs opened es polled n) :
    (nest.program.under opened).Played es (polled.turn.under opened) n := by
  induction h with
  | @first w w' polled opened' es hPoll hEvents =>
    obtain ⟨-, hTurn⟩ := nest.poll_eq opened w
    rw [hPoll] at hTurn
    exact .first hTurn hEvents
  | @again w w' polled polled' opened' held es es' n now _ hWaits hLater hPoll hEvents ih =>
    obtain ⟨-, hTurn⟩ := (held.resume now).poll_eq opened w
    rw [hPoll, Held.program_resume, ← Waiting.resume_under] at hTurn
    have hWaiting : (polled.turn.under opened).waiting? = some (held.waiting.under opened) := by
      obtain rfl | rfl := hWaits <;> rfl
    exact ih.again hWaiting hLater hTurn hEvents

end Nest

end TestBench
