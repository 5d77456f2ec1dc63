import TestBench.Session
import TestBench.Proofs.Outcome.Dealing

/-! # The books of a world

The books list all outcomes that were made in a world, the earliest first. They are kept if each outcome has
its place in them for its number and all that the tasks and reports hold is in them. Programs that deal in
outcomes keep books: a turn keeps them (`Program.Deals.turn`), so does a step of the world
(`World.Books.step`), and so does a run (`World.Books.run`). Nothing is ever struck out of them.
-/

namespace TestBench

open Program (Lasting)

def among (made : List Outcome) : Set Outcome := {o | o ∈ made}

theorem among_mono {made made' : List Outcome} (h : made <+: made') : among made ⊆ among made' :=
  fun _ ho => h.subset ho

def Waiting.Deals {α : Type} (post : Set Outcome → α → Prop) (known : Set Outcome) (x : Waiting α) : Prop :=
  ∀ now, (x.resume now).Deals post known

def Turn.Deals {α : Type} (post : Set Outcome → α → Prop) (known : Set Outcome) : Turn α → Prop
  | finished a => post known a
  | panicked _ => True
  | waits x | yields x => x.Deals post known

namespace Waiting.Deals

variable {α : Type} {post : Set Outcome → α → Prop} {known known' : Set Outcome}

theorem mono {x : Waiting α} (h : x.Deals post known) (hPost : Lasting post) (hSub : known ⊆ known') :
    x.Deals post known' := fun now => (h now).mono hPost hSub

theorem ready {p : Async α} (h : p.Deals post known) : (Waiting.ready p).Deals post known := fun _ => h

theorem sleeping {due : Nat} {next : Async α} (h : next.Deals post known) :
    (Waiting.sleeping due next).Deals post known := fun _ => .sleep h

theorem awaiting {slot : Nat} {due : Option Nat} {next : Option Result → Async α}
    (h : ∀ x, (next x).Deals post known) : (Waiting.awaiting slot due next).Deals post known :=
  fun _ => .await h

theorem postponed {slot : Nat} {timeout : Option Nat} {next : Option Result → Async α}
    (h : ∀ x, (next x).Deals post known) : (Waiting.postponed slot timeout next).Deals post known :=
  fun _ => .await h

end Waiting.Deals

namespace World

/-- All outcomes made so far, each in the place that its number calls for, and none held but these. -/
structure Books (made : List Outcome) (w : World) : Prop where
  next : w.nextOutcome = made.length + 1
  numbered : ∀ i o, made[i]? = some o → o.id = i + 1
  tasks : ∀ t ∈ w.tasks, t.2.Deals (fun _ _ => True) (among made)
  reports : ∀ r ∈ w.reports, r.held ⊆ among made

namespace Books

variable {w w' : World} {made : List Outcome}

theorem init : ({} : World).Books [] where
  next := rfl
  numbered := nofun
  tasks := nofun
  reports := nofun

theorem idle (h : w.Books made) (hNext : w'.nextOutcome = w.nextOutcome) (hTasks : ∀ t ∈ w'.tasks, t ∈ w.tasks)
    (hReports : w'.reports = w.reports) : w'.Books made where
  next := hNext ▸ h.next
  numbered := h.numbered
  tasks t ht := h.tasks t (hTasks t ht)
  reports := hReports ▸ h.reports

theorem enqueueAll (h : w.Books made) (tasks : List Nat) : (w.enqueueAll tasks).Books made := by
  obtain ⟨q, hq⟩ := w.enqueueAll_eq tasks
  rw [hq]
  exact h.idle rfl (fun _ => id) rfl

theorem keep {x : Waiting Unit} (h : w.Books made) (task : Nat)
    (hDeals : x.Deals (fun _ _ => True) (among made)) : (w.keep task x).Books made where
  next := h.next
  numbered := h.numbered
  reports := h.reports
  tasks t ht := by
    rcases List.mem_append.mp ht with ht | ht
    · exact h.tasks t ht
    · exact List.mem_singleton.mp ht ▸ hDeals

theorem start {t : Task} (h : w.Books made) (hDeals : t.body.DealsIn (among made)) :
    (w.start t).Books made := by
  have hKeep : (w.keep w.nextTask (.ready t.body)).Books made := h.keep w.nextTask (.ready hDeals)
  have hNew : World.Books made
      { w with nextTask := w.nextTask + 1, tasks := w.tasks ++ [(w.nextTask, .ready t.body)] } :=
    hKeep.idle rfl (fun _ => id) rfl
  exact hNew.enqueueAll [w.nextTask]

theorem setSlot (h : w.Books made) (slot : Nat) (s : Slot) : (w.setSlot slot s).Books made :=
  h.idle rfl (fun _ => id) rfl

theorem finish (h : w.Books made) (slot : Nat) (s : Slot) : (w.finish slot s).Books made :=
  h.idle rfl (fun _ => id) rfl

theorem letGo (h : w.Books made) (holder : Holder) (slot : Nat) : (w.letGo holder slot).Books made := by
  obtain ⟨slots, queue, -, hEq⟩ := w.letGo_eq holder slot
  rw [hEq]
  exact h.idle rfl (fun _ => id) rfl

theorem abandon (h : w.Books made) (slot : Nat) : (w.abandon slot).Books made := by
  unfold World.abandon
  split
  · exact h.finish slot _
  · exact h.finish slot _
  · exact h

theorem settle (h : w.Books made) (slot : Nat) (r : Result) : (w.settle slot r).2.Books made := by
  unfold World.settle
  split
  · exact (h.setSlot slot _).enqueueAll _
  · exact h

theorem perform {a : Action} (h : w.Books made) (ha : a ≠ .newOutcome) : (w.perform a).2.Books made := by
  cases a with
  | newOutcome => exact absurd rfl ha
  | settle slot r => exact h.settle slot r
  | abandon slot => exact h.abandon slot
  | release holder slot => exact h.letGo holder slot
  | _ => exact h.idle rfl (fun _ => id) rfl

theorem create (h : w.Books made) (test : String) (kind : Kind) (cause : Option String) :
    (w.perform .newOutcome).2.Books (made ++ [.make w.nextOutcome test kind cause]) := by
  have hSub := among_mono (List.prefix_append made [.make w.nextOutcome test kind cause])
  refine ⟨?_, fun i o ho => ?_, fun t ht => ?_, fun r hr => (h.reports r hr).trans hSub⟩
  · rw [List.length_append]
    exact congrArg Nat.succ h.next
  · rw [List.getElem?_append] at ho
    split at ho
    · exact h.numbered i o ho
    · rename_i hPlace
      rw [List.getElem?_singleton] at ho
      split at ho
      · cases ho
        change w.nextOutcome = i + 1
        have hNext := h.next
        omega
      · cases ho
  · exact (h.tasks t ht).mono Program.lasting_true hSub

theorem report {r : Report} (h : w.Books made) (hHeld : r.held ⊆ among made) :
    World.Books made { w with reports := w.reports ++ [r] } where
  next := h.next
  numbered := h.numbered
  tasks := h.tasks
  reports r' hr' := by
    rcases List.mem_append.mp hr' with hr' | hr'
    · exact h.reports r' hr'
    · exact List.mem_singleton.mp hr' ▸ hHeld

theorem collectSlot? {slot : Nat} {timeout : Option Nat} {x : Option Result} (h : w.Books made)
    (hCollect : w.collectSlot? slot timeout = some (x, w')) : w'.Books made := by
  unfold World.collectSlot? at hCollect
  split at hCollect
  · cases hCollect
    exact h.finish slot _
  · split at hCollect
    · cases hCollect
      exact (h.finish slot .expired).idle rfl (fun _ => id) rfl
    · cases hCollect
  · cases hCollect
    exact h

end Books

end World

/-! ## Turns -/

/-- The books are kept on, with what there is to be said of something in the end. -/
def World.Booked (made : List Outcome) (w : World) (fact : Set Outcome → Prop) : Prop :=
  ∃ made', made <+: made' ∧ w.Books made' ∧ fact (among made')

namespace World

variable {w : World} {made : List Outcome} {fact fact' : Set Outcome → Prop}

theorem Books.booked (h : w.Books made) (hFact : fact (among made)) : w.Booked made fact :=
  ⟨made, List.prefix_refl made, h, hFact⟩

theorem Booked.earlier {before : List Outcome} (h : w.Booked made fact) (hPrefix : before <+: made) :
    w.Booked before fact := by
  obtain ⟨made', hMore, hBooks, hFact⟩ := h
  exact ⟨made', hPrefix.trans hMore, hBooks, hFact⟩

theorem Booked.then {w' : World} (h : w.Booked made fact)
    (hThen : ∀ made', w.Books made' → fact (among made') → w'.Booked made' fact') : w'.Booked made fact' := by
  obtain ⟨made', hMore, hBooks, hFact⟩ := h
  exact (hThen made' hBooks hFact).earlier hMore

end World

theorem Program.Deals.turn {α : Type} {post : Set Outcome → α → Prop} {known : Set Outcome} {p : Async α}
    {w : World} {made : List Outcome} (h : p.Deals post known) (hPost : Lasting post)
    (hKnown : known ⊆ among made) (hBooks : w.Books made) :
    (p.turn w).2.Booked made fun known => (p.turn w).1.Deals post known := by
  induction h generalizing w made with
  | pure ha => exact hBooks.booked (hPost _ hKnown ha)
  | panic q => exact hBooks.booked trivial
  | fork hTask _ _ ih => exact ih hPost hKnown (hBooks.start (DealsIn.mono hTask hKnown))
  | create test kind cause _ ih =>
    have hPrefix := List.prefix_append made [.make w.nextOutcome test kind cause]
    refine (ih w.nextOutcome hPost ?_ (hBooks.create test kind cause)).earlier hPrefix
    exact Set.insert_subset (List.mem_append_right _ List.mem_cons_self) (hKnown.trans (among_mono hPrefix))
  | act ha _ ih => exact ih _ hPost hKnown (hBooks.perform ha)
  | report hReport _ ih => exact ih hPost hKnown (hBooks.report (hReport.trans hKnown))
  | notice _ ih => exact ih hPost hKnown (hBooks.idle rfl (fun _ => id) rfl)
  | yield hNext _ => exact hBooks.booked (.ready (hNext.mono hPost hKnown))
  | sleep hNext ih =>
    unfold Program.turn
    split
    · exact hBooks.booked (.ready (.sleep (hNext.mono hPost hKnown)))
    · split
      · exact ih hPost hKnown (hBooks.idle rfl (fun _ => id) rfl)
      · exact hBooks.booked (.sleeping (hNext.mono hPost hKnown))
  | await hNext ih =>
    unfold Program.turn
    split
    · exact hBooks.booked (.postponed fun x => (hNext x).mono hPost hKnown)
    · split
      · rename_i hCollect
        exact ih _ hPost hKnown ((hBooks.collectSlot? hCollect).idle rfl (fun _ => id) rfl)
      · exact hBooks.booked (.awaiting fun x => (hNext x).mono hPost hKnown)

/-! ## Runs -/

def Progress.Deals {α : Type} (post : Set Outcome → α → Prop) (known : Set Outcome) : Progress α → Prop
  | ended (.finished a) _ => post known a
  | ended _ _ => True
  | waits main _ => main.Deals post known

namespace World.Books

variable {α : Type} {post : Set Outcome → α → Prop} {w : World} {made : List Outcome} {limit : Option Nat}
  {main : Waiting α}

theorem followUp (h : w.Books made) (task : Nat) : (w.followUp task).Books made := by
  unfold World.followUp
  split
  · exact h.enqueueAll [task]
  · exact h

theorem settleTask {t : Turn Unit} (h : w.Books made) (task : Nat)
    (hTurn : t.Deals (fun _ _ => True) (among made)) : (w.settleTask task t).Books made := by
  cases t with
  | finished _ => exact h
  | panicked _ => exact h
  | waits x => exact (h.keep task hTurn).followUp task
  | yields x =>
    have hKeep := h.keep task hTurn
    have hBehind : World.Books made { w.keep task x with yielding := task :: w.yielding } :=
      hKeep.idle rfl (fun _ => id) rfl
    exact hBehind.followUp task

theorem turnTask (h : w.Books made) (task : Nat) : (w.turnTask task).Booked made fun _ => True := by
  unfold World.turnTask
  split
  · exact h.booked trivial
  · rename_i x hLookup
    split
    · obtain ⟨before, after, hTasks, -⟩ := List.lookup_eq_some_iff.mp hLookup
      have hTask := h.tasks (task, x) (by simp [hTasks])
      have hBegin : (beginTurn { w with tasks := w.tasks.filter (·.1 != task) }).Books made :=
        h.idle rfl (fun t ht => List.mem_of_mem_filter ht) rfl
      obtain ⟨made', hMore, hBooks, hTurn⟩ :=
        (hTask w.now).turn Program.lasting_true (Set.Subset.refl _) hBegin
      have hSettled := hBooks.settleTask task hTurn
      -- What the task reported is lost, so the reports are those from before.
      have hReports (r : Report) (hr : r ∈ w.reports) := (h.reports r hr).trans (among_mono hMore)
      exact ⟨made', hMore, ⟨hSettled.next, hSettled.numbered, hSettled.tasks, hReports⟩, trivial⟩
    · exact h.booked trivial

theorem drop (h : w.Books made) (x : Waiting α) : (w.drop x).Books made := by
  cases x with
  | awaiting slot => exact h.abandon slot
  | postponed slot => exact h.abandon slot
  | _ => exact h

theorem wakeYielding (h : w.Books made) : w.wakeYielding.Books made := by
  obtain ⟨q, hq⟩ := enqueueAll_eq { w with yielding := [] } (w.yielding.filter w.isLive)
  rw [World.wakeYielding, hq]
  exact h.idle rfl (fun _ => id) rfl

theorem advance (h : w.Books made) (time : Nat) : (w.advance time).Books made := by
  have hLater : World.Books made { w with now := max w.now time } := h.idle rfl (fun _ => id) rfl
  exact hLater.enqueueAll _

theorem wait (h : w.Books made) (hMain : main.Deals post (among made)) :
    (w.wait limit main).world.Booked made ((w.wait limit main).Deals post) := by
  unfold World.wait
  split
  · exact (h.drop main).booked trivial
  · exact h.booked hMain

theorem turnMain {p : Async α} (h : w.Books made) (limit : Option Nat) (hPost : Lasting post)
    (hDeals : p.Deals post (among made)) :
    (w.turnMain limit p).world.Booked made ((w.turnMain limit p).Deals post) := by
  have hTurn := hDeals.turn hPost (Set.Subset.refl _) h
  unfold World.turnMain
  split <;> rename_i hEq <;> rw [hEq] at hTurn
  · exact hTurn
  · exact hTurn
  · exact hTurn.then fun made' hBooks hMain => hBooks.wait hMain
  · exact hTurn.then fun made' hBooks hMain => hBooks.wait hMain

theorem attend (h : w.Books made) (limit : Option Nat) (hPost : Lasting post) (hMain : main.Deals post (among made)) :
    (w.attend limit main).world.Booked made ((w.attend limit main).Deals post) := by
  have hIdle : World.Books made { w with streak := 0 } := h.idle rfl (fun _ => id) rfl
  have hLook {w : World} (h : w.Books made) (now : Nat) : (w.beginTurn.turnMain limit (main.resume now)).world.Booked
      made ((w.beginTurn.turnMain limit (main.resume now)).Deals post) := by
    have hBegin : w.beginTurn.Books made := h.idle rfl (fun _ => id) rfl
    exact hBegin.turnMain limit hPost (hMain now)
  unfold World.attend
  simp only
  split
  · exact hLook hIdle.wakeYielding _
  · split
    · exact hIdle.wakeYielding.booked hMain
    · split
      · exact (hIdle.wakeYielding.drop main).booked trivial
      · split
        · exact hLook (hIdle.wakeYielding.advance _) _
        · exact (hIdle.wakeYielding.advance _).wait hMain

theorem step (h : w.Books made) (limit : Option Nat) (hPost : Lasting post) (hMain : main.Deals post (among made)) :
    (w.step limit main).world.Booked made ((w.step limit main).Deals post) := by
  unfold World.step
  split
  · exact h.attend limit hPost hMain
  · rename_i task rest _
    split
    · have hPopped : World.Books made { w with queue := rest, streak := w.streak + 1 } :=
        h.idle rfl (fun _ => id) rfl
      obtain ⟨made', hMore, hBooks, -⟩ := hPopped.turnTask task
      exact ⟨made', hMore, hBooks, hMain.mono hPost (among_mono hMore)⟩
    · exact h.attend limit hPost hMain

/-- However far a run gets, the books are kept, and they list all that its value holds. -/
theorem drive (h : w.Books made) (hPost : Lasting post) (hMain : main.Deals post (among made)) (turns : Nat) :
    (World.drive limit turns main w).2.Booked made fun known =>
      ∀ a, (World.drive limit turns main w).1 = .finished a → post known a := by
  induction turns generalizing main w made with
  | zero => exact h.booked nofun
  | succ turns ih =>
    have hStep := h.step limit hPost hMain
    rw [World.drive]
    cases hEq : w.step limit main with
    | ended e w₁ =>
      rw [hEq] at hStep
      refine hStep.then fun made' hBooks hEnd => hBooks.booked ?_
      rintro a rfl
      exact hEnd
    | waits main' w₁ =>
      rw [hEq] at hStep
      exact hStep.then fun made' hBooks hMain' => ih hBooks hMain'

theorem run {p : Async α} (h : w.Books made) (hPost : Lasting post) (hDeals : p.Deals post (among made))
    (turns : Nat) (limit : Option Nat) : (World.run turns limit p w).2.Booked made fun known =>
      ∀ a, (World.run turns limit p w).1 = .finished a → post known a := by
  have hTurn := h.turnMain (limit.map (w.now + ·)) hPost hDeals
  simp only [World.run]
  cases hEq : w.turnMain (limit.map (w.now + ·)) p with
  | ended e w₁ =>
    rw [hEq] at hTurn
    refine hTurn.then fun made' hBooks hEnd => hBooks.booked ?_
    rintro a rfl
    exact hEnd
  | waits main w₁ =>
    rw [hEq] at hTurn
    exact hTurn.then fun made' hBooks hMain => hBooks.drive hPost hMain turns

end World.Books

end TestBench
