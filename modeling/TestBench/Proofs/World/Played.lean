import TestBench.Proofs.Async.Ways
import TestBench.Proofs.World.Growth

/-! # Turns and what they show

A program that is given turns, in whatever worlds and whatever others do in between, goes along one of its
ways: its turns announce exactly the events on it (`Program.Played.shows`). The run of a main program is one
of these (`World.exists_played`), and what it announces is found in the world in the same order.
-/

namespace TestBench

variable {α : Type}

def Turn.end? : Turn α → Option (Except Payload α)
  | finished a => some (.ok a)
  | panicked q => some (.error q)
  | waits _ | yields _ => none

def Turn.waiting? : Turn α → Option (Waiting α)
  | waits x | yields x => some x
  | finished _ | panicked _ => none

/-- What a program comes to, and the events that its turns announced. The world of a turn may be any in
which no number of an outcome was taken back since the turn before. -/
inductive Program.Played (p : Async α) : List Event → Turn α → Nat → Prop
  | first {w w' : World} {t : Turn α} {es : List Event} (hTurn : p.turn w = (t, w'))
      (hEvents : w'.events = w.events ++ es) : Played p es t w'.nextOutcome
  | again {w w' : World} {t t' : Turn α} {x : Waiting α} {es es' : List Event} {n now : Nat}
      (h : Played p es t n) (hWaits : t.waiting? = some x) (hLater : n ≤ w.nextOutcome)
      (hTurn : (x.resume now).turn w = (t', w')) (hEvents : w'.events = w.events ++ es') :
      Played p (es ++ es') t' w'.nextOutcome

/-- A turn has come along a way of the program. If the program waits, the way goes on from there. -/
structure Turn.Shown (p : Async α) (n : Nat) (es : List Event) (n' : Nat) (t : Turn α) : Prop where
  way : p.Shows n es t.end? n'
  further : ∀ x, t.waiting? = some x → ∀ now m es' e n'', n' ≤ m → (x.resume now).Shows m es' e n'' →
    p.Shows n (es ++ es') e n''

namespace Turn.Shown

variable {p p' : Async α} {n m n' : Nat} {es : List Event} {t : Turn α}

theorem along (es₀ : List Event) (h : t.Shown p m es n')
    (hLeads : ∀ es e n', p.Shows m es e n' → p'.Shows n (es₀ ++ es) e n') : t.Shown p' n (es₀ ++ es) n' where
  way := hLeads _ _ _ h.way
  further x hWaits now l es' e n'' hLater hShows := by
    rw [List.append_assoc]
    exact hLeads _ _ _ (h.further x hWaits now l es' e n'' hLater hShows)

theorem ends (h : p.Shows n [] t.end? n') (hEnds : t.waiting? = none) : t.Shown p n [] n' where
  way := h
  further x hWaits := by simp [hEnds] at hWaits

/-- The program waits, and a waiting program asks once more for what it waits for. -/
theorem stands {x : Waiting α} (h : p.Shows n [] none n) (hWaits : t.waiting? = some x)
    (hEnd : t.end? = none) (hResume : ∀ now m es e n', (x.resume now).Shows m es e n' → p.Shows m es e n') :
    t.Shown p n [] n where
  way := hEnd ▸ h
  further y hy now m es' e n'' hLater hShows := by
    obtain rfl := Option.some.inj (hWaits.symm.trans hy)
    exact (hResume now m es' e n'' hShows).later hLater

end Turn.Shown

namespace World

@[simp] theorem events_enqueueAll (w : World) (tasks : List Nat) : (w.enqueueAll tasks).events = w.events := by
  obtain ⟨q, hq⟩ := w.enqueueAll_eq tasks
  rw [hq]

@[simp] theorem events_start (w : World) (task : Task) : (w.start task).events = w.events :=
  events_enqueueAll _ [_]

@[simp] theorem events_perform (w : World) (a : Action) : (w.perform a).2.events = w.events := by
  obtain ⟨_, _, _, _, _, _, _, hEq⟩ := w.perform_eq a
  rw [hEq]

theorem events_of_collectSlot? {w w' : World} {slot : Nat} {timeout : Option Nat} {r : Option Result}
    (h : w.collectSlot? slot timeout = some (r, w')) : w'.events = w.events := by
  unfold collectSlot? at h
  split at h
  · cases h; rfl
  · split at h
    · cases h; rfl
    · cases h
  · cases h; rfl

theorem numbers_perform (w : World) (a : Action) :
    a.Numbers w.nextOutcome (w.perform a).2.nextOutcome (w.perform a).1 := by
  have hGrows := (w.grows_perform a).nextOutcome
  cases a with
  | newOutcome => exact ⟨Nat.le_refl _, Nat.lt_succ_self _⟩
  | _ => exact hGrows

theorem exists_shown (p : Async α) (w : World) : ∃ es, (p.turn w).2.events = w.events ++ es ∧
    (p.turn w).1.Shown p w.nextOutcome es (p.turn w).2.nextOutcome := by
  induction p generalizing w with
  | pure a => exact ⟨[], (List.append_nil _).symm, .ends (.pure a (Nat.le_refl _)) rfl⟩
  | panic q => exact ⟨[], (List.append_nil _).symm, .ends (.panic q (Nat.le_refl _)) rfl⟩
  | fork task next ih =>
    obtain ⟨es, hEvents, hShown⟩ := ih (w.start task)
    refine ⟨es, hEvents.trans (by rw [events_start]), hShown.along [] fun _ _ _ h => ?_⟩
    exact .fork (h.later (w.grows_start task).nextOutcome)
  | act a next ih =>
    obtain ⟨es, hEvents, hShown⟩ := ih (w.perform a).1 (w.perform a).2
    exact ⟨es, hEvents.trans (by rw [events_perform]),
      hShown.along [] fun _ _ _ h => .act _ (w.numbers_perform a) h⟩
  | report r next ih =>
    obtain ⟨es, hEvents, hShown⟩ := ih { w with reports := w.reports ++ [r] }
    exact ⟨es, hEvents, hShown.along [] fun _ _ _ => .report⟩
  | notice v next ih =>
    obtain ⟨es, hEvents, hShown⟩ := ih { w with events := w.events ++ [v] }
    exact ⟨v :: es, hEvents.trans (List.append_assoc ..), hShown.along [v] fun _ _ _ => .notice⟩
  | yield next _ =>
    exact ⟨[], (List.append_nil _).symm, .stands (.yields (Nat.le_refl _)) rfl rfl fun _ _ _ _ _ => .yield⟩
  | sleep ms next ih =>
    unfold Program.turn
    split
    · exact ⟨[], (List.append_nil _).symm, .stands (.sleeps (Nat.le_refl _)) rfl rfl fun _ _ _ _ _ h => h⟩
    · split
      · obtain ⟨es, hEvents, hShown⟩ := ih w.spend
        exact ⟨es, hEvents, hShown.along [] fun _ _ _ => .sleep⟩
      · refine ⟨[], (List.append_nil _).symm, .stands (.sleeps (Nat.le_refl _)) rfl rfl ?_⟩
        intro now m es e n' h
        cases h with
        | sleep h => exact .sleep h
        | sleeps h => exact .sleeps h
  | await slot timeout next ih =>
    have hAwait {timeout' : Option Nat} {m n' : Nat} {es : List Event} {e : Option (Except Payload α)}
        (h : (Program.await slot timeout' next).Shows m es e n') :
        (Program.await slot timeout next).Shows m es e n' := by
      cases h with
      | await x h => exact .await x h
      | awaits h => exact .awaits h
    unfold Program.turn
    split
    · exact ⟨[], (List.append_nil _).symm, .stands (.awaits (Nat.le_refl _)) rfl rfl fun _ _ _ _ _ => hAwait⟩
    · split
      · rename_i result w' hCollect
        obtain ⟨es, hEvents, hShown⟩ := ih result w'.spend
        have hSame : w'.events = w.events := events_of_collectSlot? hCollect
        refine ⟨es, hEvents.trans (congrArg (· ++ es) hSame), hShown.along [] fun _ _ _ h => ?_⟩
        exact .await result (h.later (grows_of_collectSlot? hCollect).nextOutcome)
      · exact ⟨[], (List.append_nil _).symm, .stands (.awaits (Nat.le_refl _)) rfl rfl fun _ _ _ _ _ => hAwait⟩

end World

namespace Program

variable {p : Async α} {es : List Event} {t : Turn α} {n : Nat}

theorem Played.exists_shown (h : p.Played es t n) : ∃ m, t.Shown p m es n := by
  induction h with
  | @first w w' t es hTurn hEvents =>
    obtain ⟨es', hEvents', hShown⟩ := World.exists_shown p w
    rw [hTurn] at hEvents' hShown
    obtain rfl := List.append_cancel_left (hEvents.symm.trans hEvents')
    exact ⟨_, hShown⟩
  | @again w w' t t' x es es' n now _ hWaits hLater hTurn hEvents ih =>
    obtain ⟨m, hSoFar⟩ := ih
    obtain ⟨es'', hEvents', hShown⟩ := World.exists_shown (x.resume now) w
    rw [hTurn] at hEvents' hShown
    obtain rfl := List.append_cancel_left (hEvents.symm.trans hEvents')
    exact ⟨m, hShown.along _ fun es e n' h => hSoFar.further x hWaits now _ es e n' hLater h⟩

theorem Played.shows (h : p.Played es t n) : ∃ m, p.Shows m es t.end? n :=
  h.exists_shown.imp fun _ => Turn.Shown.way

end Program

/-! ## Main programs -/

def Ending.end? : Ending α → Option (Except Payload α)
  | finished a => some (.ok a)
  | panicked q => some (.error q)
  | pending | unfinished => none

/-- Some events were announced since an earlier world, in this order and perhaps among others. -/
def World.Announces (w w' : World) (es : List Event) : Prop :=
  ∃ all, w'.events = w.events ++ all ∧ es.Sublist all

namespace World.Announces

variable {w w₁ w₂ : World} {es es' : List Event}

theorem refl (w : World) : w.Announces w [] := ⟨[], (List.append_nil _).symm, .refl _⟩

theorem quiet (h : w.Announces w₁ es) (hGrows : w₁.Grows w₂) : w.Announces w₂ es := by
  obtain ⟨all, hAll, hSub⟩ := h
  obtain ⟨more, hMore⟩ := hGrows.events
  exact ⟨all ++ more, by rw [← hMore, hAll, List.append_assoc], hSub.trans (List.sublist_append_left _ _)⟩

theorem append (h : w.Announces w₁ es) (hEvents : w₂.events = w₁.events ++ es') :
    w.Announces w₂ (es ++ es') := by
  obtain ⟨all, hAll, hSub⟩ := h
  exact ⟨all ++ es', by rw [hEvents, hAll, List.append_assoc], hSub.append (List.Sublist.refl es')⟩

end World.Announces

/-- A main program has come this far by its turns, since it began in some world. -/
def Progress.Played (p : Async α) (w : World) : Progress α → Prop
  | ended e w' => ∃ es t n, p.Played es t n ∧ t.end? = e.end? ∧ w.Announces w' es
  | waits main w' => ∃ es t n, p.Played es t n ∧ t.waiting? = some main ∧ n ≤ w'.nextOutcome ∧
      w.Announces w' es

theorem Turn.end?_eq_none {t : Turn α} {x : Waiting α} (h : t.waiting? = some x) : t.end? = none := by
  cases t with
  | waits | yields => rfl
  | finished | panicked => cases h

namespace World

variable {p : Async α} {limit : Option Nat} {main : Waiting α} {w w₁ : World}

theorem played_wait {es : List Event} {t : Turn α} (h : p.Played es t w₁.nextOutcome)
    (hWaits : t.waiting? = some main) (hSoFar : w.Announces w₁ es) :
    (w₁.wait limit main).Played p w := by
  unfold wait
  split
  · exact ⟨es, t, _, h, Turn.end?_eq_none hWaits, hSoFar.quiet (grows_drop _ _)⟩
  · exact ⟨es, t, _, h, hWaits, Nat.le_refl _, hSoFar⟩

/-- The turn of a main program is one of the turns of the program that it began as. -/
theorem played_turnMain {p₁ : Async α} {es : List Event} (hSoFar : w.Announces w₁ es)
    (h : ∀ es' t w₂, p₁.turn w₁ = (t, w₂) → w₂.events = w₁.events ++ es' →
      p.Played (es ++ es') t w₂.nextOutcome) : (w₁.turnMain limit p₁).Played p w := by
  obtain ⟨es', hEvents, -⟩ := exists_shown p₁ w₁
  unfold turnMain
  split <;> rename_i hTurn <;> rw [hTurn] at hEvents
  · exact ⟨_, _, _, h es' _ _ hTurn hEvents, rfl, hSoFar.append hEvents⟩
  · exact ⟨_, _, _, h es' _ _ hTurn hEvents, rfl, hSoFar.append hEvents⟩
  · exact played_wait (h es' _ _ hTurn hEvents) rfl (hSoFar.append hEvents)
  · exact played_wait (h es' _ _ hTurn hEvents) rfl (hSoFar.append hEvents)

theorem played_step {w₁ : World} (h : (Progress.waits main w₁).Played p w) :
    (w₁.step limit main).Played p w := by
  obtain ⟨es, t, n, hPlayed, hWaits, hNext, hSoFar⟩ := h
  have hResume {w₂ : World} (now : Nat) (hGrows : w₁.Grows w₂) :
      (w₂.turnMain limit (main.resume now)).Played p w :=
    played_turnMain (hSoFar.quiet hGrows) fun es' t' w₃ hTurn hEvents =>
      hPlayed.again hWaits (Nat.le_trans hNext hGrows.nextOutcome) hTurn hEvents
  have hStand {w₂ : World} (hGrows : w₁.Grows w₂) : (Progress.waits main w₂).Played p w :=
    ⟨es, t, n, hPlayed, hWaits, Nat.le_trans hNext hGrows.nextOutcome, hSoFar.quiet hGrows⟩
  have hDrop {w₂ : World} (hGrows : w₁.Grows w₂) : (Progress.ended .pending (w₂.drop main)).Played p w :=
    ⟨es, t, n, hPlayed, Turn.end?_eq_none hWaits, hSoFar.quiet (hGrows.trans (grows_drop _ _))⟩
  have hRested : w₁.Grows (wakeYielding { w₁ with streak := 0 }) :=
    (grows_wakeYielding { w₁ with streak := 0 }).rebase rfl rfl rfl rfl rfl
  have hBegun (w₂ : World) : w₂.Grows w₂.beginTurn := (Grows.refl _).rebase rfl rfl rfl rfl rfl
  have hAttend : (w₁.attend limit main).Played p w := by
    unfold attend
    simp only
    split
    · exact hResume _ (hRested.trans (hBegun _))
    · split
      · exact hStand hRested
      · split
        · exact hDrop hRested
        · rename_i time _
          have hLater := hRested.trans (grows_advance _ time)
          split
          · exact hResume _ (hLater.trans (hBegun _))
          · unfold wait
            split
            · exact hDrop hLater
            · exact hStand hLater
  unfold step
  split
  · exact hAttend
  · rename_i task rest _
    split
    · refine hStand ((grows_turnTask { w₁ with queue := rest, streak := w₁.streak + 1 } task).rebase ?_ ?_ ?_ ?_ ?_)
        <;> rfl
    · exact hAttend

theorem played_drive {turns : Nat} {w' : World} {e : Ending α} (h : drive limit turns main w₁ = (e, w'))
    (hMain : (Progress.waits main w₁).Played p w) : (Progress.ended e w').Played p w := by
  induction turns generalizing main w₁ with
  | zero =>
    obtain ⟨rfl, rfl⟩ := Prod.mk.inj h
    obtain ⟨es, t, n, hPlayed, hWaits, -, hSoFar⟩ := hMain
    exact ⟨es, t, n, hPlayed, Turn.end?_eq_none hWaits, hSoFar⟩
  | succ turns ih =>
    have hStep : (w₁.step limit main).Played p w := played_step hMain
    rw [drive] at h
    split at h <;> rename_i hEq <;> rw [hEq] at hStep
    · obtain ⟨rfl, rfl⟩ := Prod.mk.inj h
      exact hStep
    · exact ih h hStep

/-- However a main program is run, it is given turns, and what they show is announced in the world. -/
theorem exists_played {turns : Nat} {w' : World} {e : Ending α} (h : run turns limit p w = (e, w')) :
    ∃ es t n, p.Played es t n ∧ t.end? = e.end? ∧ w.Announces w' es := by
  have hTurn : (w.turnMain (limit.map (w.now + ·)) p).Played p w :=
    played_turnMain (.refl w) fun _ _ _ => .first
  simp only [run] at h
  split at h <;> rename_i hEq <;> rw [hEq] at hTurn
  · obtain ⟨rfl, rfl⟩ := Prod.mk.inj h
    exact hTurn
  · exact played_drive h hTurn

end World

end TestBench
