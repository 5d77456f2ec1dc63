import TestBench.World.Basic

/-! # The life of a slot

The marks that a slot gets, in the order in which they come: it is opened, it is signalled, the program
that waits for it looks, or the wait is given up. What was marked so far says what the next signal and
the next look are answered. Main statements: at most one signal is accepted, and whether one is depends
on the earlier marks of the slot alone (`Slot.Lives.accepted_iff`); a look after an accepted signal finds
its result (`Slot.Lives.look_eq`); after a wait that ran out of time no signal was or will be accepted
(`Slot.Lives.not_accepted_of_expired`).
-/

namespace TestBench

inductive Mark
  | opened
  | signalled (result : Result) (accepted : Bool)
  /-- The waiting program looks: for now there is nothing, or its wait is over. -/
  | looked (answer : Option (Option Result))
  | dropped
  deriving DecidableEq

abbrev History := List (Nat × Mark)

namespace History

def on (slot : Nat) (h : History) : List Mark := (h.filter (·.1 = slot)).map (·.2)

variable {slot : Nat}

@[simp] theorem on_nil : on slot [] = [] := rfl

@[simp] theorem on_append (h h' : History) : on slot (h ++ h') = on slot h ++ on slot h' := by
  simp [on]

@[simp] theorem on_cons_self (m : Mark) (h : History) : on slot ((slot, m) :: h) = m :: on slot h := by
  simp [on]

theorem on_cons_of_ne {slot' : Nat} (hne : slot' ≠ slot) (m : Mark) (h : History) :
    on slot ((slot', m) :: h) = on slot h := by
  simp [on, hne]

end History

namespace Slot

/-- A slot, which may not be there yet, is open while its wait has no result and was not given up. -/
def IsOpen (s : Option Slot) : Prop := s = some .vacant ∨ ∃ r, s = some (.settled r)

/-- How a mark changes a slot. Only the program that owns an open slot looks at it or drops it. -/
inductive Next : Option Slot → Mark → Option Slot → Prop
  | opened : Next none .opened (some .vacant)
  | accepted (r : Result) : Next (some .vacant) (.signalled r true) (some (.settled r))
  | refused (r : Result) {s : Option Slot} (h : s ≠ some .vacant) : Next s (.signalled r false) s
  | notYet : Next (some .vacant) (.looked none) (some .vacant)
  | taken (r : Result) : Next (some (.settled r)) (.looked (some (some r))) (some (.taken r))
  | expired : Next (some .vacant) (.looked (some none)) (some .expired)
  | dropped {s : Option Slot} (h : IsOpen s) : Next s .dropped (some .abandoned)

inductive Lives : Option Slot → List Mark → Option Slot → Prop
  | nil (s : Option Slot) : Lives s [] s
  | cons {s s₁ s' : Option Slot} {m : Mark} {l : List Mark} (hNext : Next s m s₁)
      (hLives : Lives s₁ l s') : Lives s (m :: l) s'

namespace Lives

theorem single {s s' : Option Slot} {m : Mark} (h : Next s m s') : Lives s [m] s' := .cons h (.nil s')

theorem eq_of_nil {s s' : Option Slot} (h : Lives s [] s') : s' = s := by
  cases h
  rfl

theorem append {s s₁ s' : Option Slot} {l l' : List Mark} (h : Lives s l s₁) (h' : Lives s₁ l' s') :
    Lives s (l ++ l') s' := by
  induction h with
  | nil => exact h'
  | cons hNext _ ih => exact .cons hNext (ih h')

theorem split {s s' : Option Slot} {l l' : List Mark} (h : Lives s (l ++ l') s') :
    ∃ s₁, Lives s l s₁ ∧ Lives s₁ l' s' := by
  induction l generalizing s with
  | nil => exact ⟨s, .nil s, h⟩
  | cons m l ih =>
    obtain _ | ⟨hNext, hLives⟩ := h
    obtain ⟨s₁, hl, hl'⟩ := ih hLives
    exact ⟨s₁, .cons hNext hl, hl'⟩

end Lives

/-- What the state of a slot tells about the marks that it got since there was none. No mark closes a slot. -/
def Tells : Option Slot → List Mark → Prop
  | none, l => ∀ m ∈ l, ∃ r, m = .signalled r false
  | some .vacant, l =>
      .opened ∈ l ∧ (∀ r, .signalled r true ∉ l) ∧ (∀ x, .looked (some x) ∉ l) ∧ .dropped ∉ l
  | some (.settled r), l =>
      .signalled r true ∈ l ∧ (∀ r', .signalled r' true ∈ l → r' = r) ∧
        (∀ x, .looked (some x) ∉ l) ∧ .dropped ∉ l
  | some (.taken r), l => .looked (some (some r)) ∈ l ∧ .looked (some none) ∉ l
  | some .expired, l => .looked (some none) ∈ l ∧ ∀ r, .signalled r true ∉ l
  | some .abandoned, l => .dropped ∈ l ∧ ∀ x, .looked (some x) ∉ l
  | some .closed, _ => False

theorem Next.tells {s s' : Option Slot} {m : Mark} {l : List Mark} (h : Next s m s') (hl : Tells s l) :
    Tells s' (l ++ [m]) := by
  cases h with
  | opened =>
    have hOnly {m : Mark} (hm : m ∈ l ++ [.opened]) (hne : m ≠ .opened) : ∃ r, m = .signalled r false := by
      rcases List.mem_append.mp hm with hm | hm
      · exact hl m hm
      · exact absurd (List.mem_singleton.mp hm) hne
    refine ⟨by simp, fun r hr => ?_, fun x hx => ?_, fun hd => ?_⟩
    · obtain ⟨_, ⟨⟩⟩ := hOnly hr nofun
    · obtain ⟨_, ⟨⟩⟩ := hOnly hx nofun
    · obtain ⟨_, ⟨⟩⟩ := hOnly hd nofun
  | refused r h =>
    rcases s with _ | (_ | r' | r' | _ | _ | _)
    case none => simpa [Tells, or_imp, forall_and] using hl
    case some.vacant => exact absurd rfl h
    case some.closed => exact hl
    all_goals simpa [Tells] using hl
  | notYet => simpa [Tells] using hl
  | accepted r =>
    obtain ⟨-, hSignalled, hLooked, hDropped⟩ := hl
    simp [Tells, hSignalled, hLooked, hDropped]
  | expired =>
    obtain ⟨-, hSignalled, -, -⟩ := hl
    simp [Tells, hSignalled]
  | taken r =>
    obtain ⟨-, -, hLooked, -⟩ := hl
    simp [Tells, hLooked]
  | dropped h =>
    rcases h with rfl | ⟨r, rfl⟩
    · simp [Tells, hl.2.2.1]
    · simp [Tells, hl.2.2.1]

namespace Lives

variable {s s' : Option Slot} {l a b : List Mark}

theorem tells_append (h : Lives s l s') (ha : Tells s a) : Tells s' (a ++ l) := by
  induction h generalizing a with
  | nil => simpa using ha
  | @cons s s₁ s' m l hNext _ ih => simpa using ih (hNext.tells ha)

theorem tells (h : Lives none l s) : Tells s l := h.tells_append (a := []) nofun

theorem ne_closed (h : Lives none l s) : s ≠ some .closed := by
  rintro rfl
  exact h.tells

theorem next_at {m : Mark} (h : Lives none (a ++ m :: b) s) :
    ∃ s₁ s₂, Tells s₁ a ∧ Next s₁ m s₂ := by
  obtain ⟨s₁, ha, hb⟩ := h.split
  obtain _ | ⟨hNext, -⟩ := hb
  exact ⟨s₁, _, ha.tells, hNext⟩

/-- A signal is accepted exactly if no earlier one was, and the wait neither came to its end nor was
given up. -/
theorem accepted_iff {r : Result} {accepted : Bool} (h : Lives none (a ++ .signalled r accepted :: b) s)
    (hOpened : .opened ∈ a) :
    accepted = true ↔
      (∀ r', .signalled r' true ∉ a) ∧ (∀ x, .looked (some x) ∉ a) ∧ .dropped ∉ a := by
  obtain ⟨s₁, s₂, hTells, hNext⟩ := h.next_at
  cases hNext with
  | accepted => simpa using hTells.2
  | refused _ hs =>
    refine ⟨nofun, fun ⟨hSignalled, hLooked, hDropped⟩ => ?_⟩
    rcases s₁ with _ | (_ | r' | r' | _ | _ | _)
    · obtain ⟨_, ⟨⟩⟩ := hTells _ hOpened
    · exact absurd rfl hs
    · exact absurd hTells.1 (hSignalled _)
    · exact absurd hTells.1 (hLooked _)
    · exact absurd hTells.1 (hLooked _)
    · exact absurd hTells.1 hDropped
    · exact hTells.elim

theorem accepted_unique {r r' : Result} (h : Lives none (a ++ .signalled r true :: b) s) :
    .signalled r' true ∉ a ∧ .signalled r' true ∉ b := by
  have hBefore {a b : List Mark} {r r' : Result} (h : Lives none (a ++ .signalled r true :: b) s) :
      .signalled r' true ∉ a := by
    obtain ⟨s₁, s₂, hTells, hNext⟩ := h.next_at
    cases hNext
    exact hTells.2.1 r'
  refine ⟨hBefore h, fun hMem => ?_⟩
  obtain ⟨b₁, b₂, rfl⟩ := List.append_of_mem hMem
  have h : Lives none ((a ++ .signalled r true :: b₁) ++ .signalled r' true :: b₂) s := by simpa using h
  exact @hBefore _ _ r' r h (by simp)

theorem look_eq {r : Result} {x : Option (Option Result)} (h : Lives none (a ++ .looked x :: b) s)
    (hAccepted : .signalled r true ∈ a) : x = some (some r) := by
  obtain ⟨s₁, s₂, hTells, hNext⟩ := h.next_at
  cases hNext with
  | notYet => exact absurd hAccepted (hTells.2.1 r)
  | taken r' => rw [hTells.2.1 r hAccepted]
  | expired => exact absurd hAccepted (hTells.2.1 r)

theorem accepted_of_taken {r : Result} (h : Lives none l s) (hLooked : .looked (some (some r)) ∈ l) :
    .signalled r true ∈ l := by
  obtain ⟨a, b, rfl⟩ := List.append_of_mem hLooked
  obtain ⟨s₁, s₂, hTells, hNext⟩ := h.next_at
  cases hNext
  exact List.mem_append_left _ hTells.1

/-- An accepted result stays in the slot until the waiting program takes it. -/
theorem eq_settled {r : Result} (h : Lives none l s) (hAccepted : .signalled r true ∈ l)
    (hLooked : ∀ x, .looked (some x) ∉ l) (hDropped : .dropped ∉ l) : s = some (.settled r) := by
  have hTells := h.tells
  rcases s with _ | (_ | r' | r' | _ | _ | _)
  · obtain ⟨_, ⟨⟩⟩ := hTells _ hAccepted
  · exact absurd hAccepted (hTells.2.1 r)
  · rw [hTells.2.1 r hAccepted]
  · exact absurd hTells.1 (hLooked _)
  · exact absurd hTells.1 (hLooked _)
  · exact absurd hTells.1 hDropped
  · exact hTells.elim

theorem not_accepted_of_expired {r : Result} (h : Lives none l s) (hExpired : .looked (some none) ∈ l) :
    .signalled r true ∉ l := by
  have hTells := h.tells
  rcases s with _ | (_ | r' | r' | _ | _ | _)
  · obtain ⟨_, ⟨⟩⟩ := hTells _ hExpired
  · exact absurd hExpired (hTells.2.2.1 none)
  · exact absurd hExpired (hTells.2.2.1 none)
  · exact absurd hExpired hTells.2
  · exact hTells.2 r
  · exact absurd hExpired (hTells.2 none)
  · exact hTells.elim

end Lives

end Slot

end TestBench
