import TestBench.Proofs.Signal.Pace

/-! # The end of a wait

The wait for a slot is over when its program looked for good or was dropped. A wait that settles ran out
of time exactly at its due time, or found what was accepted at that very instant (`Chronicle.Settles`), and
nothing that comes later changes this (`Chronicle.Settles.append`).
-/

namespace TestBench

inductive Mark.IsEnd : Mark → Prop
  | looked (x : Option Result) : IsEnd (.looked (some x))
  | dropped : IsEnd .dropped

namespace Slot

variable {s : Option Slot} {l l' : List Mark} {m : Mark}

theorem Lives.not_isEnd_of_isOpen (h : Lives none l s) (hOpen : IsOpen s) (hMem : m ∈ l) : ¬ m.IsEnd := by
  have hTells := h.tells
  rintro (x | _)
  · rcases hOpen with rfl | ⟨r, rfl⟩
    · exact hTells.2.2.1 x hMem
    · exact hTells.2.2.1 x hMem
  · rcases hOpen with rfl | ⟨r, rfl⟩
    · exact hTells.2.2.2 hMem
    · exact hTells.2.2.2 hMem

/-- After the end of the wait all signals are refused, and nothing else is marked. -/
theorem Lives.refused_of_isEnd {e : Mark} (h : Lives none (l ++ l') s) (he : e ∈ l) (hEnd : e.IsEnd)
    (hm : m ∈ l') : ∃ r, m = .signalled r false := by
  obtain ⟨a, b, rfl⟩ := List.append_of_mem hm
  rw [← List.append_assoc] at h
  obtain ⟨s₁, hBefore, hAfter⟩ := h.split
  obtain _ | ⟨hNext, -⟩ := hAfter
  have hClosed : ¬ IsOpen s₁ := fun hOpen =>
    hBefore.not_isEnd_of_isOpen hOpen (List.mem_append_left a he) hEnd
  cases hNext with
  | opened =>
    obtain ⟨r, rfl⟩ := hBefore.tells e (List.mem_append_left a he)
    cases hEnd
  | refused r _ => exact ⟨r, rfl⟩
  | accepted r => exact absurd (.inl rfl) hClosed
  | notYet => exact absurd (.inl rfl) hClosed
  | expired => exact absurd (.inl rfl) hClosed
  | taken r => exact absurd (.inr ⟨r, rfl⟩) hClosed
  | dropped hOpen => exact absurd hOpen hClosed

theorem Lives.opened_mem {s' : Option Slot} (h : Lives s l s') (hs : s = none)
    (hs' : s' ≠ none) : .opened ∈ l := by
  induction h with
  | nil => exact absurd hs hs'
  | cons hNext _ ih =>
    subst hs
    cases hNext with
    | opened => exact List.mem_cons_self
    | refused r _ => exact List.mem_cons_of_mem _ (ih rfl hs')
    | dropped hOpen => rcases hOpen with hOpen | ⟨r, hOpen⟩ <;> cases hOpen

theorem Lives.isEnd_unique {m' : Mark} (h : Lives none l s) (hm : m ∈ l) (hm' : m' ∈ l) (hEnd : m.IsEnd)
    (hEnd' : m'.IsEnd) : m = m' := by
  have hLater {a b : List Mark} {m m' : Mark} (h : Lives none (a ++ m :: b) s) (hEnd : m.IsEnd)
      (hEnd' : m'.IsEnd) : m' ∉ b := by
    intro hMem
    rw [List.append_cons] at h
    obtain ⟨r, rfl⟩ := h.refused_of_isEnd (by simp) hEnd hMem
    cases hEnd'
  obtain ⟨a, b, rfl⟩ := List.append_of_mem hm
  rcases List.mem_append.mp hm' with hm' | hm'
  · obtain ⟨a₁, a₂, rfl⟩ := List.append_of_mem hm'
    rw [List.append_assoc, List.cons_append] at h
    exact absurd (by simp) (hLater h hEnd' hEnd)
  · rcases List.mem_cons.mp hm' with rfl | hm'
    · rfl
    · exact absurd hm' (hLater h hEnd hEnd')

end Slot

namespace Chronicle

def IsOver (slot : Nat) (l : Chronicle) : Prop := ∃ u m, (u, slot, m) ∈ l ∧ m.IsEnd

/-- The wait for a slot is over. It ran out of time exactly at its due time, or it found what was accepted
at that very instant; and what was accepted was found or dropped at that very instant. -/
structure Settles (l : Chronicle) (slot : Nat) (due : Option Nat) : Prop where
  ended : l.IsOver slot
  expired : ∀ u, (u, slot, .looked (some none)) ∈ l →
    due = some u ∧ ∀ u' r, (u', slot, .signalled r true) ∉ l
  returned : ∀ u r, (u, slot, .looked (some (some r))) ∈ l → (u, slot, .signalled r true) ∈ l
  accepted : ∀ u r, (u, slot, .signalled r true) ∈ l →
    (u, slot, .looked (some (some r))) ∈ l ∨ (u, slot, .dropped) ∈ l

variable {l l' : Chronicle} {slot now : Nat} {due : Option Nat} {s : Option Slot}

theorem Settles.append (h : l.Settles slot due)
    (hLives : Slot.Lives none ((history (l ++ l')).on slot) s) : Settles (l ++ l') slot due := by
  have hNew {u : Nat} {m : Mark} (hm : (u, slot, m) ∈ l') : ∃ r, m = .signalled r false := by
    obtain ⟨u', e, he, hEnd⟩ := h.ended
    rw [history_append, History.on_append] at hLives
    exact hLives.refused_of_isEnd (mem_on_history_iff.mpr ⟨u', he⟩) hEnd (mem_on_history_iff.mpr ⟨u, hm⟩)
  have hOld {u : Nat} {m : Mark} (hm : (u, slot, m) ∈ l ++ l') (hne : ∀ r, m ≠ .signalled r false) :
      (u, slot, m) ∈ l := by
    rcases List.mem_append.mp hm with hm | hm
    · exact hm
    · obtain ⟨r, rfl⟩ := hNew hm
      exact absurd rfl (hne r)
  refine ⟨?_, fun u hu => ?_, fun u r hu => ?_, fun u r hu => ?_⟩
  · obtain ⟨u, e, he, hEnd⟩ := h.ended
    exact ⟨u, e, List.mem_append_left l' he, hEnd⟩
  · obtain ⟨hDue, hNone⟩ := h.expired u (hOld hu nofun)
    exact ⟨hDue, fun u' r hr => hNone u' r (hOld hr (by simp))⟩
  · exact List.mem_append_left l' (h.returned u r (hOld hu nofun))
  · exact (h.accepted u r (hOld hu (by simp))).imp (List.mem_append_left l') (List.mem_append_left l')

theorem settles_of_isEnd {m : Mark} (hEnd : m.IsEnd)
    (hLives : Slot.Lives none ((history l).on slot ++ [m]) s)
    (hAccepted : ∀ u r, (u, slot, .signalled r true) ∈ l → u = now)
    (hDue : m = .looked (some none) → due = some now) : Settles (l ++ [(now, slot, m)]) slot due := by
  obtain ⟨s₁, hBefore, hAfter⟩ := hLives.split
  have hTells := hBefore.tells
  have hOpen : Slot.IsOpen s₁ := by
    obtain _ | ⟨hNext, -⟩ := hAfter
    cases hEnd with
    | looked x =>
      cases hNext with
      | taken r => exact .inr ⟨r, rfl⟩
      | expired => exact .inl rfl
    | dropped =>
      cases hNext with
      | dropped hOpen => exact hOpen
  have hLast {u : Nat} {e : Mark} (he : (u, slot, e) ∈ l ++ [(now, slot, m)]) (hEnd' : e.IsEnd) :
      u = now ∧ e = m := by
    rcases List.mem_append.mp he with he | he
    · exact absurd hEnd' (hBefore.not_isEnd_of_isOpen hOpen (mem_on_history_iff.mpr ⟨u, he⟩))
    · simpa using he
  have hSignal {u : Nat} {r : Result} (hr : (u, slot, .signalled r true) ∈ l ++ [(now, slot, m)]) :
      (u, slot, .signalled r true) ∈ l := by
    rcases List.mem_append.mp hr with hr | hr
    · exact hr
    · obtain ⟨-, rfl⟩ : u = now ∧ Mark.signalled r true = m := by simpa using hr
      cases hEnd
  have hSelf : (now, slot, m) ∈ l ++ [(now, slot, m)] := by simp
  refine ⟨⟨now, m, hSelf, hEnd⟩, fun u hu => ?_, fun u r hu => ?_, fun u r hu => ?_⟩
  · obtain ⟨rfl, rfl⟩ := hLast hu (.looked none)
    obtain _ | ⟨_ | _ | _ | _ | _ | _, -⟩ := hAfter
    exact ⟨hDue rfl, fun u' r hr => hTells.2.1 r (mem_on_history_iff.mpr ⟨u', hSignal hr⟩)⟩
  · obtain ⟨rfl, rfl⟩ := hLast hu (.looked (some r))
    obtain _ | ⟨_ | _ | _ | _ | _ | _, -⟩ := hAfter
    obtain ⟨u', hr⟩ := mem_on_history_iff.mp hTells.1
    exact List.mem_append_left _ (hAccepted u' r hr ▸ hr)
  · have hr := hSignal hu
    obtain rfl := hAccepted u r hr
    cases hEnd with
    | dropped => exact .inr hSelf
    | looked x =>
      have hLook := Slot.Lives.look_eq hLives (mem_on_history_iff.mpr ⟨u, hr⟩)
      obtain rfl := Option.some.inj hLook
      exact .inl hSelf

end Chronicle

end TestBench
