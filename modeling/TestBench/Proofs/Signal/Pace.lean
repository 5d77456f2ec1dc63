import TestBench.Proofs.Signal.Schedule

/-! # The pace of the clock

The clock of a world moves only when nobody can go on, and then not past any time that somebody waits
for. `Scene.Runs` is the order of events at this pace, with the time at which each mark is made.
-/

namespace TestBench

/-- Marks with the times at which they are made. -/
abbrev Chronicle := List (Nat × Nat × Mark)

theorem History.mem_on_iff {slot : Nat} {m : Mark} {h : History} : m ∈ h.on slot ↔ (slot, m) ∈ h := by
  simp only [History.on, List.mem_map, List.mem_filter]
  constructor
  · rintro ⟨⟨other, _⟩, ⟨hMem, hSlot⟩, rfl⟩
    obtain rfl : other = slot := by simpa using hSlot
    exact hMem
  · intro hMem
    exact ⟨_, ⟨hMem, by simp⟩, rfl⟩

def History.stamped (time : Nat) (h : History) : Chronicle := h.map (time, ·)

theorem History.stamped_append (time : Nat) (h h' : History) :
    (h ++ h').stamped time = h.stamped time ++ h'.stamped time := List.map_append

namespace Chronicle

variable {time slot : Nat} {m : Mark} {h : History} {l : Chronicle}

def history (l : Chronicle) : History := l.map (·.2)

@[simp] theorem history_append (l l' : Chronicle) : history (l ++ l') = history l ++ history l' :=
  List.map_append

@[simp] theorem history_stamped (time : Nat) (h : History) : history (h.stamped time) = h := by
  rw [history, History.stamped, List.map_map]
  exact List.map_id h

@[simp] theorem mem_stamped_iff {u : Nat} : (u, slot, m) ∈ h.stamped time ↔ u = time ∧ (slot, m) ∈ h := by
  simp only [History.stamped, List.mem_map, Prod.mk.injEq]
  constructor
  · rintro ⟨_, hMem, rfl, rfl⟩
    exact ⟨rfl, hMem⟩
  · rintro ⟨rfl, hMem⟩
    exact ⟨_, hMem, rfl, rfl⟩

theorem mem_on_history_iff : m ∈ (history l).on slot ↔ ∃ u, (u, slot, m) ∈ l := by
  simp only [History.mem_on_iff, history, List.mem_map, Prod.exists, Prod.mk.injEq]
  constructor
  · rintro ⟨u, _, _, hMem, rfl, rfl⟩
    exact ⟨u, hMem⟩
  · rintro ⟨u, hMem⟩
    exact ⟨u, _, _, hMem, rfl, rfl⟩

end Chronicle

namespace Scene

/-- Somebody could go on without any time passing. -/
def CanGoOn (c : Scene) : Prop :=
  (∃ m ∈ c.main, c.world.canResume m.2) ∨ ∃ t ∈ c.world.tasks, c.world.canResume t.2

/-- The clock stands still, or it moves while nobody can go on and skips no time that is waited for. -/
def Paced (c c' : Scene) : Prop :=
  c'.world.now = c.world.now ∨
    c.world.now ≤ c'.world.now ∧ ¬ c.CanGoOn ∧ (∀ m ∈ c.main, ∀ due ∈ m.2.due?, c'.world.now ≤ due) ∧
      ∀ t ∈ c.world.tasks, ∀ due ∈ t.2.due?, c'.world.now ≤ due

/-- A scene comes from another by moves at this pace. -/
inductive Runs : Scene → Chronicle → Scene → Prop
  | refl (c : Scene) : Runs c [] c
  | step {c c₁ c' : Scene} {h : History} {l : Chronicle} (hMove : c.Move h c₁) (hPaced : c.Paced c₁)
      (hRest : Runs c₁ l c') : Runs c (h.stamped c.world.now ++ l) c'

namespace Runs

variable {c c₁ c' : Scene} {h : History} {l l' : Chronicle}

theorem trans (first : c.Runs l c₁) (second : c₁.Runs l' c') : c.Runs (l ++ l') c' := by
  induction first with
  | refl => exact second
  | step hMove hPaced _ ih => exact List.append_assoc .. ▸ .step hMove hPaced (ih second)

theorem single (hMove : c.Move h c') (hPaced : c.Paced c') : c.Runs (h.stamped c.world.now) c' :=
  List.append_nil (h.stamped c.world.now) ▸ .step hMove hPaced (.refl c')

theorem reaches (hRuns : c.Runs l c') : c.Reaches l.history c' := by
  induction hRuns with
  | refl c => exact .refl c
  | @step c c₁ c' h l hMove _ _ ih =>
    rw [Chronicle.history_append, Chronicle.history_stamped]
    exact .step hMove ih

end Runs

end Scene

end TestBench
