import TestBench.Proofs.Async.Paths
import TestBench.Proofs.World.Ending

/-! # Turns follow paths

Whoever a program shares its world with, and whatever they do between its turns, it goes along one of its
paths (`Program.Plays.on`). So what holds on all paths of a program holds in every run of it, as a task and
as a main program (`World.goes_of_run_panicked`).
-/

namespace TestBench

/-- What a turn of a program comes to after earlier turns, each of them in any world at all. -/
inductive Program.Plays {α : Type} (p : Async α) : Turn α → Prop
  | first (w : World) : Plays p (p.turn w).1
  | waited {x : Waiting α} (h : Plays p (.waits x)) (now : Nat) (w : World) :
      Plays p ((x.resume now).turn w).1
  | yielded {x : Waiting α} (h : Plays p (.yields x)) (now : Nat) (w : World) :
      Plays p ((x.resume now).turn w).1

/-- The waiting program has come from the beginning of another, along a part of its paths. -/
def Waiting.On {α : Type} (p : Async α) (x : Waiting α) : Prop :=
  ∃ l, ∀ now l' e, (x.resume now).Goes l' e → p.Goes (l ++ l') e

def Turn.On {α : Type} (p : Async α) : Turn α → Prop
  | finished a => ∃ l, p.Goes l (.ok a)
  | panicked q => ∃ l, p.Goes l (.error q)
  | waits x | yields x => x.On p

variable {α : Type} {p p' : Async α}

theorem Turn.On.along {t : Turn α} {l : List Reply} (h : t.On p)
    (hLeads : ∀ l' e, p.Goes l' e → p'.Goes (l ++ l') e) : t.On p' := by
  cases t with
  | finished a =>
    obtain ⟨l', hGoes⟩ := h
    exact ⟨l ++ l', hLeads l' _ hGoes⟩
  | panicked q =>
    obtain ⟨l', hGoes⟩ := h
    exact ⟨l ++ l', hLeads l' _ hGoes⟩
  | waits x | yields x =>
    obtain ⟨l', hRest⟩ := h
    refine ⟨l ++ l', fun now rest e hGoes => ?_⟩
    rw [List.append_assoc]
    exact hLeads _ _ (hRest now rest e hGoes)

theorem Waiting.on_ready : (Waiting.ready p).On p := ⟨[], fun _ _ _ h => h⟩

theorem Program.on_turn (p : Async α) (w : World) : (p.turn w).1.On p := by
  induction p generalizing w with
  | pure a => exact ⟨[], .pure a⟩
  | panic q => exact ⟨[], .panic q⟩
  | fork task next ih => exact Turn.On.along (l := []) (ih _) fun _ _ => .fork
  | act a next ih =>
    refine Turn.On.along (l := [.answer a (w.perform a).1]) (ih _ _) fun _ _ h => .act _ h
  | report r next ih => exact Turn.On.along (l := []) (ih _) fun _ _ => .report
  | notice n next ih => exact Turn.On.along (l := []) (ih _) fun _ _ => .notice
  | yield next _ => exact ⟨[], fun _ _ _ => .yield⟩
  | sleep ms next ih =>
    unfold turn
    split
    · exact Waiting.on_ready
    · split
      · exact Turn.On.along (l := []) (ih _) fun _ _ => .sleep
      · exact ⟨[], fun _ _ _ h => .sleep (goes_sleep_iff.mp h)⟩
  | await slot timeout next ih =>
    have hAwait (timeout' : Option Nat) {l : List Reply} {e : Except Payload α}
        (h : (await slot timeout' next).Goes l e) : (await slot timeout next).Goes l e :=
      goes_await_iff.mpr (goes_await_iff.mp h)
    unfold turn
    split
    · exact ⟨[], fun _ _ _ h => h⟩
    · split
      · rename_i result w' _
        exact Turn.On.along (l := [.found slot result]) (ih result _) fun _ _ => .await result
      · exact ⟨[], fun _ _ _ h => hAwait _ h⟩

theorem Program.Plays.on {t : Turn α} (h : p.Plays t) : t.On p := by
  induction h with
  | first w => exact p.on_turn w
  | waited _ now w ih =>
    obtain ⟨l, hRest⟩ := ih
    exact (Program.on_turn _ w).along (hRest now)
  | yielded _ now w ih =>
    obtain ⟨l, hRest⟩ := ih
    exact (Program.on_turn _ w).along (hRest now)

/-! ## Main programs -/

def Progress.Plays {α : Type} (p : Async α) : Progress α → Prop
  | ended (.finished a) _ => p.Plays (.finished a)
  | ended (.panicked q) _ => p.Plays (.panicked q)
  | ended _ _ => True
  | waits main _ => ∀ now w, p.Plays ((main.resume now).turn w).1

namespace World

variable {limit : Option Nat} {main : Waiting α}

theorem plays_wait (w : World) (h : ∀ now w, p.Plays ((main.resume now).turn w).1) :
    (w.wait limit main).Plays p := by
  unfold wait
  split
  · trivial
  · exact h

theorem plays_turnMain {p₁ : Async α} (w : World) (h : p.Plays (p₁.turn w).1) :
    (w.turnMain limit p₁).Plays p := by
  unfold turnMain
  split <;> rename_i hTurn <;> rw [hTurn] at h
  · exact h
  · exact h
  · exact plays_wait _ h.waited
  · exact plays_wait _ h.yielded

theorem plays_step (w : World) (h : ∀ now w, p.Plays ((main.resume now).turn w).1) :
    (w.step limit main).Plays p := by
  have hAttend : (w.attend limit main).Plays p := by
    unfold attend
    simp only
    split
    · exact plays_turnMain _ (h _ _)
    · split
      · exact h
      · split
        · trivial
        · split
          · exact plays_turnMain _ (h _ _)
          · exact plays_wait _ h
  unfold step
  split
  · exact hAttend
  · split
    · exact h
    · exact hAttend

theorem Drives.plays {w w' : World} {e : Ending α} (h : Drives limit main w e w')
    (hMain : ∀ now w, p.Plays ((main.resume now).turn w).1) : (Progress.ended e w').Plays p := by
  induction h with
  | @last main w w' e h => exact h ▸ plays_step w hMain
  | @more main main' w w₁ w' e h _ ih =>
    have hStep : (Progress.waits main' w₁).Plays p := h ▸ plays_step w hMain
    exact ih hStep

theorem Ends.plays {w w' : World} {e : Ending α} (h : Ends limit p w e w') :
    (Progress.ended e w').Plays p := by
  have hTurn : (w.turnMain limit p).Plays p := plays_turnMain w (.first w)
  unfold Ends at h
  cases hMain : w.turnMain limit p with
  | ended e₁ w₁ =>
    rw [hMain] at h hTurn
    obtain ⟨rfl, rfl⟩ := h
    exact hTurn
  | waits main w₁ =>
    rw [hMain] at h hTurn
    exact Drives.plays h hTurn

theorem goes_of_run_panicked {turns : Nat} {w w' : World} {q : Payload}
    (h : run turns limit p w = (.panicked q, w')) : ∃ l, p.Goes l (.error q) := by
  have hPlays : p.Plays (.panicked q) := (ends_of_run h nofun).plays
  exact hPlays.on

end World

end TestBench
