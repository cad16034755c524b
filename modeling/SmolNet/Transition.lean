import Mathlib.Data.List.Basic

/-!
# Transition systems

A partial step function on states and events.  `Reaches` collects the states that are reached by
events which each meet a condition; `execute` runs a given list of events.
-/

namespace SmolNet.Transition

variable {σ ε : Type}

/-- The states that are reached from an initial one by events that are `ok` where they happen. -/
inductive Reaches (step : σ → ε → Option σ) (ok : σ → ε → Prop) (init : σ → Prop) : σ → Prop
  | start {s : σ} : init s → Reaches step ok init s
  | event {s s' : σ} {e : ε} : Reaches step ok init s → ok s e → step s e = some s' →
      Reaches step ok init s'

variable {step : σ → ε → Option σ} {ok ok' : σ → ε → Prop} {init : σ → Prop} {s s' : σ}

/-- What initial states have and `ok` events keep holds in every state that is reached. -/
theorem Reaches.invariant {P : σ → Prop} (hinit : ∀ s, init s → P s)
    (hstep : ∀ s e s', P s → ok s e → step s e = some s' → P s') (h : Reaches step ok init s) : P s := by
  induction h with
  | start hs => exact hinit _ hs
  | event _ hok hs ih => exact hstep _ _ _ ih hok hs

theorem Reaches.mono (h : Reaches step ok init s) (hok : ∀ s e, ok s e → ok' s e) : Reaches step ok' init s := by
  induction h with
  | start hs => exact .start hs
  | event _ he hs ih => exact ih.event (hok _ _ he) hs

/-- A guarded step is taken only where its guard holds. -/
theorem guarded {p : Prop} [Decidable p] (h : (if p then some s else none) = some s') : p ∧ s = s' := by
  split at h
  · rename_i hp
    exact ⟨hp, Option.some.inj h⟩
  · cases h

/-- Runs the events in turn, as long as each is possible and `ok`. -/
def execute (step : σ → ε → Option σ) (ok : σ → ε → Prop) [∀ s e, Decidable (ok s e)] (s : σ) :
    List ε → Option σ
  | [] => some s
  | e :: rest => if ok s e then (step s e).bind fun s' => execute step ok s' rest else none

theorem Reaches.execute [∀ s e, Decidable (ok s e)] (h : Reaches step ok init s) {events : List ε}
    (hrun : Transition.execute step ok s events = some s') : Reaches step ok init s' := by
  induction events generalizing s with
  | nil =>
      obtain rfl := Option.some.inj hrun
      exact h
  | cons e rest ih =>
      unfold Transition.execute at hrun
      split at hrun
      · rename_i hok
        obtain ⟨t, ht, hrest⟩ := Option.bind_eq_some_iff.1 hrun
        exact ih (h.event hok ht) hrest
      · cases hrun

/-- What is observed at the end of a run is observed of a state that is reached. -/
theorem Reaches.observe [∀ s e, Decidable (ok s e)] {α : Type} {f : σ → α} {a : α}
    (h : Reaches step ok init s) {events : List ε}
    (hrun : (Transition.execute step ok s events).map f = some a) :
    ∃ s', Reaches step ok init s' ∧ f s' = a := by
  obtain ⟨s', hs', ha⟩ := Option.map_eq_some_iff.1 hrun
  exact ⟨s', h.execute hs', ha⟩

end SmolNet.Transition
