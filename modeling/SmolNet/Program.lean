import Mathlib

/-!
# Programs that fail or panic

A program over a mutable state returns a value, fails with an error and keeps the state it has
reached, or panics.  `wp` is its weakest precondition: it excludes panics and gives errors a
postcondition of their own.
-/

namespace SmolNet

inductive Fault (ε : Type) where
  | error (e : ε)
  | panic

/-- A program over the state `σ` with errors in `ε`. -/
abbrev Program (σ ε α : Type) := EStateM (Fault ε) σ α

namespace Program

variable {σ ε ε' α β : Type}

def fail (e : ε) : Program σ ε α := throw (.error e)

def panics : Program σ ε α := throw .panic

def require (p : Prop) [Decidable p] (e : ε) : Program σ ε Unit :=
  if p then pure () else fail e

def orFail (o : Option α) (e : ε) : Program σ ε α :=
  match o with
  | some a => pure a
  | none => fail e

def orPanic (o : Option α) : Program σ ε α :=
  match o with
  | some a => pure a
  | none => panics

def ofExcept (r : Except ε α) : Program σ ε α :=
  match r with
  | .ok a => pure a
  | .error e => fail e

/-- Runs a program that is expected not to fail. -/
def expect (m : Program σ ε α) : Program σ ε' α := fun s =>
  match m s with
  | .ok a s' => .ok a s'
  | .error _ s' => .error .panic s'

/-- Translates a program's errors. -/
def mapError (f : ε → ε') (m : Program σ ε α) : Program σ ε' α := fun s =>
  match m s with
  | .ok a s' => .ok a s'
  | .error (.error e) s' => .error (.error (f e)) s'
  | .error .panic s' => .error .panic s'

/-- Runs `f` on each element in turn. -/
def each (f : β → Program σ ε Unit) : List β → Program σ ε Unit
  | [] => pure ()
  | b :: bs => do
      f b
      each f bs

/-- `m` from `s` does not panic, returns with `Q` or fails with `E`. -/
def wp (m : Program σ ε α) (Q : α → σ → Prop) (E : ε → σ → Prop) (s : σ) : Prop :=
  match m s with
  | .ok a s' => Q a s'
  | .error (.error e) s' => E e s'
  | .error .panic _ => False

variable {Q Q' : α → σ → Prop} {E E' : ε → σ → Prop} {s : σ}

@[simp] theorem wp_pure (a : α) : wp (pure a : Program σ ε α) Q E s ↔ Q a s := Iff.rfl

@[simp] theorem wp_fail (e : ε) : wp (fail e : Program σ ε α) Q E s ↔ E e s := Iff.rfl

@[simp] theorem wp_panics : wp (panics : Program σ ε α) Q E s ↔ False := Iff.rfl

@[simp] theorem wp_get {Q : σ → σ → Prop} : wp (get : Program σ ε σ) Q E s ↔ Q s s := Iff.rfl

@[simp] theorem wp_set {Q : PUnit → σ → Prop} (s' : σ) :
    wp (set s' : Program σ ε PUnit) Q E s ↔ Q ⟨⟩ s' := Iff.rfl

@[simp] theorem wp_modify {Q : PUnit → σ → Prop} (f : σ → σ) :
    wp (modify f : Program σ ε PUnit) Q E s ↔ Q ⟨⟩ (f s) := Iff.rfl

@[simp] theorem wp_bind {Q : β → σ → Prop} (m : Program σ ε α) (f : α → Program σ ε β) :
    wp (m >>= f) Q E s ↔ wp m (fun a s' => wp (f a) Q E s') E s := by
  unfold wp
  simp only [bind, EStateM.bind]
  cases m s with
  | ok a s' => rfl
  | error e s' => cases e <;> rfl

@[simp] theorem wp_map {Q : β → σ → Prop} (m : Program σ ε α) (f : α → β) :
    wp (f <$> m) Q E s ↔ wp m (fun a s' => Q (f a) s') E s := by
  unfold wp
  simp only [Functor.map, EStateM.map]
  cases m s with
  | ok a s' => rfl
  | error e s' => cases e <;> rfl

@[simp] theorem wp_ite (p : Prop) [Decidable p] (m m' : Program σ ε α) :
    wp (if p then m else m') Q E s ↔ (p → wp m Q E s) ∧ (¬p → wp m' Q E s) := by
  by_cases h : p <;> simp [h]

@[simp] theorem wp_require {Q : Unit → σ → Prop} (p : Prop) [Decidable p] (e : ε) :
    wp (require p e : Program σ ε Unit) Q E s ↔ (p → Q () s) ∧ (¬p → E e s) := by
  simp [require]

@[simp] theorem wp_orFail (o : Option α) (e : ε) :
    wp (orFail o e : Program σ ε α) Q E s ↔ (∀ a, o = some a → Q a s) ∧ (o = none → E e s) := by
  cases o <;> simp [orFail]

@[simp] theorem wp_orPanic (o : Option α) :
    wp (orPanic o : Program σ ε α) Q E s ↔ ∃ a, o = some a ∧ Q a s := by
  cases o <;> simp [orPanic]

@[simp] theorem wp_ofExcept (r : Except ε α) :
    wp (ofExcept r : Program σ ε α) Q E s ↔ (∀ a, r = .ok a → Q a s) ∧ ∀ e, r = .error e → E e s := by
  cases r <;> simp [ofExcept]

@[simp] theorem wp_mapError {E : ε' → σ → Prop} (f : ε → ε') (m : Program σ ε α) :
    wp (mapError f m) Q E s ↔ wp m Q (fun e s' => E (f e) s') s := by
  unfold wp mapError
  cases m s with
  | ok a s' => rfl
  | error e s' => cases e <;> rfl

theorem wp_mono {m : Program σ ε α} (h : wp m Q E s) (hQ : ∀ a s', Q a s' → Q' a s')
    (hE : ∀ e s', E e s' → E' e s') : wp m Q' E' s := by
  unfold wp at h ⊢
  cases hm : m s with
  | ok a s' =>
      rw [hm] at h
      exact hQ a s' h
  | error e s' =>
      rw [hm] at h
      cases e with
      | error e => exact hE e s' h
      | panic => exact h

theorem wp_expect {m : Program σ ε α} {E' : ε' → σ → Prop} (h : wp m Q (fun _ _ => False) s) :
    wp (expect m) Q E' s := by
  unfold wp expect at *
  cases hm : m s with
  | ok a s' => simpa [hm] using h
  | error e s' =>
      rw [hm] at h
      cases e <;> exact h.elim

/-- A property that every element's program keeps is kept by running them all. -/
theorem wp_each {f : β → Program σ ε Unit} {I : σ → Prop} {bs : List β}
    (h : ∀ b ∈ bs, ∀ s, I s → wp (f b) (fun _ => I) E s) (hs : I s) :
    wp (each f bs) (fun _ => I) E s := by
  induction bs generalizing s with
  | nil => exact hs
  | cons b bs ih =>
      rw [each, wp_bind]
      refine wp_mono (h b (by simp) s hs) (fun _ s' hs' => ?_) (fun _ _ he => he)
      exact ih (fun b' hb' => h b' (by simp [hb'])) hs'

theorem wp_ok {m : Program σ ε α} {a : α} {s' : σ} (h : wp m Q E s) (hm : m s = .ok a s') :
    Q a s' := by
  simpa [wp, hm] using h

theorem wp_error {m : Program σ ε α} {e : ε} {s' : σ} (h : wp m Q E s)
    (hm : m s = .error (.error e) s') : E e s' := by
  simpa [wp, hm] using h

end Program

end SmolNet
