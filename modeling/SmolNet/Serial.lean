import Mathlib

/-!
# Serial numbers

Sequence numbers that wrap round are compared by the sign of their difference, and subtracted only where
that is not negative.  Code that uses nothing else is written over any type with such a comparison and
subtraction; within a window of fewer than `2 ^ 31` numbers it does the same as on the offsets from the
window's start.
-/

namespace SmolNet.Serial

/-- A subtraction that fails where the difference is negative. -/
class Distance (α : Type) where
  distance : α → α → Option Nat

export Distance (distance)

section Compare

variable {α : Type} [Ord α]

def lt (a b : α) : Bool := (compare a b).isLT

def le (a b : α) : Bool := (compare a b).isLE

def gt (a b : α) : Bool := (compare a b).isGT

def ge (a b : α) : Bool := (compare a b).isGE

def max (a b : α) : α := if gt a b then a else b

def min (a b : α) : α := if lt a b then a else b

end Compare

/-! ## Natural numbers -/

instance : Distance Nat where
  distance a b := if b ≤ a then some (a - b) else none

@[simp] theorem distance_nat {a b : Nat} (h : b ≤ a) : distance a b = some (a - b) := if_pos h

@[simp] theorem lt_nat (a b : Nat) : lt a b = decide (a < b) := by
  unfold lt
  rcases Nat.lt_trichotomy a b with h | rfl | h
  · simp [Nat.compare_eq_lt.2 h, h]
  · simp
  · simp [Nat.compare_eq_gt.2 h, Nat.le_of_lt h]

@[simp] theorem le_nat (a b : Nat) : le a b = decide (a ≤ b) := by
  unfold le
  rcases Nat.lt_trichotomy a b with h | rfl | h
  · simp [Nat.compare_eq_lt.2 h, Nat.le_of_lt h]
  · simp
  · simp [Nat.compare_eq_gt.2 h, h]

@[simp] theorem gt_nat (a b : Nat) : gt a b = decide (b < a) := by
  unfold gt
  rcases Nat.lt_trichotomy a b with h | rfl | h
  · simp [Nat.compare_eq_lt.2 h, Nat.le_of_lt h]
  · simp
  · simp [Nat.compare_eq_gt.2 h, h]

@[simp] theorem ge_nat (a b : Nat) : ge a b = decide (b ≤ a) := by
  unfold ge
  rcases Nat.lt_trichotomy a b with h | rfl | h
  · simp [Nat.compare_eq_lt.2 h, h]
  · simp
  · simp [Nat.compare_eq_gt.2 h, Nat.le_of_lt h]

@[simp] theorem max_nat (a b : Nat) : max a b = Max.max a b := by
  unfold max
  rcases Nat.lt_or_ge b a with h | h
  · simp [h, Nat.max_eq_left (Nat.le_of_lt h)]
  · simp [h, Nat.not_lt.2 h]

@[simp] theorem min_nat (a b : Nat) : min a b = Min.min a b := by
  unfold min
  rcases Nat.lt_or_ge a b with h | h
  · simp [h, Nat.min_eq_left (Nat.le_of_lt h)]
  · simp [h, Nat.not_lt.2 h]

/-! ## Reading one kind of number as another -/

/-- Where `W` holds, `e` keeps comparisons and differences. -/
structure Embeds {α β : Type} [Ord α] [Distance α] [Ord β] [Distance β] (W : α → Prop) (e : α → β) :
    Prop where
  compare : ∀ {a b : α}, W a → W b → Ord.compare (e a) (e b) = Ord.compare a b
  distance : ∀ {a b : α}, W a → W b → Distance.distance (e a) (e b) = Distance.distance a b
  injective : ∀ {a b : α}, W a → W b → e a = e b → a = b

namespace Embeds

variable {α β : Type} [Ord α] [Distance α] [Ord β] [Distance β] {W : α → Prop} {e : α → β} {a b : α}
variable (h : Embeds W e)

include h

theorem lt (ha : W a) (hb : W b) : Serial.lt (e a) (e b) = Serial.lt a b := by
  rw [Serial.lt, Serial.lt, h.compare ha hb]

theorem le (ha : W a) (hb : W b) : Serial.le (e a) (e b) = Serial.le a b := by
  rw [Serial.le, Serial.le, h.compare ha hb]

theorem gt (ha : W a) (hb : W b) : Serial.gt (e a) (e b) = Serial.gt a b := by
  rw [Serial.gt, Serial.gt, h.compare ha hb]

theorem ge (ha : W a) (hb : W b) : Serial.ge (e a) (e b) = Serial.ge a b := by
  rw [Serial.ge, Serial.ge, h.compare ha hb]

theorem max (ha : W a) (hb : W b) : Serial.max (e a) (e b) = e (Serial.max a b) := by
  rw [Serial.max, Serial.max, h.gt ha hb]
  split <;> rfl

theorem min (ha : W a) (hb : W b) : Serial.min (e a) (e b) = e (Serial.min a b) := by
  rw [Serial.min, Serial.min, h.lt ha hb]
  split <;> rfl

end Embeds

theorem max_cases {α : Type} [Ord α] {W : α → Prop} {a b : α} (ha : W a) (hb : W b) : W (max a b) := by
  unfold max
  split
  · exact ha
  · exact hb

theorem min_cases {α : Type} [Ord α] {W : α → Prop} {a b : α} (ha : W a) (hb : W b) : W (min a b) := by
  unfold min
  split
  · exact ha
  · exact hb

/-! ## Numbers of 32 bits -/

/-- A sequence number, which wraps round. -/
structure SeqNumber where
  bits : BitVec 32
deriving DecidableEq, Repr

namespace SeqNumber

/-- `wrapping_sub`, read as a signed number. -/
def diff (a b : SeqNumber) : Int := (a.bits - b.bits).toInt

instance : Ord SeqNumber where
  compare a b := compare (a.diff b) 0

instance : Distance SeqNumber where
  distance a b := if a.diff b < 0 then none else some (a.diff b).toNat

/-- How far a number lies above the start of a window. -/
def offset (base a : SeqNumber) : Nat := (a.bits - base.bits).toNat

/-- The number lies in the window of fewer than `2 ^ 31` octets that starts at `base`, or at its end. -/
def Within (base a : SeqNumber) : Prop := base.offset a < 2 ^ 31

instance (base a : SeqNumber) : Decidable (base.Within a) := inferInstanceAs (Decidable (_ < _))

theorem diff_eq {base a b : SeqNumber} (ha : base.Within a) (hb : base.Within b) :
    a.diff b = base.offset a - base.offset b := by
  unfold Within offset at ha hb
  unfold diff offset
  have hbits : a.bits - b.bits = (a.bits - base.bits) - (b.bits - base.bits) := by bv_omega
  rw [hbits, BitVec.toInt_eq_toNat_cond, BitVec.toNat_sub]
  split <;> omega

theorem offset_injective {base a b : SeqNumber} (h : base.offset a = base.offset b) : a = b := by
  obtain ⟨a⟩ := a
  obtain ⟨b⟩ := b
  unfold offset at h
  congr 1
  bv_omega

/-- Within a window numbers compare and subtract as their offsets do. -/
theorem embeds (base : SeqNumber) : Embeds base.Within base.offset where
  compare {a b} ha hb := by
    have h := diff_eq ha hb
    change Ord.compare (base.offset a) (base.offset b) = Ord.compare (a.diff b) 0
    rcases Nat.lt_trichotomy (base.offset a) (base.offset b) with hlt | heq | hgt
    · rw [Nat.compare_eq_lt.2 hlt, eq_comm, Int.compare_eq_lt]
      omega
    · rw [Nat.compare_eq_eq.2 heq, eq_comm, Int.compare_eq_eq]
      omega
    · rw [Nat.compare_eq_gt.2 hgt, eq_comm, Int.compare_eq_gt]
      omega
  distance {a b} ha hb := by
    have h := diff_eq ha hb
    change (if _ then _ else _) = if a.diff b < 0 then none else some (a.diff b).toNat
    by_cases hle : base.offset b ≤ base.offset a
    · rw [if_pos hle, if_neg (by omega)]
      congr 1
      omega
    · rw [if_neg hle, if_pos (by omega)]
  injective _ _ h := offset_injective h

end SeqNumber

end SmolNet.Serial
