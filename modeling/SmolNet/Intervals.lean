import Mathlib

/-!
# Lists of intervals

A list of half-open intervals of natural numbers stands for the set of numbers that they cover.  In
ascending order, with a gap between any two, its elements are the maximal runs of that set.
-/

namespace SmolNet.Intervals

/-- The interval with its start and the number after its last one. -/
abbrev Interval := ℕ × ℕ

def Covers (ranges : List Interval) (n : ℕ) : Prop := ∃ p ∈ ranges, p.1 ≤ n ∧ n < p.2

instance (ranges : List Interval) : DecidablePred (Covers ranges) :=
  fun _ => inferInstanceAs (Decidable (∃ p ∈ ranges, _))

/-- The set that a list of intervals covers. -/
def octets (ranges : List Interval) : Set ℕ := {n | Covers ranges n}

@[simp] theorem mem_octets {ranges : List Interval} {n : ℕ} : n ∈ octets ranges ↔ Covers ranges n := Iff.rfl

@[simp] theorem not_covers_nil (n : ℕ) : ¬ Covers [] n := by
  simp [Covers]

@[simp] theorem covers_cons {p : Interval} {ranges : List Interval} {n : ℕ} :
    Covers (p :: ranges) n ↔ (p.1 ≤ n ∧ n < p.2) ∨ Covers ranges n := by
  simp [Covers]

/-- No interval is empty, and there is a gap between one and the next. -/
structure Ascending (ranges : List Interval) : Prop where
  nonempty : ∀ p ∈ ranges, p.1 < p.2
  apart : ranges.Pairwise fun p q => p.2 < q.1

instance : DecidablePred Ascending := fun ranges =>
  decidable_of_iff ((∀ p ∈ ranges, p.1 < p.2) ∧ ranges.Pairwise fun p q => p.2 < q.1)
    ⟨fun h => ⟨h.1, h.2⟩, fun h => ⟨h.nonempty, h.apart⟩⟩

theorem ascending_nil : Ascending [] := ⟨by simp, .nil⟩

theorem ascending_cons {p : Interval} {ranges : List Interval} :
    Ascending (p :: ranges) ↔ p.1 < p.2 ∧ (∀ q ∈ ranges, p.2 < q.1) ∧ Ascending ranges := by
  constructor
  · rintro ⟨hne, hap⟩
    obtain ⟨hgap, hap⟩ := List.pairwise_cons.1 hap
    exact ⟨hne p (by simp), hgap, fun q hq => hne q (by simp [hq]), hap⟩
  · rintro ⟨hp, hgap, hrest⟩
    refine ⟨?_, List.pairwise_cons.2 ⟨hgap, hrest.apart⟩⟩
    intro q hq
    rcases List.mem_cons.1 hq with rfl | hq
    · exact hp
    · exact hrest.nonempty q hq

namespace Ascending

variable {p q : Interval} {ranges : List Interval} {n : ℕ}

theorem tail (h : Ascending (p :: ranges)) : Ascending ranges := (ascending_cons.1 h).2.2

theorem head (h : Ascending (p :: ranges)) : p.1 < p.2 := (ascending_cons.1 h).1

theorem gap (h : Ascending (p :: ranges)) (hq : q ∈ ranges) : p.2 < q.1 := (ascending_cons.1 h).2.1 q hq

theorem lt_of_covers (h : Ascending (p :: ranges)) (hn : Covers ranges n) : p.2 < n := by
  obtain ⟨q, hq, hle, -⟩ := hn
  have := h.gap hq
  omega

theorem drop (h : Ascending ranges) (k : ℕ) : Ascending (ranges.drop k) :=
  ⟨fun p hp => h.nonempty p (List.mem_of_mem_drop hp), h.apart.drop⟩

end Ascending

/-- A run of numbers of `S` that goes on at neither end. -/
structure MaximalRun (S : Set ℕ) (p : Interval) : Prop where
  nonempty : p.1 < p.2
  inside : ∀ n, p.1 ≤ n → n < p.2 → n ∈ S
  below : ∀ n, n + 1 = p.1 → n ∉ S
  above : p.2 ∉ S

/-- Two maximal runs with a number in common are the same. -/
theorem MaximalRun.unique {S : Set ℕ} {p q : Interval} (hp : MaximalRun S p) (hq : MaximalRun S q) {n : ℕ}
    (hn : p.1 ≤ n ∧ n < p.2) (hn' : q.1 ≤ n ∧ n < q.2) : p = q := by
  have hstart : ∀ {p q : Interval}, MaximalRun S p → MaximalRun S q → p.1 ≤ n → n < q.2 → p.1 ≤ q.1 := by
    intro p q hp hq hle hlt
    by_contra hlt'
    have hpred : p.1 - 1 + 1 = p.1 := by omega
    exact hp.below (p.1 - 1) hpred (hq.inside _ (by omega) (by omega))
  have hend : ∀ {p q : Interval}, MaximalRun S p → MaximalRun S q → n < p.2 → q.1 ≤ n → q.2 ≤ p.2 := by
    intro p q hp hq hlt hle
    by_contra hlt'
    exact hp.above (hq.inside _ (by omega) (by omega))
  have h1 := hstart hp hq hn.1 hn'.2
  have h2 := hstart hq hp hn'.1 hn.2
  have h3 := hend hp hq hn.2 hn'.1
  have h4 := hend hq hp hn'.2 hn.1
  exact Prod.ext (by omega) (by omega)

namespace Ascending

variable {ranges : List Interval}

/-- An element of an ascending list is a maximal run of what the list covers. -/
theorem maximalRun_of_mem (h : Ascending ranges) {p : Interval} (hp : p ∈ ranges) :
    MaximalRun (octets ranges) p := by
  induction ranges with
  | nil => simp at hp
  | cons q rest ih =>
      rcases List.mem_cons.1 hp with rfl | hp
      · refine ⟨h.head, fun n hle hlt => covers_cons.2 (.inl ⟨hle, hlt⟩), ?_, ?_⟩
        · intro n hn hcov
          rcases covers_cons.1 hcov with hcov | hcov
          · omega
          · have := h.lt_of_covers hcov
            have := h.head
            omega
        · intro hcov
          rcases covers_cons.1 hcov with hcov | hcov
          · omega
          · exact absurd (h.lt_of_covers hcov) (lt_irrefl _)
      · have hrun := ih h.tail hp
        have hgap := h.gap hp
        refine ⟨hrun.nonempty, fun n hle hlt => covers_cons.2 (.inr (hrun.inside n hle hlt)), ?_, ?_⟩
        · intro n hn hcov
          rcases covers_cons.1 hcov with hcov | hcov
          · omega
          · exact hrun.below n hn hcov
        · intro hcov
          have := hrun.nonempty
          rcases covers_cons.1 hcov with hcov | hcov
          · omega
          · exact hrun.above hcov

/-- The elements of an ascending list are exactly the maximal runs of what it covers. -/
theorem mem_iff_maximalRun (h : Ascending ranges) {p : Interval} :
    p ∈ ranges ↔ MaximalRun (octets ranges) p := by
  constructor
  · exact h.maximalRun_of_mem
  · intro hp
    obtain ⟨q, hq, hle, hlt⟩ := hp.inside p.1 le_rfl hp.nonempty
    have := hp.unique (h.maximalRun_of_mem hq) ⟨le_rfl, hp.nonempty⟩ ⟨hle, hlt⟩
    rwa [this]

/-- A run of covered numbers lies within one interval. -/
theorem exists_of_covered (h : Ascending ranges) {left right : ℕ} (hlt : left < right)
    (hcov : ∀ n, left ≤ n → n < right → Covers ranges n) : ∃ p ∈ ranges, p.1 ≤ left ∧ right ≤ p.2 := by
  obtain ⟨p, hp, hle, hlt'⟩ := hcov left le_rfl hlt
  refine ⟨p, hp, hle, ?_⟩
  by_contra hgt
  exact (h.maximalRun_of_mem hp).above (hcov p.2 (by omega) (by omega))

end Ascending

/-! ## Counting -/

/-- How many numbers from `start` up to `stop` are covered. -/
def count (start stop : ℕ) (ranges : List Interval) : ℕ := ((Finset.Ico start stop).filter (Covers ranges)).card

@[simp] theorem count_nil (start stop : ℕ) : count start stop [] = 0 := by
  simp [count]

/-- The first interval is counted for itself, as it has nothing in common with the others. -/
theorem Ascending.count_cons {p : Interval} {ranges : List Interval} (h : Ascending (p :: ranges))
    (start stop : ℕ) :
    count start stop (p :: ranges) = (min p.2 stop - max p.1 start) + count start stop ranges := by
  have hsplit : (Finset.Ico start stop).filter (Covers (p :: ranges)) =
      Finset.Ico (max p.1 start) (min p.2 stop) ∪ (Finset.Ico start stop).filter (Covers ranges) := by
    ext n
    simp only [Finset.mem_filter, Finset.mem_union, Finset.mem_Ico, covers_cons]
    constructor
    · rintro ⟨hn, hp | hcov⟩
      · exact .inl (by omega)
      · exact .inr ⟨hn, hcov⟩
    · rintro (hn | ⟨hn, hcov⟩)
      · exact ⟨by omega, .inl (by omega)⟩
      · exact ⟨hn, .inr hcov⟩
  have hdisjoint : Disjoint (Finset.Ico (max p.1 start) (min p.2 stop))
      ((Finset.Ico start stop).filter (Covers ranges)) := by
    rw [Finset.disjoint_left]
    intro n hn hcov
    have := h.lt_of_covers (Finset.mem_filter.1 hcov).2
    have := Finset.mem_Ico.1 hn
    omega
  rw [count, hsplit, Finset.card_union_of_disjoint hdisjoint, Nat.card_Ico, count]

theorem count_le (start stop : ℕ) (ranges : List Interval) : count start stop ranges ≤ stop - start := by
  have hcard := Finset.card_filter_le (Finset.Ico start stop) (Covers ranges)
  rwa [Nat.card_Ico] at hcard

/-- The count falls short of the numbers just if one of them is in no interval. -/
theorem count_lt_iff {start stop : ℕ} {ranges : List Interval} :
    count start stop ranges < stop - start ↔ ∃ o, start ≤ o ∧ o < stop ∧ ¬ Covers ranges o := by
  have hcard : (Finset.Ico start stop).card = stop - start := Nat.card_Ico start stop
  unfold count
  rw [← hcard]
  constructor
  · intro hlt
    by_contra hall
    push Not at hall
    have heq : (Finset.Ico start stop).filter (Covers ranges) = Finset.Ico start stop :=
      Finset.filter_true_of_mem fun o ho => hall o (Finset.mem_Ico.1 ho).1 (Finset.mem_Ico.1 ho).2
    rw [heq] at hlt
    exact lt_irrefl _ hlt
  · rintro ⟨o, hle, hlt, hcov⟩
    refine Finset.card_lt_card (Finset.filter_ssubset.2 ⟨o, Finset.mem_Ico.2 ⟨hle, hlt⟩, hcov⟩)

theorem count_eq_ncard (start stop : ℕ) (ranges : List Interval) :
    count start stop ranges = (octets ranges ∩ Set.Ico start stop).ncard := by
  have hset : octets ranges ∩ Set.Ico start stop = ((Finset.Ico start stop).filter (Covers ranges) : Finset ℕ) := by
    ext n
    simp [and_comm]
  rw [hset, Set.ncard_coe_finset, count]

/-! ## The lowest of some intervals -/

/-- The result is the interval with the lowest start among those that satisfy `P`, or there is none. -/
def Lowest (P : Interval → Prop) : Option Interval → Prop
  | none => ∀ q, ¬ P q
  | some p => P p ∧ ∀ q, P q → p.1 ≤ q.1

end SmolNet.Intervals
