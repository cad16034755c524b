import Mathlib.Data.List.Rotate

/-!
# Cyclic first fit

The elements of a list are given out one at a time: the first one that is free, in a cyclic order that goes on
behind the element given out last.
-/

namespace SmolNet.FirstFit

variable {α : Type}

/-- The first element of the order that is free. -/
def firstFit (used : α → Bool) (order : List α) : Option α := order.find? fun a => !used a

theorem firstFit_eq_none {used : α → Bool} {order : List α} :
    firstFit used order = none ↔ ∀ a ∈ order, used a = true := by
  simp [firstFit]

/-- What is found is free, and what comes before it in the order is not. -/
theorem firstFit_eq_some {used : α → Bool} {order : List α} {a : α} :
    firstFit used order = some a ↔
      used a = false ∧ ∃ before after, order = before ++ a :: after ∧ ∀ b ∈ before, used b = true := by
  rw [firstFit, List.find?_eq_some_iff_append]
  simp

section Rotation

variable {order before after : List α} {a : α}

/-- The order that starts behind `a`. -/
theorem rotate_of_split (h : order = before ++ a :: after) :
    order.rotate (before.length + 1) = after ++ (before ++ [a]) := by
  have hassoc : order = (before ++ [a]) ++ after := by rw [h, List.append_assoc, List.singleton_append]
  have hlen : before.length + 1 = (before ++ [a]).length := by simp
  rw [hassoc, hlen, List.rotate_append_length_eq]

variable [DecidableEq α]

theorem idxOf_of_split (hnodup : order.Nodup) (h : order = before ++ a :: after) :
    order.idxOf a = before.length := by
  subst h
  have hnot : a ∉ before := by
    intro ha
    exact (List.disjoint_of_nodup_append hnodup) ha List.mem_cons_self
  rw [List.idxOf_append_of_notMem hnot, List.idxOf_cons_self, Nat.add_zero]

/-- Giving out `a` leaves, in the order that starts behind it, the elements that were free after it. -/
theorem filter_of_split {used : α → Bool} (hnodup : order.Nodup) (h : order = before ++ a :: after)
    (hfree : used a = false) (hused : ∀ b ∈ before, used b = true) :
    order.filter (fun b => !used b) =
      a :: (order.rotate (before.length + 1)).filter fun b => !(used b || b == a) := by
  have hbefore : before.filter (fun b => !used b) = [] := by
    rw [List.filter_eq_nil_iff]
    intro b hb
    simp [hused b hb]
  have hbefore' : before.filter (fun b => !(used b || b == a)) = [] := by
    rw [List.filter_eq_nil_iff]
    intro b hb
    simp [hused b hb]
  have hafter : after.filter (fun b => !(used b || b == a)) = after.filter fun b => !used b := by
    refine List.filter_congr fun b hb => ?_
    have hne : b ≠ a := by
      rintro rfl
      rw [h, List.nodup_append] at hnodup
      exact (List.nodup_cons.1 hnodup.2.1).1 hb
    simp [hne]
  rw [rotate_of_split h, h, List.filter_append, List.filter_append, List.filter_append, hbefore, hbefore', hafter,
    List.filter_cons_of_pos (by simp [hfree])]
  simp

end Rotation

variable [DecidableEq α]

/-- First fit again and again, each time on the order that starts behind what was found.  The flag tells whether
the last search found nothing. -/
def drain : ℕ → (α → Bool) → List α → List α × Bool
  | 0, _, _ => ([], false)
  | fuel + 1, used, order =>
      match firstFit used order with
      | none => ([], true)
      | some a =>
          let rest := drain fuel (fun b => used b || b == a) (order.rotate (order.idxOf a + 1))
          (a :: rest.1, rest.2)

/-- Each free element is given out once, in the order of the first search, and then there is none. -/
theorem drain_eq {fuel : ℕ} {used : α → Bool} {order : List α} (hnodup : order.Nodup)
    (hfuel : (order.filter fun a => !used a).length < fuel) :
    drain fuel used order = (order.filter fun a => !used a, true) := by
  induction fuel generalizing used order with
  | zero => omega
  | succ fuel ih =>
      unfold drain
      cases hfit : firstFit used order with
      | none =>
          have hnil : order.filter (fun a => !used a) = [] := by
            rw [List.filter_eq_nil_iff]
            intro a ha
            simp [firstFit_eq_none.1 hfit a ha]
          rw [hnil]
      | some a =>
          obtain ⟨hfree, before, after, hsplit, hused⟩ := firstFit_eq_some.1 hfit
          have hfilter := filter_of_split hnodup hsplit hfree hused
          rw [hfilter, List.length_cons] at hfuel
          have hrest := ih (List.nodup_rotate.2 hnodup) (Nat.lt_of_succ_lt_succ hfuel)
          simp only [idxOf_of_split hnodup hsplit, hrest, hfilter]

end SmolNet.FirstFit
