import Mathlib

/-!
# First-in first-out queues

How a queue changes over a stretch of time, in terms of what went in and what came out.  Stretches
compose, so a law about one operation extends to any sequence of them.
-/

namespace SmolNet.Fifo

variable {α : Type}

/-- A queue that held `before` has taken in `added` at its end, let out `removed` at its front, and
holds `after`. -/
def Flow (before added removed after : List α) : Prop := removed ++ after = before ++ added

namespace Flow

variable {before middle after added added' removed removed' : List α}

theorem refl (queue : List α) : Flow queue [] [] queue := by simp [Flow]

theorem push (queue added : List α) : Flow queue added [] (queue ++ added) := rfl

theorem pop (removed queue : List α) : Flow (removed ++ queue) [] removed queue := by simp [Flow]

/-- What goes straight through an empty queue. -/
theorem through (added : List α) : Flow [] added added [] := by simp [Flow]

theorem trans (h : Flow before added removed middle) (h' : Flow middle added' removed' after) :
    Flow before (added ++ added') (removed ++ removed') after := by
  unfold Flow at *
  calc removed ++ removed' ++ after = removed ++ (middle ++ added') := by
        rw [List.append_assoc, h']
    _ = before ++ (added ++ added') := by rw [← List.append_assoc, h, List.append_assoc]

theorem length_le (h : Flow before added removed after) :
    after.length ≤ before.length + added.length := by
  have := congrArg List.length h
  simp only [List.length_append] at this
  omega

/-- A measure of the queue that adds up over its elements. -/
theorem sum_map (weight : α → Nat) (h : Flow before added removed after) :
    (removed.map weight).sum + (after.map weight).sum =
      (before.map weight).sum + (added.map weight).sum := by
  have := congrArg (fun queue : List α => (queue.map weight).sum) h
  simpa using this

end Flow

end SmolNet.Fifo
