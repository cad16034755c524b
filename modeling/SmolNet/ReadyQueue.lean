import SmolNet.Basic

/-!
# The call budget and the ready queue

A call asks its budget before each unit of work; the answers come from the clock and the caller's
reductions, so a budget is the list of answers it will give.  The ready queue is the bounded set of
keys that wakers have marked ready, with an overflow bit for keys that did not fit or found the
set's lock taken.
-/

namespace SmolNet

open Std

/-- The answers still to come; once they run out every answer is yes. -/
structure CallBudget where
  answers : List Bool
  yielded : Bool
deriving DecidableEq, Repr

namespace CallBudget

def checkpoint (budget : CallBudget) : Bool × CallBudget :=
  match budget.answers with
  | [] => (true, budget)
  | true :: rest => (true, { budget with answers := rest })
  | false :: rest => (false, { answers := rest, yielded := true })

end CallBudget

abbrev KeySet := ExtTreeSet ReadyKey ReadyKey.cmp

structure ReadinessCounters where
  queued : Nat := 0
  coalesced : Nat := 0
  overflows : Nat := 0
deriving DecidableEq, Repr

structure ReadyQueue where
  entries : KeySet
  capacity : Nat
  overflow : Bool
  counters : ReadinessCounters

namespace ReadyQueue

def new (capacity : Nat) : ReadyQueue where
  entries := ∅
  capacity := capacity
  overflow := false
  counters := {}

/-- The part of `mark_ready` that follows setting a clear flag; `locked` is whether the set's lock
was free. -/
def enqueue (queue : ReadyQueue) (key : ReadyKey) (locked : Bool) : ReadyQueue :=
  if locked = true ∧ queue.entries.size < queue.capacity then
    { queue with
      entries := queue.entries.insert key
      counters := { queue.counters with queued := queue.counters.queued + 1 } }
  else
    { queue with
      overflow := true
      counters := { queue.counters with overflows := queue.counters.overflows + 1 } }

def coalesce (queue : ReadyQueue) : ReadyQueue :=
  { queue with counters := { queue.counters with coalesced := queue.counters.coalesced + 1 } }

/-- Pops keys until `limit` are taken, the set is empty or the budget ends. -/
def drainLoop : Nat → KeySet → CallBudget → List ReadyKey × KeySet × CallBudget
  | 0, entries, budget => ([], entries, budget)
  | limit + 1, entries, budget =>
      match entries.toList.head? with
      | none => ([], entries, budget)
      | some key =>
          let entries := entries.erase key
          if limit = 0 then ([key], entries, budget)
          else
            match budget.checkpoint with
            | (false, budget) => ([key], entries, budget)
            | (true, budget) =>
                let (keys, entries, budget) := drainLoop limit entries budget
                (key :: keys, entries, budget)

theorem mem_drainLoop {limit : Nat} {entries : KeySet} {budget : CallBudget} {key : ReadyKey} :
    key ∈ entries ↔ key ∈ (drainLoop limit entries budget).1 ∨
      key ∈ (drainLoop limit entries budget).2.1 := by
  induction limit generalizing entries budget with
  | zero => simp [drainLoop]
  | succ limit ih =>
      unfold drainLoop
      cases hmin : entries.toList.head? with
      | none =>
          rw [← ExtTreeSet.min?_eq_head?_toList, ExtTreeSet.min?_eq_none_iff] at hmin
          simp
      | some first =>
          rw [← ExtTreeSet.min?_eq_head?_toList] at hmin
          have hmem : first ∈ entries := ExtTreeSet.min?_mem hmin
          have hsplit : key ∈ entries ↔ key = first ∨ key ∈ entries.erase first := by
            by_cases hkey : key = first
            · simp [hkey, hmem]
            · simp [hkey, Ne.symm hkey]
          rw [hsplit]
          dsimp only
          split
          · simp
          · split
            · simp
            · rename_i budget' _
              rw [@ih (entries.erase first) budget']
              simp [or_assoc]

end ReadyQueue

end SmolNet
