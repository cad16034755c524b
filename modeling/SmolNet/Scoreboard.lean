import SmolNet.Intervals
import SmolNet.Serial

/-!
# The SACK scoreboard

The octets above the cumulative acknowledgment that the remote has reported in SACK blocks, as ranges in
ascending order.  The functions are written over any numbers that compare and subtract as sequence numbers
do; within one window they do to the ranges what they do to the ranges' offsets.
-/

namespace SmolNet

open Serial Intervals

def scoreboardSize : Nat := 32

/-- RFC 6675 `DupThresh`. -/
def dupThresh : Nat := 3

structure Scoreboard (α : Type) where
  ranges : List (α × α)
deriving DecidableEq, Repr

namespace Scoreboard

section Code

variable {α : Type} [Ord α] [Distance α]

def new : Scoreboard α := ⟨[]⟩

/-- The loop of `add` over the ranges that are left, from the range that is being added. -/
def merge (left right : α) (inserted : Bool) : List (α × α) → List (α × α)
  | [] => if inserted then [] else [(left, right)]
  | (l, r) :: rest =>
      if lt r left then (l, r) :: merge left right inserted rest
      else if lt right l then
        if inserted then (l, r) :: merge left right true rest
        else (left, right) :: (l, r) :: merge left right true rest
      else merge (min left l) (max right r) inserted rest

def add (board : Scoreboard α) (left right : α) : Bool × Scoreboard α :=
  if ge left right || board.ranges.any fun p => le p.1 left && le right p.2 then (false, board)
  else
    let merged := merge left right false board.ranges
    let forgotten := merged.length - scoreboardSize
    (true, ⟨merged.drop forgotten⟩)

def advance (board : Scoreboard α) (ack : α) : Scoreboard α :=
  match board.ranges.dropWhile fun p => le p.2 ack with
  | [] => ⟨[]⟩
  | (l, r) :: rest => ⟨(if lt l ack then ack else l, r) :: rest⟩

def sackedIn (start stop : α) : List (α × α) → Option Nat
  | [] => some 0
  | (l, r) :: rest => do
      let (l, r) := (max l start, min r stop)
      let here ← if lt l r then distance r l else some 0
      let later ← sackedIn start stop rest
      return here + later

/-- The number of recorded octets in `[start, stop)`; a subtraction that underflows panics. -/
def sackedBetween (board : Scoreboard α) (start stop : α) : Option Nat := sackedIn start stop board.ranges

def lostLoop (mss : Nat) : List (α × α) → Nat → Nat → Option (Option α)
  | [], _, _ => some none
  | (l, r) :: rest, count, sacked => do
      let sacked := sacked + (← distance r l)
      if dupThresh ≤ count + 1 ∨ (dupThresh - 1) * mss < sacked then return some l
      else lostLoop mss rest (count + 1) sacked

/-- `lost_below`, the boundary below which RFC 6675 deems what is not reported lost. -/
def lostBelow (board : Scoreboard α) (mss : Nat) : Option (Option α) := lostLoop mss board.ranges.reverse 0 0

def holeLoop : List (α × α) → α → Option (α × α)
  | [], _ => none
  | (l, r) :: rest, start => if lt start l then some (start, l) else holeLoop rest (max start r)

def nextHole (board : Scoreboard α) (start : α) : Option (α × α) := holeLoop board.ranges start

def runLoop (stop : α) : List (α × α) → α → Option (α × α)
  | [], start => if lt start stop then some (start, stop) else none
  | (l, r) :: rest, start =>
      if ge start stop || ge l stop then if lt start stop then some (start, stop) else none
      else if lt start l then some (start, l)
      else runLoop stop rest (max start r)

def unsackedRun (board : Scoreboard α) (start stop : α) : Option (α × α) := runLoop stop board.ranges start

end Code

/-! ## The same code on other numbers -/

section Embedding

variable {α β : Type} [Ord α] [Distance α] [Ord β] [Distance β] {W : α → Prop} {e : α → β}
  {ranges : List (α × α)}

def both (e : α → β) (p : α × α) : β × β := (e p.1, e p.2)

def map (e : α → β) (board : Scoreboard α) : Scoreboard β := ⟨board.ranges.map (both e)⟩

/-- Both ends of every range are in the window. -/
def AllIn (W : α → Prop) (ranges : List (α × α)) : Prop := ∀ p ∈ ranges, W p.1 ∧ W p.2

omit [Ord α] [Distance α] in
theorem allIn_cons {p : α × α} {rest : List (α × α)} : AllIn W (p :: rest) ↔ (W p.1 ∧ W p.2) ∧ AllIn W rest := by
  simp [AllIn]

omit [Distance α] in
theorem AllIn.merge {left right : α} {inserted : Bool} (hranges : AllIn W ranges) (hleft : W left)
    (hright : W right) : AllIn W (merge left right inserted ranges) := by
  induction ranges generalizing left right inserted with
  | nil => cases inserted <;> simp [Scoreboard.merge, AllIn, hleft, hright]
  | cons p rest ih =>
      obtain ⟨hp, hrest⟩ := allIn_cons.1 hranges
      unfold Scoreboard.merge
      split
      · exact allIn_cons.2 ⟨hp, ih hrest hleft hright⟩
      · split
        · split
          · exact allIn_cons.2 ⟨hp, ih hrest hleft hright⟩
          · exact allIn_cons.2 ⟨⟨hleft, hright⟩, allIn_cons.2 ⟨hp, ih hrest hleft hright⟩⟩
        · exact ih hrest (min_cases hleft hp.1) (max_cases hright hp.2)

omit [Distance α] in
theorem AllIn.add {board : Scoreboard α} {left right : α} (hboard : AllIn W board.ranges) (hleft : W left)
    (hright : W right) : AllIn W (board.add left right).2.ranges := by
  unfold Scoreboard.add
  split
  · exact hboard
  · exact fun p hp => hboard.merge hleft hright p (List.mem_of_mem_drop hp)

omit [Distance α] in
theorem AllIn.advance {board : Scoreboard α} {ack : α} (hboard : AllIn W board.ranges) (hack : W ack) :
    AllIn W (board.advance ack).ranges := by
  have hrest : AllIn W (board.ranges.dropWhile fun p => le p.2 ack) :=
    fun p hp => hboard p (List.dropWhile_subset _ hp)
  unfold Scoreboard.advance
  split
  · simp [AllIn]
  · rename_i l r rest heq
    rw [heq] at hrest
    obtain ⟨⟨hl, hr⟩, hrest⟩ := allIn_cons.1 hrest
    refine allIn_cons.2 ⟨⟨?_, hr⟩, hrest⟩
    dsimp only
    split
    · exact hack
    · exact hl

variable (h : Embeds W e)

include h

theorem merge_map {left right : α} {inserted : Bool} (hranges : AllIn W ranges) (hleft : W left)
    (hright : W right) :
    merge (e left) (e right) inserted (ranges.map (both e)) =
      (merge left right inserted ranges).map (both e) := by
  induction ranges generalizing left right inserted with
  | nil => cases inserted <;> rfl
  | cons p rest ih =>
      obtain ⟨⟨hl, hr⟩, hrest⟩ := allIn_cons.1 hranges
      simp only [List.map_cons, merge, both, h.lt hr hleft, h.lt hright hl]
      split
      · rw [ih hrest hleft hright]
        rfl
      · split
        · split
          · rw [ih hrest hleft hright]
            rfl
          · rw [ih hrest hleft hright]
            rfl
        · rw [h.min hleft hl, h.max hright hr, ih hrest (min_cases hleft hl) (max_cases hright hr)]

theorem any_map {left right : α} (hranges : AllIn W ranges) (hleft : W left) (hright : W right) :
    (ranges.map (both e)).any (fun p => le p.1 (e left) && le (e right) p.2) =
      ranges.any fun p => le p.1 left && le right p.2 := by
  induction ranges with
  | nil => rfl
  | cons p rest ih =>
      obtain ⟨⟨hl, hr⟩, hrest⟩ := allIn_cons.1 hranges
      simp only [List.map_cons, List.any_cons, both, h.le hl hleft, h.le hright hr, ih hrest]

theorem add_map {board : Scoreboard α} {left right : α} (hboard : AllIn W board.ranges) (hleft : W left)
    (hright : W right) :
    (board.map e).add (e left) (e right) = Prod.map id (map e) (board.add left right) := by
  unfold add
  simp only [map, any_map h hboard hleft hright, h.ge hleft hright, merge_map h hboard hleft hright]
  split
  · rfl
  · simp [map, List.map_drop]

theorem dropWhile_map {ack : α} (hranges : AllIn W ranges) (hack : W ack) :
    (ranges.map (both e)).dropWhile (fun p => le p.2 (e ack)) =
      (ranges.dropWhile fun p => le p.2 ack).map (both e) := by
  induction ranges with
  | nil => rfl
  | cons p rest ih =>
      obtain ⟨⟨-, hr⟩, hrest⟩ := allIn_cons.1 hranges
      simp only [List.map_cons, List.dropWhile_cons, both, h.le hr hack]
      split
      · exact ih hrest
      · rfl

theorem advance_map {board : Scoreboard α} {ack : α} (hboard : AllIn W board.ranges) (hack : W ack) :
    (board.map e).advance (e ack) = (board.advance ack).map e := by
  have hrest : AllIn W (board.ranges.dropWhile fun p => le p.2 ack) :=
    fun p hp => hboard p (List.dropWhile_subset _ hp)
  unfold advance
  rw [map, dropWhile_map h hboard hack]
  cases hdrop : board.ranges.dropWhile fun p => le p.2 ack with
  | nil => rfl
  | cons p rest =>
      rw [hdrop] at hrest
      obtain ⟨⟨hl, -⟩, -⟩ := allIn_cons.1 hrest
      simp only [List.map_cons, both, h.lt hl hack, map]
      split <;> rfl

theorem sackedIn_map {start stop : α} (hranges : AllIn W ranges) (hstart : W start) (hstop : W stop) :
    sackedIn (e start) (e stop) (ranges.map (both e)) = sackedIn start stop ranges := by
  induction ranges with
  | nil => rfl
  | cons p rest ih =>
      obtain ⟨⟨hl, hr⟩, hrest⟩ := allIn_cons.1 hranges
      have hmax : W (max p.1 start) := max_cases hl hstart
      have hmin : W (min p.2 stop) := min_cases hr hstop
      simp only [List.map_cons, sackedIn, both, h.max hl hstart, h.min hr hstop, h.lt hmax hmin,
        h.distance hmin hmax, ih hrest]

theorem lostLoop_map {mss count sacked : Nat} (hranges : AllIn W ranges) :
    lostLoop mss (ranges.map (both e)) count sacked =
      (lostLoop mss ranges count sacked).map (Option.map e) := by
  induction ranges generalizing count sacked with
  | nil => rfl
  | cons p rest ih =>
      obtain ⟨⟨hl, hr⟩, hrest⟩ := allIn_cons.1 hranges
      simp only [List.map_cons, lostLoop, both, h.distance hr hl]
      cases hdist : distance p.2 p.1 with
      | none => rfl
      | some d =>
          simp only [Option.bind_eq_bind, Option.bind_some]
          split
          · rfl
          · exact ih hrest

theorem holeLoop_map {start : α} (hranges : AllIn W ranges) (hstart : W start) :
    holeLoop (ranges.map (both e)) (e start) = (holeLoop ranges start).map (both e) := by
  induction ranges generalizing start with
  | nil => rfl
  | cons p rest ih =>
      obtain ⟨⟨hl, hr⟩, hrest⟩ := allIn_cons.1 hranges
      simp only [List.map_cons, holeLoop, both, h.lt hstart hl]
      split
      · rfl
      · rw [h.max hstart hr, ih hrest (max_cases hstart hr)]

theorem runLoop_map {start stop : α} (hranges : AllIn W ranges) (hstart : W start) (hstop : W stop) :
    runLoop (e stop) (ranges.map (both e)) (e start) = (runLoop stop ranges start).map (both e) := by
  induction ranges generalizing start with
  | nil =>
      simp only [List.map_nil, runLoop, h.lt hstart hstop]
      split <;> rfl
  | cons p rest ih =>
      obtain ⟨⟨hl, hr⟩, hrest⟩ := allIn_cons.1 hranges
      simp only [List.map_cons, runLoop, both, h.ge hstart hstop, h.ge hl hstop, h.lt hstart hstop,
        h.lt hstart hl]
      split
      · split <;> rfl
      · split
        · rfl
        · rw [h.max hstart hr, ih hrest (max_cases hstart hr)]

end Embedding

/-! ## The ranges as a set of octets -/

theorem lt_of_mem_merge {ranges : List Interval} {left right bound : ℕ} {inserted : Bool}
    (hleft : bound < left) (hranges : ∀ p ∈ ranges, bound < p.1) :
    ∀ p ∈ merge left right inserted ranges, bound < p.1 := by
  induction ranges generalizing left right inserted with
  | nil =>
      cases inserted
      · simpa [merge] using hleft
      · simp [merge]
  | cons q rest ih =>
      have hq := hranges q (by simp)
      have hrest : ∀ p ∈ rest, bound < p.1 := fun p hp => hranges p (by simp [hp])
      intro p hp
      simp only [merge] at hp
      split at hp
      · rcases List.mem_cons.1 hp with rfl | hp
        · exact hq
        · exact ih hleft hrest p hp
      · split at hp
        · split at hp
          · rcases List.mem_cons.1 hp with rfl | hp
            · exact hq
            · exact ih hleft hrest p hp
          · rcases List.mem_cons.1 hp with rfl | hp
            · exact hleft
            · rcases List.mem_cons.1 hp with rfl | hp
              · exact hq
              · exact ih hleft hrest p hp
        · refine ih ?_ hrest p hp
          rw [min_nat]
          omega

/-- Once the new range is in, the rest of the ranges stay. -/
theorem merge_inserted {ranges : List Interval} {left right : ℕ} (hlt : left < right)
    (hranges : Ascending ranges) (habove : ∀ p ∈ ranges, right < p.1) :
    merge left right true ranges = ranges := by
  induction ranges with
  | nil => rfl
  | cons p rest ih =>
      have hp := habove p (by simp)
      have hhead := hranges.head
      have hfirst : ¬ p.2 < left := by omega
      simp only [merge, lt_nat, hfirst, hp, decide_true, decide_false, if_true]
      rw [ih hranges.tail fun q hq => habove q (by simp [hq])]
      rfl

/-- The loop of `add` makes the union, in ascending order. -/
theorem merge_spec {ranges : List Interval} {left right : ℕ} (hlt : left < right)
    (hranges : Ascending ranges) :
    Ascending (merge left right false ranges) ∧
      (∀ n, Covers (merge left right false ranges) n ↔ (left ≤ n ∧ n < right) ∨ Covers ranges n) ∧
      (merge left right false ranges).length ≤ ranges.length + 1 := by
  induction ranges generalizing left right with
  | nil =>
      refine ⟨ascending_cons.2 ⟨hlt, by simp, ascending_nil⟩, ?_, by simp [merge]⟩
      intro n
      simp [merge]
  | cons p rest ih =>
      have hhead := hranges.head
      simp only [merge, lt_nat, decide_eq_true_eq]
      split
      · -- the range ends before the new one and stays
        rename_i hbefore
        obtain ⟨hasc, hcov, hlen⟩ := ih hlt hranges.tail
        refine ⟨ascending_cons.2 ⟨hhead, ?_, hasc⟩, ?_, by simpa using hlen⟩
        · exact lt_of_mem_merge hbefore fun q hq => hranges.gap hq
        · intro n
          rw [covers_cons, hcov, covers_cons]
          tauto
      · split
        · -- the new range ends before this one
          rename_i hafter
          have hrest : ∀ q ∈ rest, right < q.1 := by
            intro q hq
            have := hranges.gap hq
            omega
          simp only [Bool.false_eq_true, if_false, merge_inserted hlt hranges.tail hrest]
          refine ⟨ascending_cons.2 ⟨hlt, ?_, hranges⟩, ?_, by simp⟩
          · intro q hq
            rcases List.mem_cons.1 hq with rfl | hq
            · exact hafter
            · exact hrest q hq
          · intro n
            rw [covers_cons]
        · -- they overlap or touch, so their union is a range
          rename_i hbefore hafter
          rw [min_nat, max_nat]
          obtain ⟨hasc, hcov, hlen⟩ := ih (by omega : Min.min left p.1 < Max.max right p.2) hranges.tail
          refine ⟨hasc, ?_, by simp only [List.length_cons]; omega⟩
          intro n
          rw [hcov, covers_cons]
          constructor
          · rintro (hn | hn)
            · by_cases hin : left ≤ n ∧ n < right
              · exact .inl hin
              · exact .inr (.inl (by omega))
            · exact .inr (.inr hn)
          · rintro (hn | hn | hn)
            · exact .inl (by omega)
            · exact .inl (by omega)
            · exact .inr hn

/-- A board as `new`, `add` and `advance` leave it. -/
structure WellFormed (board : Scoreboard ℕ) : Prop where
  ascending : Ascending board.ranges
  size : board.ranges.length ≤ scoreboardSize

theorem wellFormed_new : WellFormed new := ⟨ascending_nil, Nat.zero_le _⟩

section Offsets

variable {board : Scoreboard ℕ} {left right : ℕ} {ranges : List Interval}

theorem add_fst (h : board.WellFormed) :
    (board.add left right).1 = true ↔ left < right ∧ ∃ n, left ≤ n ∧ n < right ∧ ¬ Covers board.ranges n := by
  have hcontained : (board.ranges.any fun p => le p.1 left && le right p.2) = true ↔
      ∃ p ∈ board.ranges, p.1 ≤ left ∧ right ≤ p.2 := by
    simp
  unfold add
  simp only [ge_nat, Bool.or_eq_true, decide_eq_true_eq, hcontained]
  split
  · rename_i hno
    refine iff_of_false (by simp) ?_
    rintro ⟨hlt, n, hle, hn, hcov⟩
    rcases hno with hno | ⟨p, hp, hl, hr⟩
    · omega
    · exact hcov ⟨p, hp, by omega, by omega⟩
  · rename_i hyes
    refine iff_of_true rfl ?_
    push Not at hyes
    refine ⟨hyes.1, ?_⟩
    by_contra hall
    push Not at hall
    obtain ⟨p, hp, hl, hr⟩ := h.ascending.exists_of_covered hyes.1 hall
    have := hyes.2 p hp hl
    omega

/-- What is added is all recorded already, or the union becomes the board, without its lowest range if it
has one too many. -/
theorem add_cases (h : board.WellFormed) (left right : ℕ) :
    (board.add left right = (false, board) ∧ ∀ n, left ≤ n → n < right → Covers board.ranges n) ∨
      ∃ runs, Ascending runs ∧
        (∀ n, Covers runs n ↔ (left ≤ n ∧ n < right) ∨ Covers board.ranges n) ∧
        runs.length ≤ scoreboardSize + 1 ∧
        board.add left right = (true, ⟨if runs.length = scoreboardSize + 1 then runs.tail else runs⟩) := by
  by_cases hadd : (board.add left right).1 = true
  · have hlt := ((add_fst h).1 hadd).1
    obtain ⟨hasc, hcov, hlen⟩ := merge_spec hlt h.ascending
    have hsize := h.size
    refine .inr ⟨merge left right false board.ranges, hasc, hcov, by omega, ?_⟩
    unfold add at hadd ⊢
    split at hadd
    · cases hadd
    · rename_i hno
      rw [if_neg hno]
      dsimp only
      split
      · rename_i hfull
        rw [hfull]
        simp
      · rw [Nat.sub_eq_zero_of_le (by omega), List.drop_zero]
  · refine .inl ⟨?_, ?_⟩
    · unfold add at hadd ⊢
      split at hadd
      · rename_i hyes
        rw [if_pos hyes]
      · exact absurd rfl hadd
    · rw [add_fst h] at hadd
      intro n hle hlt
      by_contra hn
      exact hadd ⟨by omega, n, hle, hlt, hn⟩

theorem WellFormed.add (h : board.WellFormed) (left right : ℕ) : (board.add left right).2.WellFormed := by
  rcases add_cases h left right with ⟨hsame, -⟩ | ⟨runs, hasc, -, hlen, hadd⟩
  · rw [hsame]
    exact h
  · rw [hadd]
    dsimp only
    split
    · refine ⟨?_, by simp; omega⟩
      rw [← List.drop_one]
      exact hasc.drop 1
    · exact ⟨hasc, by simp; omega⟩

theorem advance_cons (p : Interval) (rest : List Interval) (ack : ℕ) :
    advance ⟨p :: rest⟩ ack =
      if p.2 ≤ ack then advance ⟨rest⟩ ack else ⟨(Max.max p.1 ack, p.2) :: rest⟩ := by
  unfold advance
  by_cases hle : p.2 ≤ ack
  · simp [hle]
  · by_cases hlt : p.1 < ack
    · simp [hle, hlt, Nat.le_of_lt hlt]
    · simp [hle, hlt, Nat.not_lt.1 hlt]

/-- What is below the acknowledgment is forgotten. -/
theorem advance_spec (h : board.WellFormed) (ack : ℕ) :
    (board.advance ack).WellFormed ∧ ∀ n, Covers (board.advance ack).ranges n ↔ Covers board.ranges n ∧ ack ≤ n := by
  obtain ⟨ranges⟩ := board
  induction ranges with
  | nil => exact ⟨wellFormed_new, by simp [advance]⟩
  | cons p rest ih =>
      obtain ⟨hasc, hsize⟩ := h
      have hhead := hasc.head
      rw [advance_cons]
      split
      · rename_i hle
        obtain ⟨hwf, hcov⟩ := ih ⟨hasc.tail, by simp at hsize ⊢; omega⟩
        refine ⟨hwf, fun n => ?_⟩
        rw [hcov, covers_cons]
        constructor
        · rintro ⟨hn, hle'⟩
          exact ⟨.inr hn, hle'⟩
        · rintro ⟨hn | hn, hle'⟩
          · omega
          · exact ⟨hn, hle'⟩
      · rename_i hlt
        refine ⟨⟨ascending_cons.2 ⟨by omega, fun q hq => hasc.gap hq, hasc.tail⟩, by simpa using hsize⟩, ?_⟩
        intro n
        rw [covers_cons, covers_cons]
        constructor
        · rintro (hn | hn)
          · exact ⟨.inl (by omega), by omega⟩
          · exact ⟨.inr hn, by have := hasc.lt_of_covers hn; omega⟩
        · rintro ⟨hn | hn, hle⟩
          · exact .inl (by omega)
          · exact .inr hn

theorem sackedIn_spec (h : Ascending ranges) (start stop : ℕ) :
    sackedIn start stop ranges = some (count start stop ranges) := by
  induction ranges with
  | nil => simp [sackedIn]
  | cons p rest ih =>
      simp only [sackedIn, h.count_cons, ih h.tail, max_nat, min_nat, lt_nat, decide_eq_true_eq]
      split
      · rename_i hlt
        rw [distance_nat (Nat.le_of_lt hlt)]
        rfl
      · rename_i hge
        rw [Nat.sub_eq_zero_of_le (by omega)]
        rfl

/-- The hole starts at the first number from `start` on that is not recorded and has a recorded one above
it, and ends at the next recorded one. -/
theorem holeLoop_spec (h : Ascending ranges) (start : ℕ) :
    (∀ p, holeLoop ranges start = some p → start ≤ p.1 ∧ p.1 < p.2 ∧
      (∀ n, start ≤ n → n < p.1 → Covers ranges n) ∧ (∀ n, p.1 ≤ n → n < p.2 → ¬ Covers ranges n) ∧
      Covers ranges p.2) ∧
    (holeLoop ranges start = none →
      ∀ n m, start ≤ n → n < m → Covers ranges m → Covers ranges n) := by
  induction ranges generalizing start with
  | nil => simp [holeLoop]
  | cons q rest ih =>
      have hhead := h.head
      simp only [holeLoop, lt_nat, decide_eq_true_eq]
      split
      · rename_i hlt
        refine ⟨?_, by simp⟩
        rintro p hp
        obtain rfl := Option.some.inj hp
        refine ⟨le_rfl, hlt, by omega, ?_, covers_cons.2 (.inl ⟨le_rfl, hhead⟩)⟩
        intro n _ hn hcov
        rcases covers_cons.1 hcov with hcov | hcov
        · omega
        · have := h.lt_of_covers hcov
          omega
      · rename_i hge
        rw [max_nat]
        obtain ⟨hsome, hnone⟩ := ih h.tail (Max.max start q.2)
        constructor
        · intro p hp
          obtain ⟨hle, hlt, hbelow, hinside, hend⟩ := hsome p hp
          refine ⟨by omega, hlt, ?_, ?_, covers_cons.2 (.inr hend)⟩
          · intro n hn hn'
            by_cases hq : n < q.2
            · exact covers_cons.2 (.inl ⟨by omega, hq⟩)
            · exact covers_cons.2 (.inr (hbelow n (by omega) hn'))
          · intro n hn hn' hcov
            rcases covers_cons.1 hcov with hcov | hcov
            · omega
            · exact hinside n hn hn' hcov
        · intro hnil n m hn hm hcov
          by_cases hq : n < q.2
          · exact covers_cons.2 (.inl ⟨by omega, hq⟩)
          · rcases covers_cons.1 hcov with hcov | hcov
            · omega
            · exact covers_cons.2 (.inr (hnone hnil n m (by omega) hm hcov))

/-- The run starts at the first number of `[start, stop)` that is not recorded and ends at the next recorded
one, or at `stop`. -/
theorem runLoop_spec (h : Ascending ranges) (start stop : ℕ) :
    (∀ p, runLoop stop ranges start = some p → start ≤ p.1 ∧ p.1 < p.2 ∧ p.2 ≤ stop ∧
      (∀ n, start ≤ n → n < p.1 → Covers ranges n) ∧ (∀ n, p.1 ≤ n → n < p.2 → ¬ Covers ranges n) ∧
      (p.2 = stop ∨ Covers ranges p.2)) ∧
    (runLoop stop ranges start = none → ∀ n, start ≤ n → n < stop → Covers ranges n) := by
  induction ranges generalizing start with
  | nil =>
      simp only [runLoop, lt_nat, decide_eq_true_eq]
      split
      · rename_i hlt
        refine ⟨?_, by simp⟩
        rintro p hp
        obtain rfl := Option.some.inj hp
        exact ⟨le_rfl, hlt, le_rfl, by omega, by simp, .inl rfl⟩
      · exact ⟨by simp, by omega⟩
  | cons q rest ih =>
      have hhead := h.head
      simp only [runLoop, lt_nat, ge_nat, Bool.or_eq_true, decide_eq_true_eq]
      split
      · rename_i hpast
        split
        · rename_i hlt
          refine ⟨?_, by simp⟩
          rintro p hp
          obtain rfl := Option.some.inj hp
          refine ⟨le_rfl, hlt, le_rfl, by omega, ?_, .inl rfl⟩
          intro n _ hn hcov
          rcases covers_cons.1 hcov with hcov | hcov
          · omega
          · have := h.lt_of_covers hcov
            omega
        · exact ⟨by simp, by omega⟩
      · split
        · rename_i hlt
          refine ⟨?_, by simp⟩
          rintro p hp
          obtain rfl := Option.some.inj hp
          refine ⟨le_rfl, hlt, by omega, by omega, ?_, .inr (covers_cons.2 (.inl ⟨le_rfl, hhead⟩))⟩
          intro n _ hn hcov
          rcases covers_cons.1 hcov with hcov | hcov
          · omega
          · have := h.lt_of_covers hcov
            omega
        · rw [max_nat]
          obtain ⟨hsome, hnone⟩ := ih h.tail (Max.max start q.2)
          constructor
          · intro p hp
            obtain ⟨hle, hlt, hstop, hbelow, hinside, hend⟩ := hsome p hp
            refine ⟨by omega, hlt, hstop, ?_, ?_, hend.imp_right fun hend => covers_cons.2 (.inr hend)⟩
            · intro n hn hn'
              by_cases hq : n < q.2
              · exact covers_cons.2 (.inl ⟨by omega, hq⟩)
              · exact covers_cons.2 (.inr (hbelow n (by omega) hn'))
            · intro n hn hn' hcov
              rcases covers_cons.1 hcov with hcov | hcov
              · omega
              · exact hinside n hn hn' hcov
          · intro hnil n hn hn'
            by_cases hq : n < q.2
            · exact covers_cons.2 (.inl ⟨by omega, hq⟩)
            · exact covers_cons.2 (.inr (hnone hnil n (by omega) hn'))

/-- A maximal run of numbers from `start` on that are not in `S`, with one of `S` above it. -/
def Hole (S : Set ℕ) (start : ℕ) (p : Interval) : Prop :=
  MaximalRun {n | start ≤ n ∧ n ∉ S} p ∧ ∃ m ∈ S, p.2 ≤ m

theorem lowest_holeLoop (h : Ascending ranges) (start : ℕ) :
    Lowest (Hole (octets ranges) start) (holeLoop ranges start) := by
  obtain ⟨hsome, hnone⟩ := holeLoop_spec h start
  cases hloop : holeLoop ranges start with
  | none =>
      rintro q ⟨hrun, m, hcov, hm⟩
      have hq := hrun.inside q.1 le_rfl hrun.nonempty
      have := hrun.nonempty
      exact hq.2 (hnone hloop q.1 m hq.1 (by omega) hcov)
  | some p =>
      obtain ⟨hle, hlt, hbelow, hinside, hend⟩ := hsome p hloop
      refine ⟨⟨⟨hlt, fun n hn hn' => ⟨by omega, hinside n hn hn'⟩, ?_, fun hp => hp.2 hend⟩, p.2, hend, le_rfl⟩, ?_⟩
      · rintro n hn ⟨hstart, hcov⟩
        exact hcov (hbelow n hstart (by omega))
      · rintro q ⟨hrun, -⟩
        have hq := hrun.inside q.1 le_rfl hrun.nonempty
        by_contra hlt'
        exact hq.2 (hbelow q.1 hq.1 (by omega))

theorem lowest_runLoop (h : Ascending ranges) (start stop : ℕ) :
    Lowest (MaximalRun {n | start ≤ n ∧ n < stop ∧ ¬ Covers ranges n}) (runLoop stop ranges start) := by
  obtain ⟨hsome, hnone⟩ := runLoop_spec h start stop
  cases hloop : runLoop stop ranges start with
  | none =>
      intro q hrun
      have hq := hrun.inside q.1 le_rfl hrun.nonempty
      exact hq.2.2 (hnone hloop q.1 hq.1 hq.2.1)
  | some p =>
      obtain ⟨hle, hlt, hstop, hbelow, hinside, hend⟩ := hsome p hloop
      refine ⟨⟨hlt, fun n hn hn' => ⟨by omega, by omega, hinside n hn hn'⟩, ?_, ?_⟩, ?_⟩
      · rintro n hn ⟨hstart, -, hcov⟩
        exact hcov (hbelow n hstart (by omega))
      · rintro ⟨-, hlt', hcov⟩
        rcases hend with hend | hend
        · omega
        · exact hcov hend
      · intro q hrun
        have hq := hrun.inside q.1 le_rfl hrun.nonempty
        by_contra hlt'
        exact hq.2.2 (hbelow q.1 hq.1 (by omega))

end Offsets

/-! ## Runs of calls within one window -/

inductive Call (α : Type) where
  | add (left right : α)
  | advance (ack : α)
deriving DecidableEq, Repr

def apply {α : Type} [Ord α] (board : Scoreboard α) : Call α → Scoreboard α
  | .add left right => (board.add left right).2
  | .advance ack => board.advance ack

def run {α : Type} [Ord α] (calls : List (Call α)) : Scoreboard α := calls.foldl apply new

/-- The call's sequence numbers are in the window that starts at `base`. -/
def Call.Within (base : SeqNumber) : Call SeqNumber → Prop
  | .add left right => base.Within left ∧ base.Within right
  | .advance ack => base.Within ack

/-- The octets that a board records, as offsets from the window's start. -/
def recorded (base : SeqNumber) (board : Scoreboard SeqNumber) : Set ℕ := octets (board.map base.offset).ranges

/-- A board whose numbers are in the window and whose offsets are well formed. -/
structure Windowed (base : SeqNumber) (board : Scoreboard SeqNumber) : Prop where
  within : AllIn base.Within board.ranges
  wellFormed : (board.map base.offset).WellFormed

instance (base : SeqNumber) (board : Scoreboard SeqNumber) : Decidable (Windowed base board) :=
  decidable_of_iff ((∀ p ∈ board.ranges, base.Within p.1 ∧ base.Within p.2) ∧
      Ascending (board.map base.offset).ranges ∧ (board.map base.offset).ranges.length ≤ scoreboardSize)
    ⟨fun h => ⟨h.1, h.2.1, h.2.2⟩, fun h => ⟨h.within, h.wellFormed.ascending, h.wellFormed.size⟩⟩

theorem Windowed.apply {base : SeqNumber} {board : Scoreboard SeqNumber} {call : Call SeqNumber}
    (h : Windowed base board) (hcall : call.Within base) : Windowed base (board.apply call) := by
  cases call with
  | add left right =>
      have hmap := add_map base.embeds h.within hcall.1 hcall.2
      refine ⟨h.within.add hcall.1 hcall.2, ?_⟩
      have hwf := h.wellFormed.add (base.offset left) (base.offset right)
      rwa [hmap] at hwf
  | advance ack =>
      have hmap := advance_map base.embeds h.within hcall
      refine ⟨h.within.advance hcall, ?_⟩
      have hwf := (advance_spec h.wellFormed (base.offset ack)).1
      rwa [hmap] at hwf

theorem windowed_run {base : SeqNumber} {calls : List (Call SeqNumber)}
    (hcalls : ∀ call ∈ calls, call.Within base) : Windowed base (run calls) := by
  have hfold : ∀ board, Windowed base board → Windowed base (calls.foldl Scoreboard.apply board) := by
    induction calls with
    | nil => exact fun board h => h
    | cons call rest ih =>
        intro board h
        exact ih (fun c hc => hcalls c (by simp [hc])) _ (h.apply (hcalls call (by simp)))
  exact hfold new ⟨by simp [AllIn, new], wellFormed_new⟩

section Refinement

variable {base : SeqNumber} {board : Scoreboard SeqNumber}

theorem Windowed.add_fst (h : Windowed base board) {left right : SeqNumber} (hleft : base.Within left)
    (hright : base.Within right) :
    (board.add left right).1 = true ↔
      (Set.Ico (base.offset left) (base.offset right)).Nonempty ∧
        ¬ Set.Ico (base.offset left) (base.offset right) ⊆ recorded base board := by
  have hmap := congrArg Prod.fst (add_map base.embeds h.within hleft hright)
  rw [Prod.map_fst, id] at hmap
  rw [← hmap, Scoreboard.add_fst h.wellFormed, Set.nonempty_Ico, Set.not_subset]
  refine and_congr_right fun _ => exists_congr fun n => ?_
  rw [Set.mem_Ico, recorded, mem_octets, and_assoc]

/-- Adding a range makes the union, which loses its lowest maximal run if it has one too many. -/
theorem Windowed.add_snd (h : Windowed base board) {left right : SeqNumber} (hleft : base.Within left)
    (hright : base.Within right) :
    ∃ runs, Ascending runs ∧
      (∀ p, p ∈ runs ↔
        MaximalRun (recorded base board ∪ Set.Ico (base.offset left) (base.offset right)) p) ∧
      runs.length ≤ scoreboardSize + 1 ∧
      recorded base (board.add left right).2 =
        if runs.length = scoreboardSize + 1 then
          (recorded base board ∪ Set.Ico (base.offset left) (base.offset right)) \ octets (runs.take 1)
        else recorded base board ∪ Set.Ico (base.offset left) (base.offset right) := by
  have hmap := congrArg Prod.snd (add_map base.embeds h.within hleft hright)
  rw [Prod.map_snd] at hmap
  have hsize := h.wellFormed.size
  rcases add_cases h.wellFormed (base.offset left) (base.offset right) with
    ⟨hsame, hall⟩ | ⟨runs, hasc, hcov, hlen, hadd⟩
  · -- nothing new, and so no change
    have hunion : recorded base board ∪ Set.Ico (base.offset left) (base.offset right) = recorded base board :=
      Set.union_eq_left.2 fun n hn => hall n hn.1 hn.2
    refine ⟨(board.map base.offset).ranges, h.wellFormed.ascending, ?_, by omega, ?_⟩
    · intro p
      rw [hunion]
      exact h.wellFormed.ascending.mem_iff_maximalRun
    · rw [if_neg (by omega), hunion, recorded, ← hmap, hsame]
      rfl
  · have hunion : octets runs = recorded base board ∪ Set.Ico (base.offset left) (base.offset right) := by
      ext n
      rw [mem_octets, hcov, or_comm]
      rfl
    refine ⟨runs, hasc, ?_, hlen, ?_⟩
    · intro p
      rw [← hunion]
      exact hasc.mem_iff_maximalRun
    · rw [recorded, ← hmap, hadd, ← hunion]
      dsimp only
      split
      · cases runs with
        | nil => simp [octets]
        | cons p rest =>
            ext n
            simp only [List.tail_cons, mem_octets, Set.mem_sdiff, List.take_succ_cons, List.take_zero,
              covers_cons, not_covers_nil, or_false]
            constructor
            · intro hn
              have := hasc.lt_of_covers hn
              exact ⟨.inr hn, by omega⟩
            · rintro ⟨hn | hn, hnot⟩
              · exact absurd hn hnot
              · exact hn
      · rfl

theorem Windowed.advance (h : Windowed base board) {ack : SeqNumber} (hack : base.Within ack) :
    recorded base (board.advance ack) = recorded base board ∩ Set.Ici (base.offset ack) := by
  ext n
  rw [recorded, ← advance_map base.embeds h.within hack, mem_octets, (advance_spec h.wellFormed _).2]
  rfl

theorem Windowed.sackedBetween (h : Windowed base board) {start stop : SeqNumber} (hstart : base.Within start)
    (hstop : base.Within stop) :
    board.sackedBetween start stop =
      some (recorded base board ∩ Set.Ico (base.offset start) (base.offset stop)).ncard := by
  rw [Scoreboard.sackedBetween, ← sackedIn_map base.embeds h.within hstart hstop, recorded, ← count_eq_ncard]
  exact sackedIn_spec h.wellFormed.ascending _ _

theorem Windowed.nextHole (h : Windowed base board) {start : SeqNumber} (hstart : base.Within start) :
    Lowest (Hole (recorded base board) (base.offset start))
      ((board.nextHole start).map (both base.offset)) := by
  rw [Scoreboard.nextHole, ← holeLoop_map base.embeds h.within hstart]
  exact lowest_holeLoop h.wellFormed.ascending _

theorem Windowed.unsackedRun (h : Windowed base board) {start stop : SeqNumber} (hstart : base.Within start)
    (hstop : base.Within stop) :
    Lowest (MaximalRun (Set.Ico (base.offset start) (base.offset stop) \ recorded base board))
      ((board.unsackedRun start stop).map (both base.offset)) := by
  have hset : Set.Ico (base.offset start) (base.offset stop) \ recorded base board =
      {n | base.offset start ≤ n ∧ n < base.offset stop ∧ ¬ Covers (board.map base.offset).ranges n} := by
    ext n
    simp only [Set.mem_sdiff, Set.mem_Ico, Set.mem_ofPred_eq, and_assoc, recorded, mem_octets]
  rw [Scoreboard.unsackedRun, ← runLoop_map base.embeds h.within hstart hstop, hset]
  exact lowest_runLoop h.wellFormed.ascending _ _

theorem Windowed.unsackedRun_eq_none (h : Windowed base board) {start stop : SeqNumber}
    (hstart : base.Within start) (hstop : base.Within stop) :
    board.unsackedRun start stop = none ↔
      Set.Ico (base.offset start) (base.offset stop) ⊆ recorded base board := by
  have hloop := runLoop_map base.embeds h.within hstart hstop
  obtain ⟨hsome, hnone⟩ := runLoop_spec h.wellFormed.ascending (base.offset start) (base.offset stop)
  have hiff : runLoop (base.offset stop) (board.map base.offset).ranges (base.offset start) = none ↔
      board.unsackedRun start stop = none := by
    rw [Scoreboard.map, hloop, Option.map_eq_none_iff, Scoreboard.unsackedRun]
  rw [← hiff]
  constructor
  · exact fun hnil n hn => hnone hnil n hn.1 hn.2
  · intro hall
    cases hrun : runLoop (base.offset stop) (board.map base.offset).ranges (base.offset start) with
    | none => rfl
    | some p =>
        obtain ⟨hle, hlt, hstop', -, hinside, -⟩ := hsome p hrun
        exact absurd (hall ⟨hle, by omega⟩) (hinside p.1 le_rfl hlt)

end Refinement

/-- Within one window the board is a set of octets, and every call and every query is what it is on sets. -/
theorem run_refines {base : SeqNumber} {calls : List (Call SeqNumber)}
    (hcalls : ∀ call ∈ calls, call.Within base) :
    (Ascending ((run calls).map base.offset).ranges ∧ (run calls).ranges.length ≤ scoreboardSize) ∧
    (∀ left right, base.Within left → base.Within right →
      (((run calls).add left right).1 = true ↔
        (Set.Ico (base.offset left) (base.offset right)).Nonempty ∧
          ¬ Set.Ico (base.offset left) (base.offset right) ⊆ recorded base (run calls)) ∧
      ∃ runs, Ascending runs ∧
        (∀ p, p ∈ runs ↔
          MaximalRun (recorded base (run calls) ∪ Set.Ico (base.offset left) (base.offset right)) p) ∧
        runs.length ≤ scoreboardSize + 1 ∧
        recorded base ((run calls).add left right).2 =
          if runs.length = scoreboardSize + 1 then
            (recorded base (run calls) ∪ Set.Ico (base.offset left) (base.offset right)) \ octets (runs.take 1)
          else recorded base (run calls) ∪ Set.Ico (base.offset left) (base.offset right)) ∧
    (∀ ack, base.Within ack →
      recorded base ((run calls).advance ack) = recorded base (run calls) ∩ Set.Ici (base.offset ack)) ∧
    (∀ start stop, base.Within start → base.Within stop →
      (run calls).sackedBetween start stop =
        some (recorded base (run calls) ∩ Set.Ico (base.offset start) (base.offset stop)).ncard) ∧
    (∀ start, base.Within start →
      Lowest (Hole (recorded base (run calls)) (base.offset start))
        (((run calls).nextHole start).map (both base.offset))) ∧
    ∀ start stop, base.Within start → base.Within stop →
      Lowest (MaximalRun (Set.Ico (base.offset start) (base.offset stop) \ recorded base (run calls)))
        (((run calls).unsackedRun start stop).map (both base.offset)) ∧
      ((run calls).unsackedRun start stop = none ↔
        Set.Ico (base.offset start) (base.offset stop) ⊆ recorded base (run calls)) := by
  have h := windowed_run hcalls
  have hsize : (run calls).ranges.length ≤ scoreboardSize := by simpa [Scoreboard.map] using h.wellFormed.size
  refine ⟨⟨h.wellFormed.ascending, hsize⟩, ?_, ?_, ?_, ?_, ?_⟩
  · exact fun left right hleft hright => ⟨h.add_fst hleft hright, h.add_snd hleft hright⟩
  · exact fun ack hack => h.advance hack
  · exact fun start stop hstart hstop => h.sackedBetween hstart hstop
  · exact fun start hstart => h.nextHole hstart
  · exact fun start stop hstart hstop => ⟨h.unsackedRun hstart hstop, h.unsackedRun_eq_none hstart hstop⟩

/-- Two blocks that touch, across the point where sequence numbers wrap round, and the octets between two
numbers of the window. -/
theorem run_refines_across_wrap :
    (∀ call ∈ [Call.add ⟨0xfffffffe⟩ ⟨3⟩, .add ⟨3⟩ ⟨9⟩, .advance ⟨0⟩], call.Within ⟨0xfffffff0⟩) ∧
      (recorded ⟨0xfffffff0⟩ (run [.add ⟨0xfffffffe⟩ ⟨3⟩, .add ⟨3⟩ ⟨9⟩, .advance ⟨0⟩]) ∩
        Set.Ico (SeqNumber.offset ⟨0xfffffff0⟩ ⟨0xfffffff8⟩) (SeqNumber.offset ⟨0xfffffff0⟩ ⟨5⟩)).ncard = 5 := by
  have hcalls : ∀ call ∈ [Call.add ⟨0xfffffffe⟩ ⟨3⟩, .add ⟨3⟩ ⟨9⟩, .advance ⟨0⟩],
      call.Within ⟨0xfffffff0⟩ := by
    intro call hcall
    simp only [List.mem_cons, List.not_mem_nil, or_false] at hcall
    rcases hcall with rfl | rfl | rfl
    · exact ⟨by decide, by decide⟩
    · exact ⟨by decide, by decide⟩
    · change SeqNumber.Within _ _
      decide
  refine ⟨hcalls, ?_⟩
  have hcount := (run_refines hcalls).2.2.2.1 ⟨0xfffffff8⟩ ⟨5⟩ (by decide) (by decide)
  have hvalue : (run [Call.add ⟨0xfffffffe⟩ ⟨3⟩, .add ⟨3⟩ ⟨9⟩, .advance ⟨0⟩]).sackedBetween
      (⟨0xfffffff8⟩ : SeqNumber) ⟨5⟩ = some 5 := by decide
  exact Option.some.inj (hcount.symm.trans hvalue)

/-! ## `IsLost` -/

/-- The ranges that lie wholly above an octet. -/
def above (s : ℕ) (ranges : List Interval) : List Interval := ranges.filter fun p => s < p.1

def octetCount (ranges : List Interval) : ℕ := (ranges.map fun p => p.2 - p.1).sum

/-- RFC 6675 `IsLost` for an octet that is not recorded. -/
def IsLost (mss s : ℕ) (ranges : List Interval) : Prop :=
  dupThresh ≤ (above s ranges).length ∨ (dupThresh - 1) * mss < (octets ranges ∩ Set.Ioi s).ncard

@[simp] theorem octetCount_cons (p : Interval) (ranges : List Interval) :
    octetCount (p :: ranges) = (p.2 - p.1) + octetCount ranges := by
  simp [octetCount]

theorem octetCount_reverse (ranges : List Interval) : octetCount ranges.reverse = octetCount ranges := by
  simp [octetCount, List.sum_reverse]

theorem finite_octets (ranges : List Interval) : (octets ranges).Finite := by
  induction ranges with
  | nil => exact Set.finite_empty.subset fun n hn => absurd hn (not_covers_nil n)
  | cons p rest ih =>
      refine ((Set.finite_Ico p.1 p.2).union ih).subset fun n hn => ?_
      rcases covers_cons.1 hn with hn | hn
      · exact .inl hn
      · exact .inr hn

/-- An octet that is not recorded has whole ranges above it, so their octets are those above it. -/
theorem ncard_above {ranges : List Interval} (h : Ascending ranges) {s : ℕ} (hs : ¬ Covers ranges s) :
    (octets ranges ∩ Set.Ioi s).ncard = octetCount (above s ranges) := by
  induction ranges with
  | nil =>
      have hempty : octets [] = ∅ := Set.eq_empty_iff_forall_notMem.2 fun n hn => not_covers_nil n hn
      simp [hempty, above, octetCount]
  | cons p rest ih =>
      have hhead := h.head
      rw [covers_cons, not_or] at hs
      have hrest := ih h.tail hs.2
      by_cases hlt : s < p.1
      · have hunion : octets (p :: rest) ∩ Set.Ioi s = Set.Ico p.1 p.2 ∪ (octets rest ∩ Set.Ioi s) := by
          ext n
          simp only [Set.mem_inter_iff, mem_octets, covers_cons, Set.mem_union, Set.mem_Ico, Set.mem_Ioi]
          constructor
          · rintro ⟨hn | hn, hn'⟩
            · exact .inl hn
            · exact .inr ⟨hn, hn'⟩
          · rintro (hn | hn)
            · exact ⟨.inl hn, by omega⟩
            · exact ⟨.inr hn.1, hn.2⟩
        have hdisjoint : Disjoint (Set.Ico p.1 p.2) (octets rest ∩ Set.Ioi s) := by
          rw [Set.disjoint_left]
          intro n hn hcov
          have := h.lt_of_covers hcov.1
          have := hn.2
          omega
        rw [hunion, Set.ncard_union_eq hdisjoint (Set.finite_Ico _ _) ((finite_octets rest).inter_of_left _), hrest]
        simp [above, hlt]
      · have hsame : octets (p :: rest) ∩ Set.Ioi s = octets rest ∩ Set.Ioi s := by
          ext n
          simp only [Set.mem_inter_iff, mem_octets, covers_cons, Set.mem_Ioi]
          constructor
          · rintro ⟨hn | hn, hn'⟩
            · omega
            · exact ⟨hn, hn'⟩
          · exact fun hn => ⟨.inr hn.1, hn.2⟩
        rw [hsame, hrest]
        simp [above, hlt]

/-- The scan from the highest range down, before either threshold is reached: it ends above `s` just if the
ranges above `s` that are left reach one. -/
theorem lostLoop_spec {mss s : ℕ} {ranges : List Interval} {count sacked : ℕ}
    (hne : ∀ p ∈ ranges, p.1 < p.2) (hdesc : ranges.Pairwise fun p q => q.2 < p.1)
    (hcount : count < dupThresh) (hsacked : sacked ≤ (dupThresh - 1) * mss) :
    ∃ result, lostLoop mss ranges count sacked = some result ∧
      ((∃ boundary, result = some boundary ∧ s < boundary) ↔
        dupThresh ≤ count + (above s ranges).length ∨
          (dupThresh - 1) * mss < sacked + octetCount (above s ranges)) := by
  induction ranges generalizing count sacked with
  | nil =>
      refine ⟨none, rfl, iff_of_false (by simp) ?_⟩
      simp [above, octetCount]
      omega
  | cons p rest ih =>
      obtain ⟨hgap, hdesc⟩ := List.pairwise_cons.1 hdesc
      have hp := hne p (by simp)
      have hrest : ∀ q ∈ rest, q.1 < q.2 := fun q hq => hne q (by simp [hq])
      simp only [lostLoop, distance_nat (Nat.le_of_lt hp), Option.bind_eq_bind, Option.bind_some]
      by_cases hlt : s < p.1
      · have habove : above s (p :: rest) = p :: above s rest := by simp [above, hlt]
        rw [habove, List.length_cons, octetCount_cons]
        split
        · rename_i hfired
          refine ⟨some p.1, rfl, iff_of_true ⟨p.1, rfl, hlt⟩ ?_⟩
          omega
        · rename_i hgo
          push Not at hgo
          have hnext : count + 1 < dupThresh := hgo.1
          obtain ⟨result, hresult, hiff⟩ := ih hrest hdesc hnext hgo.2
          refine ⟨result, hresult, hiff.trans ?_⟩
          omega
      · -- this range is not above the octet, and no later one is
        have hnone : above s (p :: rest) = [] := by
          refine List.filter_eq_nil_iff.2 fun q hq => ?_
          rcases List.mem_cons.1 hq with rfl | hq
          · simpa using hlt
          · have := hgap q hq
            have := hrest q hq
            simp only [decide_eq_true_eq]
            omega
        have hrestnone : above s rest = [] := by
          have := hnone
          simpa [above, hlt] using this
        rw [hnone]
        simp only [List.length_nil, octetCount, List.map_nil, List.sum_nil, Nat.add_zero]
        split
        · refine ⟨some p.1, rfl, iff_of_false ?_ (by omega)⟩
          rintro ⟨boundary, hb, hlt'⟩
          obtain rfl := Option.some.inj hb
          exact hlt hlt'
        · rename_i hgo
          push Not at hgo
          have hnext : count + 1 < dupThresh := hgo.1
          obtain ⟨result, hresult, hiff⟩ := ih hrest hdesc hnext hgo.2
          refine ⟨result, hresult, hiff.trans ?_⟩
          rw [hrestnone]
          simp only [List.length_nil, octetCount, List.map_nil, List.sum_nil, Nat.add_zero]
          exact iff_of_false (by omega) (by omega)

/-- The boundary lies above an octet that is not recorded just if `IsLost` holds for it. -/
theorem lostBelow_spec {board : Scoreboard ℕ} (h : Ascending board.ranges) (mss : ℕ) :
    ∃ result, board.lostBelow mss = some result ∧ ∀ s, ¬ Covers board.ranges s →
      ((∃ boundary, result = some boundary ∧ s < boundary) ↔ IsLost mss s board.ranges) := by
  have hne : ∀ p ∈ board.ranges.reverse, p.1 < p.2 := fun p hp => h.nonempty p (List.mem_reverse.1 hp)
  have hcount : 0 < dupThresh := by decide
  have hsacked : 0 ≤ (dupThresh - 1) * mss := Nat.zero_le _
  obtain ⟨result, hresult, -⟩ :=
    lostLoop_spec (s := 0) hne (List.pairwise_reverse.2 h.apart) hcount hsacked
  refine ⟨result, hresult, fun s hs => ?_⟩
  obtain ⟨result', hresult', hiff⟩ :=
    lostLoop_spec (s := s) hne (List.pairwise_reverse.2 h.apart) hcount hsacked
  obtain rfl := Option.some.inj (hresult.symm.trans hresult')
  refine hiff.trans ?_
  rw [IsLost, ncard_above h hs, above, above, List.filter_reverse, List.length_reverse, octetCount_reverse]
  simp

theorem lostBelow_map {base : SeqNumber} {board : Scoreboard SeqNumber} (h : AllIn base.Within board.ranges)
    (mss : ℕ) :
    (board.map base.offset).lostBelow mss = (board.lostBelow mss).map (Option.map base.offset) := by
  have hreverse : AllIn base.Within board.ranges.reverse := fun p hp => h p (List.mem_reverse.1 hp)
  have hloop : lostLoop mss (board.ranges.reverse.map (both base.offset)) 0 0 =
      (lostLoop mss board.ranges.reverse 0 0).map (Option.map base.offset) := lostLoop_map base.embeds hreverse
  rw [List.map_reverse] at hloop
  exact hloop

/-- The boundary is where a recorded range starts. -/
theorem lostLoop_mem {α : Type} [Ord α] [Distance α] {mss : ℕ} {ranges : List (α × α)} {count sacked : ℕ}
    {boundary : α} (h : lostLoop mss ranges count sacked = some (some boundary)) : ∃ p ∈ ranges, p.1 = boundary := by
  induction ranges generalizing count sacked with
  | nil => cases h
  | cons p rest ih =>
      simp only [lostLoop, Option.bind_eq_bind, Option.bind_eq_some_iff] at h
      obtain ⟨d, -, h⟩ := h
      split at h
      · exact ⟨p, by simp, Option.some.inj (Option.some.inj h)⟩
      · obtain ⟨q, hq, hboundary⟩ := ih h
        exact ⟨q, List.mem_cons_of_mem _ hq, hboundary⟩

theorem within_lostBelow {base : SeqNumber} {board : Scoreboard SeqNumber} {mss : ℕ} {boundary : SeqNumber}
    (h : AllIn base.Within board.ranges) (hlost : board.lostBelow mss = some (some boundary)) :
    base.Within boundary := by
  obtain ⟨p, hp, rfl⟩ := lostLoop_mem hlost
  exact (h p (List.mem_reverse.1 hp)).1

end Scoreboard

end SmolNet
