import SmolNet.SendLog

/-!
# What the send log says about each octet

On offsets, the ranges of a log follow one another, and what a log says is what each range says about its
octets.  A property of octets and what their ranges say is carried through a change if its pieces have it
and joining and merging keep it.
-/

namespace SmolNet

open Serial

/-- What a range says about each of its octets. -/
structure Mark where
  time : Instant
  retransmitted : Bool
  lost : Bool
  doubled : Bool
  first : Nat
  last : Nat
deriving DecidableEq, Repr

def Sent.mark {α : Type} (sent : Sent α) : Mark :=
  ⟨sent.time, sent.retransmitted, sent.lost, sent.doubled, sent.first, sent.last⟩

/-- The ranges follow one another from `start` on, none is empty, and `P` holds of each octet and what its
range says. -/
def Spans (P : ℕ → Mark → Prop) : ℕ → List (Sent ℕ) → Prop
  | _, [] => True
  | start, sent :: rest =>
      start < sent.stop ∧ (∀ o, start ≤ o → o < sent.stop → P o sent.mark) ∧ Spans P sent.stop rest

/-! ## How many ranges are left -/

section Lengths

variable {α : Type} {ranges : List (Sent α)}

theorem length_gaps (ranges : List (Sent α)) : (gaps ranges).length = ranges.length - 1 := by
  induction ranges with
  | nil => rfl
  | cons a rest ih =>
      cases rest with
      | nil => rfl
      | cons b rest => simpa [gaps] using ih

theorem leastGap_lt (best : Bool × ℕ) (gs : List (Bool × ℕ)) {i j : ℕ} (h : i < j) :
    leastGap best i j gs < j + gs.length := by
  induction gs generalizing best i j with
  | nil => simpa [leastGap] using h
  | cons g rest ih =>
      simp only [leastGap, List.length_cons]
      split
      · have := ih g (by omega : j < j + 1)
        omega
      · have := ih best (by omega : i < j + 1)
        omega

theorem closest_lt (h : 2 ≤ ranges.length) : closest ranges + 1 < ranges.length := by
  have hlen := length_gaps ranges
  unfold closest
  cases hgaps : gaps ranges with
  | nil =>
      rw [hgaps] at hlen
      simp at hlen
      omega
  | cons g rest =>
      rw [hgaps] at hlen
      have := leastGap_lt g rest Nat.zero_lt_one
      simp only [List.length_cons] at hlen
      dsimp only
      omega

theorem length_fuseAt {i : ℕ} (h : i + 1 < ranges.length) : (fuseAt i ranges).length = ranges.length - 1 := by
  induction ranges generalizing i with
  | nil => simp at h
  | cons a rest ih =>
      cases i with
      | zero =>
          cases rest with
          | nil => simp at h
          | cons b rest => simp [fuseAt]
      | succ i =>
          simp only [List.length_cons] at h
          have := ih (by omega : i + 1 < rest.length)
          simp only [fuseAt, List.length_cons, this]
          omega

theorem length_compactBy {n : ℕ} (h : n < ranges.length) : (compactBy n ranges).length = ranges.length - n := by
  induction n generalizing ranges with
  | zero => rfl
  | succ n ih =>
      have hlen := length_fuseAt (closest_lt (by omega : 2 ≤ ranges.length))
      rw [compactBy, ih (by omega), hlen]
      omega

/-- However many ranges are built, those that are kept fit. -/
theorem length_compact_le (built : List (Sent α)) : (compact built).length ≤ logSize := by
  have hpos : 0 < logSize := by decide
  unfold compact
  by_cases h : built.length ≤ logSize
  · rw [Nat.sub_eq_zero_of_le h]
    exact h
  · rw [length_compactBy (by omega)]
    omega

theorem compact_of_le {built : List (Sent α)} (h : built.length ≤ logSize) : compact built = built := by
  unfold compact
  rw [Nat.sub_eq_zero_of_le h]
  rfl

end Lengths

section Spans

variable {P Q : ℕ → Mark → Prop} {start : ℕ} {sent a b : Sent ℕ} {rest xs ys ranges : List (Sent ℕ)}

@[simp] theorem spans_nil : Spans P start [] := trivial

theorem spans_cons : Spans P start (sent :: rest) ↔
    start < sent.stop ∧ (∀ o, start ≤ o → o < sent.stop → P o sent.mark) ∧ Spans P sent.stop rest := Iff.rfl

theorem Spans.mono (h : Spans P start ranges) (hPQ : ∀ o m, start ≤ o → P o m → Q o m) : Spans Q start ranges := by
  induction ranges generalizing start with
  | nil => trivial
  | cons sent rest ih =>
      obtain ⟨hlt, hP, hrest⟩ := h
      refine ⟨hlt, fun o hle ho => hPQ o _ hle (hP o hle ho), ih hrest fun o m ho => ?_⟩
      exact hPQ o m (by omega)

theorem Spans.le_highFrom (h : Spans P start ranges) : start ≤ highFrom start ranges := by
  induction ranges generalizing start with
  | nil => exact le_rfl
  | cons sent rest ih =>
      have := ih h.2.2
      have := h.1
      simp only [highFrom]
      omega

theorem Spans.lt_highFrom (h : Spans P start ranges) :
    Spans (fun o m => P o m ∧ o < highFrom start ranges) start ranges := by
  induction ranges generalizing start with
  | nil => trivial
  | cons sent rest ih =>
      obtain ⟨hlt, hsent, hrest⟩ := h
      have hle := hrest.le_highFrom
      refine ⟨hlt, fun o ho ho' => ⟨hsent o ho ho', ?_⟩, ih hrest⟩
      simp only [highFrom]
      omega

theorem highFrom_append : highFrom start (xs ++ ys) = highFrom (highFrom start xs) ys := by
  induction xs generalizing start with
  | nil => rfl
  | cons sent rest ih => exact ih

theorem spans_append : Spans P start (xs ++ ys) ↔ Spans P start xs ∧ Spans P (highFrom start xs) ys := by
  induction xs generalizing start with
  | nil => simp [highFrom]
  | cons sent rest ih =>
      rw [List.cons_append, spans_cons, spans_cons, ih, highFrom]
      tauto

theorem spans_singleton :
    Spans P start [sent] ↔ start < sent.stop ∧ ∀ o, start ≤ o → o < sent.stop → P o sent.mark := by
  simp [spans_cons]

/-! ## Joining -/

/-- The builder's last range and the pieces that are still to be pushed. -/
def joinAll (last : Sent ℕ) : List (Sent ℕ) → List (Sent ℕ)
  | [] => [last]
  | sent :: rest => if last.joins sent then joinAll (last.extend sent) rest else last :: joinAll sent rest

theorem foldl_push (last : Sent ℕ) (earlier pieces : List (Sent ℕ)) :
    (pieces.foldl push (last :: earlier)).reverse = earlier.reverse ++ joinAll last pieces := by
  induction pieces generalizing last earlier with
  | nil => simp [joinAll]
  | cons sent rest ih =>
      by_cases hjoins : last.joins sent = true
      · simp [joinAll, push, hjoins, ih]
      · simp [joinAll, push, hjoins, ih]

theorem build_cons (sent : Sent ℕ) (rest : List (Sent ℕ)) : build (sent :: rest) = joinAll sent rest := by
  have hfold := foldl_push sent [] rest
  simpa [build, push] using hfold

/-- What `P` says of two ranges that join, it says of the joined range. -/
def JoinStable (P : ℕ → Mark → Prop) : Prop :=
  ∀ (o o' : ℕ) (a b : Sent ℕ), a.joins b = true → P o a.mark → P o' b.mark →
    P o (a.extend b).mark ∧ P o' (a.extend b).mark

theorem Spans.joinAll (hP : JoinStable P) (h : Spans P start (sent :: rest)) :
    Spans P start (joinAll sent rest) ∧ highFrom start (joinAll sent rest) = highFrom start (sent :: rest) := by
  induction rest generalizing start sent with
  | nil => exact ⟨h, rfl⟩
  | cons next rest ih =>
      obtain ⟨hlt, hsent, hlt', hnext, hrest⟩ := h
      unfold SmolNet.joinAll
      split
      · rename_i hjoins
        refine ih ⟨?_, ?_, hrest⟩
        · exact lt_trans hlt hlt'
        · intro o hle ho
          by_cases hmid : o < sent.stop
          · exact (hP o sent.stop sent next hjoins (hsent o hle hmid) (hnext _ le_rfl hlt')).1
          · exact (hP start o sent next hjoins (hsent _ le_rfl hlt) (hnext o (by omega) ho)).2
      · obtain ⟨hspans, hhigh⟩ := ih ⟨hlt', hnext, hrest⟩
        exact ⟨⟨hlt, hsent, hspans⟩, hhigh⟩

theorem Spans.build (hP : JoinStable P) (h : Spans P start ranges) :
    Spans P start (build ranges) ∧ highFrom start (build ranges) = highFrom start ranges := by
  cases ranges with
  | nil => exact ⟨h, rfl⟩
  | cons sent rest =>
      rw [build_cons]
      exact h.joinAll hP

theorem length_joinAll_le (last : Sent ℕ) (pieces : List (Sent ℕ)) :
    (joinAll last pieces).length ≤ pieces.length + 1 := by
  induction pieces generalizing last with
  | nil => simp [joinAll]
  | cons sent rest ih =>
      unfold joinAll
      split
      · exact (ih _).trans (by simp)
      · simpa using ih sent

theorem length_build_le (pieces : List (Sent ℕ)) : (build pieces).length ≤ pieces.length := by
  cases pieces with
  | nil => simp [build]
  | cons sent rest =>
      rw [build_cons]
      exact length_joinAll_le sent rest

/-! ## Merging -/

/-- What `P` says of two neighbours, it says of them merged. -/
def Fuses (P : ℕ → Mark → Prop) (a b : Sent ℕ) : Prop :=
  ∀ o o', P o a.mark → P o' b.mark → P o (a.fuse b).mark ∧ P o' (a.fuse b).mark

theorem Spans.fuseAt {i : ℕ} (h : Spans P start ranges) (hP : ∀ pair ∈ neighboursAt i ranges, Fuses P pair.1 pair.2) :
    Spans P start (fuseAt i ranges) ∧ highFrom start (fuseAt i ranges) = highFrom start ranges := by
  induction ranges generalizing start i with
  | nil => cases i <;> exact ⟨h, rfl⟩
  | cons a rest ih =>
      cases i with
      | zero =>
          cases rest with
          | nil => exact ⟨h, rfl⟩
          | cons b rest =>
              obtain ⟨hlt, ha, hlt', hb, hrest⟩ := h
              refine ⟨⟨lt_trans hlt hlt', ?_, hrest⟩, rfl⟩
              intro o hle ho
              by_cases hmid : o < a.stop
              · exact (hP (a, b) rfl o a.stop (ha o hle hmid) (hb a.stop le_rfl hlt')).1
              · exact (hP (a, b) rfl start o (ha start le_rfl hlt) (hb o (by omega) ho)).2
      | succ i =>
          obtain ⟨hspans, hhigh⟩ := ih h.2.2 hP
          exact ⟨⟨h.1, h.2.1, hspans⟩, hhigh⟩

theorem Spans.compactBy {n : ℕ} (h : Spans P start ranges) (hP : ∀ pair ∈ mergedBy n ranges, Fuses P pair.1 pair.2) :
    Spans P start (compactBy n ranges) ∧ highFrom start (compactBy n ranges) = highFrom start ranges := by
  induction n generalizing ranges with
  | zero => exact ⟨h, rfl⟩
  | succ n ih =>
      obtain ⟨hspans, hhigh⟩ := h.fuseAt fun pair hpair =>
        hP pair (List.mem_append_left _ (Option.mem_toList.2 hpair))
      obtain ⟨hspans', hhigh'⟩ := ih hspans fun pair hpair => hP pair (List.mem_append_right _ hpair)
      exact ⟨hspans', hhigh'.trans hhigh⟩

end Spans

/-! ## Pieces -/

namespace SendLog

variable {P Q : ℕ → Mark → Prop} {start : ℕ} {ranges : List (Sent ℕ)}

/-- The pieces of the ranges cover what the ranges do. -/
theorem spans_piecesFrom {pieces : ℕ → Sent ℕ → List (Sent ℕ)} (h : Spans P start ranges)
    (hpieces : ∀ s sent, start ≤ s → s < sent.stop → (∀ o, s ≤ o → o < sent.stop → P o sent.mark) →
      Spans Q s (pieces s sent) ∧ highFrom s (pieces s sent) = sent.stop) :
    Spans Q start (piecesFrom pieces start ranges) ∧
      highFrom start (piecesFrom pieces start ranges) = highFrom start ranges := by
  induction ranges generalizing start with
  | nil => exact ⟨trivial, rfl⟩
  | cons sent rest ih =>
      obtain ⟨hlt, hsent, hrest⟩ := h
      obtain ⟨hspans, hhigh⟩ := hpieces start sent le_rfl hlt hsent
      obtain ⟨hspans', hhigh'⟩ := ih hrest fun s sent' hs => hpieces s sent' (by omega)
      refine ⟨spans_append.2 ⟨hspans, hhigh.symm ▸ hspans'⟩, ?_⟩
      rw [piecesFrom, highFrom_append, hhigh, hhigh', highFrom]

/-- A resend leaves what is outside `[seq, stop)` and makes the octets of it new. -/
theorem spans_resendPieces {seq stop s : ℕ} (now : Instant) (send : ℕ) {sent : Sent ℕ} (hne : seq < stop)
    (hlt : s < sent.stop)
    (houtside : ∀ o, s ≤ o → o < sent.stop → ¬ (seq ≤ o ∧ o < stop) → Q o sent.mark)
    (hinside : ∀ o, s ≤ o → o < sent.stop → seq ≤ o → o < stop → Q o ⟨now, true, false, !sent.lost, send, send⟩) :
    Spans Q s (resendPieces seq stop now send s sent) ∧
      highFrom s (resendPieces seq stop now send s sent) = sent.stop := by
  unfold resendPieces
  simp only [le_nat, ge_nat, lt_nat, gt_nat, min_nat, Bool.or_eq_true, decide_eq_true_eq]
  split
  · rename_i hout
    exact ⟨spans_singleton.2 ⟨hlt, fun o hle ho => houtside o hle ho (by omega)⟩, rfl⟩
  · rename_i hin
    push Not at hin
    by_cases hlow : s < seq <;> by_cases hhigh : stop < sent.stop
    all_goals simp only [hlow, hhigh, if_true, if_false, List.nil_append, List.cons_append, Spans, highFrom]
    · refine ⟨⟨trivial, ?_, by omega, ?_, by omega, ?_, trivial⟩, trivial⟩
      · exact fun o hle ho => houtside o hle (by omega) (by omega)
      · exact fun o hle ho => hinside o (by omega) (by omega) hle (by omega)
      · exact fun o hle ho => houtside o (by omega) ho (by omega)
    · refine ⟨⟨trivial, ?_, by omega, ?_, trivial⟩, by omega⟩
      · exact fun o hle ho => houtside o hle (by omega) (by omega)
      · exact fun o hle ho => hinside o (by omega) (by omega) hle (by omega)
    · refine ⟨⟨by omega, ?_, by omega, ?_, trivial⟩, trivial⟩
      · exact fun o hle ho => hinside o hle (by omega) (by omega) (by omega)
      · exact fun o hle ho => houtside o (by omega) ho (by omega)
    · refine ⟨⟨by omega, ?_, trivial⟩, by omega⟩
      exact fun o hle ho => hinside o hle (by omega) (by omega) (by omega)

/-- Below the boundary a range that was sent once is lost, and none is counted twice. -/
theorem spans_boundaryPieces {boundary s : ℕ} {sent : Sent ℕ} (hlt : s < sent.stop)
    (habove : ∀ o, s ≤ o → o < sent.stop → boundary ≤ o → Q o sent.mark)
    (hbelow : ∀ o, s ≤ o → o < sent.stop → o < boundary →
      Q o { sent.mark with lost := sent.lost || !sent.retransmitted, doubled := false }) :
    Spans Q s (boundaryPieces boundary s sent) ∧ highFrom s (boundaryPieces boundary s sent) = sent.stop := by
  unfold boundaryPieces
  simp only [ge_nat, gt_nat, min_nat, decide_eq_true_eq]
  split
  · exact ⟨spans_singleton.2 ⟨hlt, fun o hle ho => habove o hle ho (by omega)⟩, rfl⟩
  · split
    · simp only [Spans, highFrom]
      refine ⟨⟨by omega, ?_, by omega, ?_, trivial⟩, trivial⟩
      · exact fun o hle ho => hbelow o hle (by omega) (by omega)
      · exact fun o hle ho => habove o (by omega) ho (by omega)
    · simp only [Spans, highFrom]
      exact ⟨⟨by omega, fun o hle ho => hbelow o hle (by omega) (by omega), trivial⟩, by omega⟩

theorem spans_map_lostPiece (h : Spans P start ranges)
    (hlost : ∀ o m, start ≤ o → P o m → Q o { m with lost := true, doubled := false }) :
    Spans Q start (ranges.map lostPiece) ∧ highFrom start (ranges.map lostPiece) = highFrom start ranges := by
  induction ranges generalizing start with
  | nil => exact ⟨trivial, rfl⟩
  | cons sent rest ih =>
      obtain ⟨hlt, hsent, hrest⟩ := h
      obtain ⟨hspans, hhigh⟩ := ih hrest fun o m ho => hlost o m (by omega)
      exact ⟨⟨hlt, fun o hle ho => hlost o _ hle (hsent o hle ho), hspans⟩, hhigh⟩

/-! ## How many pieces there are -/

/-- If a range is split only where it starts below a limit and ends above it, one range is. -/
theorem length_piecesFrom_le (pieces : ℕ → Sent ℕ → List (Sent ℕ)) (cost : ℕ → ℕ) (h : Spans P start ranges)
    (hpieces : ∀ s sent, s < sent.stop → (pieces s sent).length + cost sent.stop ≤ 1 + cost s) :
    (piecesFrom pieces start ranges).length ≤ ranges.length + cost start := by
  induction ranges generalizing start with
  | nil => exact Nat.zero_le _
  | cons sent rest ih =>
      have := hpieces start sent h.1
      have := ih h.2.2
      simp only [piecesFrom, List.length_append, List.length_cons]
      omega

theorem length_resendPieces_le (seq stop send : ℕ) (now : Instant) (h : Spans P start ranges) :
    (piecesFrom (resendPieces seq stop now send) start ranges).length ≤ ranges.length + 2 := by
  have hcost := length_piecesFrom_le (resendPieces seq stop now send)
    (fun s => (if s < seq then 1 else 0) + if s < stop then 1 else 0) h ?_
  · refine hcost.trans ?_
    split <;> split <;> omega
  · intro s sent hlt
    unfold resendPieces
    simp only [le_nat, ge_nat, lt_nat, gt_nat, Bool.or_eq_true, decide_eq_true_eq]
    split
    · simp only [List.length_singleton]
      split <;> split <;> split <;> split <;> omega
    · simp only [List.length_append, List.length_singleton]
      by_cases hlow : s < seq <;> by_cases hhigh : stop < sent.stop <;> simp only [hlow, hhigh, if_true, if_false]
      all_goals simp only [List.length_singleton, List.length_nil]
      all_goals split <;> split <;> split <;> omega

theorem length_boundaryPieces_le (boundary : ℕ) (h : Spans P start ranges) :
    (piecesFrom (boundaryPieces boundary) start ranges).length ≤ ranges.length + 1 := by
  have hcost := length_piecesFrom_le (boundaryPieces boundary) (fun s => if s < boundary then 1 else 0) h ?_
  · refine hcost.trans ?_
    split <;> omega
  · intro s sent hlt
    unfold boundaryPieces
    simp only [ge_nat, gt_nat, decide_eq_true_eq]
    by_cases hge : boundary ≤ s <;> by_cases hgt : boundary < sent.stop <;> simp only [hge, hgt, if_true, if_false]
    all_goals simp only [List.length_cons, List.length_nil]
    all_goals split <;> split <;> omega

end SendLog

end SmolNet
