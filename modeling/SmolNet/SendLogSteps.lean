import SmolNet.SendLogSpans

/-!
# What the log's operations do to its octets

One statement for each operation of the send log, about any property of octets and what their ranges say.
-/

namespace SmolNet.SendLog

open Serial

variable {P Q : ℕ → Mark → Prop} {log : SendLog ℕ}

/-- The log's ranges follow one another from its start, and `P` holds of each octet and what is said of it. -/
abbrev Says (log : SendLog ℕ) (P : ℕ → Mark → Prop) : Prop := Spans P log.start log.ranges

theorem Says.le_high (h : log.Says P) : log.start ≤ log.high := h.le_highFrom

/-! ## Acknowledgments -/

theorem spans_dropWhile {start ack : ℕ} {ranges : List (Sent ℕ)} (h : Spans P start ranges) (hle : start ≤ ack)
    (hlt : ack < highFrom start ranges) :
    Spans P ack (ranges.dropWhile fun sent => decide (sent.stop ≤ ack)) ∧
      highFrom ack (ranges.dropWhile fun sent => decide (sent.stop ≤ ack)) = highFrom start ranges := by
  induction ranges generalizing start with
  | nil =>
      simp only [highFrom] at hlt
      omega
  | cons sent rest ih =>
      obtain ⟨hstart, hsent, hrest⟩ := h
      simp only [List.dropWhile_cons, decide_eq_true_eq]
      split
      · rename_i hpast
        exact ih hrest hpast hlt
      · rename_i hpast
        refine ⟨⟨by omega, fun o ho ho' => hsent o (by omega) ho', hrest⟩, rfl⟩

theorem Says.high_le_start_iff (h : log.Says P) : log.high ≤ log.start ↔ log.ranges = [] := by
  constructor
  · intro hle
    cases hranges : log.ranges with
    | nil => rfl
    | cons sent rest =>
        rw [Says, hranges] at h
        have hlt := h.1
        have hrest := h.2.2.le_highFrom
        rw [high, hranges, highFrom] at hle
        omega
  · intro hnil
    rw [high, hnil, highFrom]

/-- An acknowledgment forgets everything, nothing, or the octets below it. -/
theorem Says.advance_cases (h : log.Says P) (ack : ℕ) :
    ((log.high ≤ log.start ∨ log.high ≤ ack) ∧ log.advance ack = log.clear ack) ∨
      (¬ (log.high ≤ log.start ∨ log.high ≤ ack) ∧ ack ≤ log.start ∧ log.advance ack = log) ∨
      (¬ (log.high ≤ log.start ∨ log.high ≤ ack) ∧ log.start < ack ∧ (log.advance ack).Says P ∧
        (log.advance ack).start = ack ∧ (log.advance ack).high = log.high ∧
        (log.advance ack).sends = log.sends ∧ (log.advance ack).ranges.length ≤ log.ranges.length) := by
  have hempty := h.high_le_start_iff
  unfold SendLog.advance
  simp only [le_nat, ge_nat, decide_eq_true_eq, List.isEmpty_iff]
  split
  · rename_i hnil
    refine .inl ⟨.inl (hempty.2 hnil), ?_⟩
    rw [clear, hnil]
  · rename_i hcons
    have hlt : ¬ log.high ≤ log.start := fun hle => hcons (hempty.1 hle)
    split
    · rename_i hack
      exact .inr (.inl ⟨by omega, hack, rfl⟩)
    · rename_i hack
      split
      · rename_i hhigh
        exact .inl ⟨.inr hhigh, rfl⟩
      · rename_i hhigh
        obtain ⟨hspans, hsame⟩ := spans_dropWhile h (by omega : log.start ≤ ack) (by
          have : log.high = highFrom log.start log.ranges := rfl
          omega)
        refine .inr (.inr ⟨by omega, by omega, hspans, rfl, hsame, rfl, ?_⟩)
        exact (List.dropWhile_suffix _).length_le

/-! ## Replacing the ranges -/

/-- The ranges are replaced by what is built, if the merging that makes it fit keeps the property. -/
theorem Says.replace {built : List (Sent ℕ)} (h : Spans Q log.start built)
    (hfuses : ∀ pair ∈ merged built, Fuses Q pair.1 pair.2) :
    (log.replace built).Says Q ∧ (log.replace built).high = highFrom log.start built :=
  h.compactBy hfuses

/-! ## Sends -/

theorem reaching_cases (log : SendLog ℕ) (seq : ℕ) :
    (seq ≤ log.high ∧ log.reaching seq = log) ∨ (log.high < seq ∧ log.reaching seq = log.clear seq) := by
  unfold reaching
  simp only [gt_nat, decide_eq_true_eq]
  split
  · rename_i hlt
    exact .inr ⟨hlt, rfl⟩
  · rename_i hge
    exact .inl ⟨by omega, rfl⟩

/-- What a send does to the property of each octet: those outside `[seq, stop)` keep it, those sent before
are marked as resent, and those from the log's end on are new. -/
structure SendStep (P Q : ℕ → Mark → Prop) (log : SendLog ℕ) (seq stop : ℕ) (now : Instant) : Prop where
  outside : ∀ o m, log.start ≤ o → o < log.high → ¬ (seq ≤ o ∧ o < stop) → P o m → Q o m
  resent : ∀ o m, log.start ≤ o → o < log.high → seq ≤ o → o < stop → P o m →
    Q o ⟨now, true, false, !m.lost, log.sends, log.sends⟩
  fresh : ∀ o, log.high ≤ o → o < stop → Q o ⟨now, false, false, false, log.sends, log.sends⟩

/-- Ranges of sends are numbered in order. -/
def Numbered (P : ℕ → Mark → Prop) : Prop := ∀ o m, P o m → m.first ≤ m.last

theorem extend_fresh {last : Sent ℕ} {stop send : ℕ} {now : Instant} (hle : last.first ≤ last.last)
    (hjoins : last.joins (freshSent stop now send) = true) :
    { last with stop := stop, last := send } = last.extend (freshSent stop now send) := by
  have hnum : last.first ≤ send ∧ last.last ≤ send := by
    simp only [Sent.joins, freshSent, Bool.and_eq_true, Bool.or_eq_true, beq_iff_eq, Prod.mk.injEq] at hjoins
    obtain ⟨-, ⟨hfirst, hlast⟩ | ⟨-, hnext⟩⟩ := hjoins <;> omega
  unfold Sent.extend freshSent
  congr 1
  · exact (Nat.min_eq_left hnum.1).symm
  · exact (Nat.max_eq_right hnum.2).symm

theorem Says.recordBuilt {seq stop : ℕ} {now : Instant} (h : log.Says P) (hne : seq < stop)
    (hstep : SendStep P Q log seq stop now) (hjoin : JoinStable Q) :
    Spans Q log.start (log.recordBuilt seq stop now log.sends) ∧
      highFrom log.start (log.recordBuilt seq stop now log.sends) = Max.max log.high stop := by
  obtain ⟨hpieces, hhigh⟩ := spans_piecesFrom (Q := Q) h.lt_highFrom fun s sent hs hlt hall =>
    spans_resendPieces now log.sends hne hlt
      (fun o ho ho' hout => hstep.outside o _ (by omega) (hall o ho ho').2 hout (hall o ho ho').1)
      (fun o ho ho' hin hin' => hstep.resent o _ (by omega) (hall o ho ho').2 hin hin' (hall o ho ho').1)
  have hall : Spans Q log.start
      (piecesFrom (resendPieces seq stop now log.sends) log.start log.ranges ++
        if gt stop log.high then [freshSent stop now log.sends] else []) ∧
      highFrom log.start (piecesFrom (resendPieces seq stop now log.sends) log.start log.ranges ++
        if gt stop log.high then [freshSent stop now log.sends] else []) = Max.max log.high stop := by
    rw [spans_append, highFrom_append, hhigh, gt_nat]
    change (_ ∧ Spans Q log.high _) ∧ highFrom log.high _ = _
    by_cases hgt : log.high < stop
    · simp only [hgt, decide_true, if_true, Spans, highFrom]
      refine ⟨⟨hpieces, hgt, fun o ho ho' => hstep.fresh o ho ho', trivial⟩, ?_⟩
      exact (Nat.max_eq_right (Nat.le_of_lt hgt)).symm
    · simp only [hgt, decide_false, Bool.false_eq_true, if_false, Spans, highFrom]
      exact ⟨⟨hpieces, trivial⟩, (Nat.max_eq_left (by omega)).symm⟩
  obtain ⟨hspans, hhigh'⟩ := hall.1.build hjoin
  exact ⟨hspans, hhigh'.trans hall.2⟩

/-- New data at the end of the log. -/
theorem Says.appendFresh {log' : SendLog ℕ} {stop : ℕ} {now : Instant} (h : log.Says P) (hnum : Numbered Q)
    (hne : log.high < stop) (hstep : SendStep P Q log log.high stop now) (hjoin : JoinStable Q)
    (happend : log.appendFresh stop now log.sends = some log') :
    log'.Says Q ∧ log'.start = log.start ∧ log'.sends = log.sends ∧ log'.high = stop := by
  have hkept : log.Says Q := by
    refine h.lt_highFrom.mono fun o m ho hm => hstep.outside o m ho hm.2 ?_ hm.1
    have : o < log.high := hm.2
    omega
  have hfresh : Spans Q log.high [freshSent stop now log.sends] :=
    spans_singleton.2 ⟨hne, fun o ho ho' => hstep.fresh o ho ho'⟩
  unfold SendLog.appendFresh at happend
  split at happend
  · rename_i last hlast
    have hsplit : log.ranges = log.ranges.dropLast ++ [last] := by
      rw [List.dropLast_append_getLast? last hlast]
    split at happend
    · rename_i hjoins
      obtain rfl := Option.some.inj happend
      -- the last range and the new data are joined
      have hboth : Spans Q log.start (log.ranges.dropLast ++ ([last] ++ [freshSent stop now log.sends])) := by
        rw [← List.append_assoc, ← hsplit]
        exact spans_append.2 ⟨hkept, hfresh⟩
      obtain ⟨hfront, hlast', hlastQ, hnext⟩ := spans_append.1 hboth
      have hle : last.first ≤ last.last := hnum _ _ (hlastQ _ le_rfl hlast')
      rw [extend_fresh hle hjoins]
      obtain ⟨hspans, -⟩ := Spans.joinAll hjoin (⟨hlast', hlastQ, hnext⟩ :
        Spans Q _ [last, freshSent stop now log.sends])
      simp only [SmolNet.joinAll, hjoins, if_true] at hspans
      refine ⟨spans_append.2 ⟨hfront, hspans⟩, rfl, rfl, ?_⟩
      change highFrom _ (_ ++ _) = _
      rw [highFrom_append]
      rfl
    · split at happend
      · obtain rfl := Option.some.inj happend
        refine ⟨spans_append.2 ⟨hkept, hfresh⟩, rfl, rfl, ?_⟩
        change highFrom _ (_ ++ _) = _
        rw [highFrom_append]
        rfl
      · cases happend
  · rename_i hnone
    obtain rfl := Option.some.inj happend
    have hhigh : log.high = log.start := by rw [high, List.getLast?_eq_none_iff.1 hnone, highFrom]
    rw [hhigh] at hfresh
    exact ⟨hfresh, rfl, rfl, rfl⟩

theorem sendOn_cases (log : SendLog ℕ) (seq stop : ℕ) (now : Instant) :
    (∃ log', seq = log.high ∧ log.appendFresh stop now log.sends = some log' ∧ log.sendOn seq stop now = log') ∨
      log.sendBuilt seq stop now = some (log.recordBuilt seq stop now log.sends) ∧
        log.sendOn seq stop now = log.replace (log.recordBuilt seq stop now log.sends) := by
  unfold sendOn sendBuilt
  by_cases hseq : seq = log.high
  · cases happend : log.appendFresh stop now log.sends with
    | none => exact .inr (by simp [hseq])
    | some log' => exact .inl ⟨log', hseq, rfl, by simp [hseq]⟩
  · exact .inr (by simp [hseq])

theorem Says.sendOn {seq stop : ℕ} {now : Instant} (h : log.Says P) (hnum : Numbered Q) (hne : seq < stop)
    (hseq : seq ≤ log.high) (hstep : SendStep P Q log seq stop now) (hjoin : JoinStable Q)
    (hfuses : ∀ built, log.sendBuilt seq stop now = some built → ∀ pair ∈ merged built, Fuses Q pair.1 pair.2) :
    (log.sendOn seq stop now).Says Q ∧ (log.sendOn seq stop now).start = log.start ∧
      (log.sendOn seq stop now).sends = log.sends ∧
      (log.sendOn seq stop now).high = Max.max log.high stop := by
  rcases sendOn_cases log seq stop now with ⟨log', rfl, happend, hsend⟩ | ⟨hbuilt, hsend⟩
  · rw [hsend, Nat.max_eq_right (Nat.le_of_lt hne)]
    exact h.appendFresh hnum hne hstep hjoin happend
  · obtain ⟨hspans, hhigh⟩ := h.recordBuilt hne hstep hjoin
    rw [hsend]
    obtain ⟨htold, hhigh'⟩ := Says.replace hspans (hfuses _ hbuilt)
    exact ⟨htold, rfl, rfl, hhigh'.trans hhigh⟩

theorem length_recordBuilt_le (seq stop : ℕ) (now : Instant) (h : log.Says P) :
    (log.recordBuilt seq stop now log.sends).length ≤ log.ranges.length + logSlack := by
  refine (length_build_le _).trans ?_
  have hpieces := length_resendPieces_le seq stop log.sends now h
  have hslack : logSlack = 3 := rfl
  rw [List.length_append]
  split
  · rw [List.length_singleton]
    omega
  · rw [List.length_nil]
    omega

theorem length_appendFresh_le {log log' : SendLog ℕ} {stop send : ℕ} {now : Instant}
    (hsize : log.ranges.length ≤ logSize) (happend : log.appendFresh stop now send = some log') :
    log'.ranges.length ≤ logSize := by
  unfold SendLog.appendFresh at happend
  split at happend
  · rename_i last hlast
    have hpos : 0 < log.ranges.length := List.length_pos_iff.2 fun hnil => by simp [hnil] at hlast
    split at happend
    · obtain rfl := Option.some.inj happend
      simp only [List.length_append, List.length_dropLast, List.length_singleton]
      omega
    · split at happend
      · obtain rfl := Option.some.inj happend
        simp only [List.length_append, List.length_singleton]
        omega
      · cases happend
  · obtain rfl := Option.some.inj happend
    exact (by decide : 1 ≤ logSize)

theorem length_sendOn_le {seq stop : ℕ} {now : Instant} (hsize : log.ranges.length ≤ logSize) :
    (log.sendOn seq stop now).ranges.length ≤ logSize := by
  rcases sendOn_cases log seq stop now with ⟨log', -, happend, hsend⟩ | ⟨-, hsend⟩
  · rw [hsend]
    exact length_appendFresh_le hsize happend
  · rw [hsend]
    exact length_compact_le _

/-! ## Marks -/

theorem Says.markAllLost (h : log.Says P) (hjoin : JoinStable Q)
    (hlost : ∀ o m, log.start ≤ o → P o m → Q o { m with lost := true, doubled := false })
    (hfuses : ∀ pair ∈ merged log.markAllLostBuilt, Fuses Q pair.1 pair.2) :
    log.markAllLost.Says Q ∧ log.markAllLost.high = log.high := by
  obtain ⟨hpieces, hhigh⟩ := spans_map_lostPiece h hlost
  obtain ⟨hspans, hhigh'⟩ := hpieces.build hjoin
  obtain ⟨htold, hhigh''⟩ := Says.replace hspans hfuses
  exact ⟨htold, hhigh''.trans (hhigh'.trans hhigh)⟩

theorem Says.markLostBelow (boundary : ℕ) (h : log.Says P) (hjoin : JoinStable Q)
    (habove : ∀ o m, log.start ≤ o → boundary ≤ o → P o m → Q o m)
    (hbelow : ∀ o m, log.start ≤ o → o < boundary → P o m →
      Q o { m with lost := m.lost || !m.retransmitted, doubled := false })
    (hfuses : ∀ pair ∈ merged (log.markLostBelowBuilt boundary), Fuses Q pair.1 pair.2) :
    (log.markLostBelow boundary).Says Q ∧ (log.markLostBelow boundary).high = log.high := by
  obtain ⟨hpieces, hhigh⟩ := spans_piecesFrom (Q := Q) h fun s sent hs hlt hall =>
    spans_boundaryPieces hlt
      (fun o ho ho' hge => habove o _ (by omega) hge (hall o ho ho'))
      (fun o ho ho' hlt' => hbelow o _ (by omega) hlt' (hall o ho ho'))
  obtain ⟨hspans, hhigh'⟩ := hpieces.build hjoin
  obtain ⟨htold, hhigh''⟩ := Says.replace hspans hfuses
  exact ⟨htold, hhigh''.trans (hhigh'.trans hhigh)⟩

theorem length_markAllLostBuilt_le (log : SendLog ℕ) : log.markAllLostBuilt.length ≤ log.ranges.length := by
  refine (length_build_le _).trans ?_
  rw [List.length_map]

theorem length_markLostBelowBuilt_le (h : log.Says P) (boundary : ℕ) :
    (log.markLostBelowBuilt boundary).length ≤ log.ranges.length + 1 :=
  (length_build_le _).trans (length_boundaryPieces_le boundary h)

end SmolNet.SendLog
