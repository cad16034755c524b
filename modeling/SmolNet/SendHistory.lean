import SmolNet.RackSteps
import SmolNet.Transition

/-!
# The history of each octet

What a send log is for, octet by octet: how often an octet was sent since the log last forgot it, when and by
which send it was sent last, and whether that transmission is deemed lost or counts twice.  As long as no
call merges ranges, the log says just this; as long as none merges a range that was sent again, it still puts
the sends in order.
-/

namespace SmolNet

open Serial Intervals

/-- What happened to an octet.  An octet that the log does not hold was sent no times. -/
structure Octet where
  count : ℕ := 0
  number : ℕ := 0
  time : Instant := 0
  lost : Bool := false
  doubled : Bool := false
deriving DecidableEq, Repr

namespace Octet

/-- The octet is sent once more: twice in flight, if the transmission before was not deemed lost. -/
def sendAgain (octet : Octet) (number : ℕ) (now : Instant) : Octet :=
  ⟨octet.count + 1, number, now, false, decide (0 < octet.count) && !octet.lost⟩

def deemLost (octet : Octet) : Octet := { octet with lost := true, doubled := false }

/-- The first transmission is deemed lost. -/
def deemFirstLost (octet : Octet) : Octet :=
  { octet with lost := octet.lost || decide (octet.count ≤ 1), doubled := false }

end Octet

/-- The history of the octets from `start` up to `high`.  Send `n` was made at `times n`, left the end at `ends n`,
and is `novel` if it sent octets that were not held; nothing is held of the sends up to `since`. -/
structure History where
  start : ℕ := 0
  high : ℕ := 0
  sends : ℕ := 0
  since : ℕ := 0
  ends : ℕ → ℕ := fun _ => 0
  times : ℕ → Instant := fun _ => 0
  novel : ℕ → Bool := fun _ => false
  octet : ℕ → Octet := fun _ => {}

namespace History

def clear (h : History) (start : ℕ) : History :=
  { h with start := start, high := start, since := h.sends, octet := fun _ => {} }

/-- The octets below `ack` are forgotten. -/
def acknowledge (h : History) (ack : ℕ) : History :=
  if h.high ≤ h.start ∨ h.high ≤ ack then h.clear ack
  else if ack ≤ h.start then h
  else { h with start := ack, octet := fun o => if o < ack then {} else h.octet o }

/-- The octets of `[seq, stop)` are sent. -/
def send (h : History) (seq stop : ℕ) (now : Instant) : History :=
  { h with
    high := Max.max h.high stop
    sends := h.sends + 1
    ends := fun n => if n = h.sends + 1 then Max.max h.high stop else h.ends n
    times := fun n => if n = h.sends + 1 then now else h.times n
    novel := fun n => if n = h.sends + 1 then decide (h.high < stop) else h.novel n
    octet := fun o => if seq ≤ o ∧ o < stop then (h.octet o).sendAgain (h.sends + 1) now else h.octet o }

/-- A send that is not contiguous with what is held starts afresh. -/
def reaching (h : History) (seq : ℕ) : History := if h.high < seq then h.clear seq else h

def record (h : History) (una seq stop : ℕ) (now : Instant) : History :=
  let h := h.acknowledge una
  let seq := Max.max seq h.start
  if stop ≤ seq then h else (h.reaching seq).send seq stop now

def markAllLost (h : History) : History := { h with octet := fun o => (h.octet o).deemLost }

def markLostBelow (h : History) (boundary : ℕ) : History :=
  { h with octet := fun o => if o < boundary then (h.octet o).deemFirstLost else h.octet o }

def judge (h : History) (judged : ℕ → Bool) : History :=
  { h with octet := fun o => if judged o then (h.octet o).deemLost else h.octet o }

end History

namespace SendLog

inductive Call (α : Type) where
  | record (una seq stop : α) (now : Instant)
  | advance (ack : α)
  | markAllLost
  | markLostBelow (boundary : α)
  | detect (board : Scoreboard α) (now : Instant) (xmit : Xmit α) (wait : Nat)
deriving DecidableEq, Repr

section Calls

variable {α : Type} [Ord α] [Distance α] [DecidableEq α]

def apply (log : SendLog α) : Call α → Option (SendLog α)
  | .record una seq stop now => some (log.record una seq stop now)
  | .advance ack => some (log.advance ack)
  | .markAllLost => some log.markAllLost
  | .markLostBelow boundary => some (log.markLostBelow boundary)
  | .detect board now xmit wait => (log.detect board now xmit wait).map Prod.fst

/-- The ranges that the call builds, if it needs a builder. -/
def builds (log : SendLog α) : Call α → Option (List (Sent α))
  | .record una seq stop now =>
      let (log, seq) := log.prepare una seq
      if le stop seq then none else (log.reaching seq).numbered.sendBuilt seq stop now
  | .advance _ => none
  | .markAllLost => some log.markAllLostBuilt
  | .markLostBelow boundary => some (log.markLostBelowBuilt boundary)
  | .detect board now xmit wait =>
      (detectLoop board now xmit wait log.start log.ranges).map fun found => build found.pieces

/-- The call builds more ranges than fit, so that some are merged. -/
def compacts (log : SendLog α) (call : Call α) : Bool := (log.builds call).any fun built => logSize < built.length

/-- The call merges ranges of which some were sent again. -/
def mixes (log : SendLog α) (call : Call α) : Bool := (log.builds call).any mixed

end Calls

/-- Whether detection deems the octet lost, by what its range says. -/
def judges (xmit : Xmit ℕ) (wait : ℕ) (now : Instant) : ℕ → List (Sent ℕ) → ℕ → Bool
  | _, [], _ => false
  | start, sent :: rest, o =>
      (decide (start ≤ o ∧ o < sentBefore xmit start sent) && !sent.lost && decide (sent.time + wait ≤ now)) ||
        judges xmit wait now sent.stop rest o

end SendLog

/-- What a call on the log does to the history. -/
def History.follow (h : History) (log : SendLog ℕ) : SendLog.Call ℕ → History
  | .record una seq stop now => h.record una seq stop now
  | .advance ack => h.acknowledge ack
  | .markAllLost => h.markAllLost
  | .markLostBelow boundary => h.markLostBelow boundary
  | .detect _ now xmit wait => h.judge (SendLog.judges xmit wait now log.start log.ranges)

namespace History

/-- A call leaves the sends that were made as they were. -/
theorem follow_sends (h : History) (log : SendLog ℕ) (call : SendLog.Call ℕ) :
    h.sends ≤ (h.follow log call).sends ∧ ∀ n, n ≤ h.sends → (h.follow log call).ends n = h.ends n := by
  have hadv : ∀ ack, (h.acknowledge ack).sends = h.sends ∧ (h.acknowledge ack).ends = h.ends := by
    intro ack
    unfold acknowledge
    split
    · exact ⟨rfl, rfl⟩
    · split <;> exact ⟨rfl, rfl⟩
  cases call with
  | record una seq stop now =>
      obtain ⟨hsends, hends⟩ := hadv una
      have hreach : ∀ seq, ((h.acknowledge una).reaching seq).sends = h.sends ∧
          ((h.acknowledge una).reaching seq).ends = h.ends := by
        intro seq
        unfold reaching
        split <;> exact ⟨hsends, hends⟩
      simp only [follow, record]
      split
      · rw [hsends, hends]
        exact ⟨le_rfl, fun _ _ => rfl⟩
      · obtain ⟨hsends', hends'⟩ := hreach (Max.max seq (h.acknowledge una).start)
        simp only [send, hsends', hends']
        exact ⟨Nat.le_succ _, fun n hn => if_neg (by omega)⟩
  | advance ack =>
      obtain ⟨hsends, hends⟩ := hadv ack
      rw [follow, hsends, hends]
      exact ⟨le_rfl, fun _ _ => rfl⟩
  | _ => exact ⟨le_rfl, fun _ _ => rfl⟩

/-- How often RFC 6675's `pipe` counts an octet that is not SACKed: once if the history does not hold it. -/
def copies (h : History) (o : ℕ) : ℕ :=
  if (h.octet o).count = 0 then 1 else if (h.octet o).lost then 0 else if (h.octet o).doubled then 2 else 1

/-! ## What a range may say -/

/-- The range says of the octet what happened to it. -/
def Agrees (h : History) (o : ℕ) (m : Mark) : Prop :=
  m.time = (h.octet o).time ∧ m.retransmitted = decide (1 < (h.octet o).count) ∧
    m.lost = (h.octet o).lost ∧ m.doubled = (h.octet o).doubled

/-- The range's sends hold the octet's last one, which was made no later than the range says.  An octet that was
sent once lies above the end that every earlier send left. -/
structure Orders (h : History) (o : ℕ) (m : Mark) : Prop where
  late : (h.octet o).time ≤ m.time
  since : h.since < m.first
  first : m.first ≤ (h.octet o).number
  last : (h.octet o).number ≤ m.last
  sends : m.last ≤ h.sends
  single : m.retransmitted = true → m.first = m.last
  fresh : m.retransmitted = false →
    o < h.ends (h.octet o).number ∧ ∀ n, h.since < n → n < (h.octet o).number → h.ends n ≤ o

/-- What is left once ranges were merged, and once ranges were merged of which some were sent again. -/
def Told (h : History) (compacted mixed : Bool) (o : ℕ) (m : Mark) : Prop :=
  m.first ≤ m.last ∧ (mixed = false → h.Orders o m) ∧ (compacted = false → h.Agrees o m)

theorem joinStable_agrees (h : History) : JoinStable h.Agrees := by
  intro o o' a b hjoins ha hb
  simp only [Sent.joins, Bool.and_eq_true, beq_iff_eq] at hjoins
  obtain ⟨⟨⟨⟨htime, hretransmitted⟩, hlost⟩, hdoubled⟩, -⟩ := hjoins
  exact ⟨ha, htime.trans hb.1, hretransmitted.trans hb.2.1, hlost.trans hb.2.2.1, hdoubled.trans hb.2.2.2⟩

theorem joinStable_orders (h : History) : JoinStable h.Orders := by
  intro o o' a b hjoins ha hb
  simp only [Sent.joins, Bool.and_eq_true, Bool.or_eq_true, beq_iff_eq, Prod.mk.injEq, Bool.not_eq_true'] at hjoins
  obtain ⟨⟨⟨⟨htime, hretransmitted⟩, -⟩, -⟩, hrun⟩ := hjoins
  have hfirst : Nat.min a.first b.first ≤ a.first ∧ Nat.min a.first b.first ≤ b.first :=
    ⟨Nat.min_le_left _ _, Nat.min_le_right _ _⟩
  have hlast : a.last ≤ Nat.max a.last b.last ∧ b.last ≤ Nat.max a.last b.last :=
    ⟨Nat.le_max_left _ _, Nat.le_max_right _ _⟩
  have hsince : h.since < Nat.min a.first b.first := Nat.lt_min.2 ⟨ha.since, hb.since⟩
  have hsends : Nat.max a.last b.last ≤ h.sends := Nat.max_le.2 ⟨ha.sends, hb.sends⟩
  -- a range that was resent joins only with another part of the same send
  have hsingle : a.retransmitted = true → Nat.min a.first b.first = Nat.max a.last b.last := by
    intro hre
    have hone : a.first = a.last := ha.single hre
    rcases hrun with ⟨hf, hl⟩ | ⟨hno, -⟩
    · rw [hf, hl]
      exact (Nat.min_self _).trans (hone.trans (Nat.max_self _).symm)
    · rw [hre] at hno
      cases hno
  refine ⟨⟨ha.late, hsince, ?_, ?_, hsends, hsingle, ha.fresh⟩, ⟨?_, hsince, ?_, ?_, hsends, hsingle, fun hre => ?_⟩⟩
  · exact hfirst.1.trans ha.first
  · exact ha.last.trans hlast.1
  · exact hb.late.trans_eq htime.symm
  · exact hfirst.2.trans hb.first
  · exact hb.last.trans hlast.2
  · exact hb.fresh (hretransmitted.symm.trans hre)

/-- Merging two ranges that were sent once keeps the order of the sends. -/
theorem fuses_orders (h : History) {a b : Sent ℕ} (ha : a.retransmitted = false) (hb : b.retransmitted = false) :
    Fuses h.Orders a b := by
  intro o o' hao hbo
  have hsingle : (a.fuse b).retransmitted = true → (a.fuse b).first = (a.fuse b).last := by simp [Sent.fuse, ha, hb]
  have hsince : h.since < (a.fuse b).first := Nat.lt_min.2 ⟨hao.since, hbo.since⟩
  have hsends : (a.fuse b).last ≤ h.sends := Nat.max_le.2 ⟨hao.sends, hbo.sends⟩
  refine ⟨⟨?_, hsince, ?_, ?_, hsends, hsingle, fun _ => hao.fresh ha⟩,
    ⟨?_, hsince, ?_, ?_, hsends, hsingle, fun _ => hbo.fresh hb⟩⟩
  · exact hao.late.trans (le_max_left _ _)
  · exact (Nat.min_le_left _ _).trans hao.first
  · exact hao.last.trans (Nat.le_max_left _ _)
  · exact hbo.late.trans (le_max_right _ _)
  · exact (Nat.min_le_right _ _).trans hbo.first
  · exact hbo.last.trans (Nat.le_max_right _ _)

theorem joinStable_told (h : History) (compacted mixed : Bool) : JoinStable (h.Told compacted mixed) := by
  intro o o' a b hjoins ha hb
  have hle : Nat.min a.first b.first ≤ Nat.max a.last b.last :=
    (Nat.min_le_left _ _).trans (ha.1.trans (Nat.le_max_left _ _))
  have horders := fun hx => h.joinStable_orders o o' a b hjoins (ha.2.1 hx) (hb.2.1 hx)
  have hagrees := fun hc => h.joinStable_agrees o o' a b hjoins (ha.2.2 hc) (hb.2.2 hc)
  exact ⟨⟨hle, fun hx => (horders hx).1, fun hc => (hagrees hc).1⟩,
    ⟨hle, fun hx => (horders hx).2, fun hc => (hagrees hc).2⟩⟩

theorem fuses_told (h : History) {mixed : Bool} {a b : Sent ℕ}
    (hx : mixed = false → a.retransmitted = false ∧ b.retransmitted = false) : Fuses (h.Told true mixed) a b := by
  intro o o' ha hb
  have hle : (a.fuse b).first ≤ (a.fuse b).last := (Nat.min_le_left _ _).trans (ha.1.trans (Nat.le_max_left _ _))
  have horders := fun hfalse => h.fuses_orders (hx hfalse).1 (hx hfalse).2 o o' (ha.2.1 hfalse) (hb.2.1 hfalse)
  exact ⟨⟨hle, fun hfalse => (horders hfalse).1, (fun hc => nomatch hc)⟩,
    ⟨hle, fun hfalse => (horders hfalse).2, (fun hc => nomatch hc)⟩⟩

theorem numbered_told (h : History) (compacted mixed : Bool) : SendLog.Numbered (h.Told compacted mixed) :=
  fun _ _ hm => hm.1

/-! ## The history on its own -/

/-- The octets that were sent are those from the start to the end, and no send left an end above it. -/
structure Valid (h : History) : Prop where
  since : h.since ≤ h.sends
  ends : ∀ n, h.since < n → n ≤ h.sends → h.ends n ≤ h.high
  held : ∀ o, 0 < (h.octet o).count ↔ h.start ≤ o ∧ o < h.high

/-- Nothing was sent yet. -/
theorem valid_start (start : ℕ) : Valid { start := start, high := start } := by
  refine ⟨le_rfl, fun _ _ _ => Nat.zero_le _, fun o => ?_⟩
  simp only [lt_self_iff_false, false_iff]
  omega

theorem valid_clear (h : History) (start : ℕ) : (h.clear start).Valid := by
  refine ⟨le_rfl, fun n hn hle => ?_, fun o => ?_⟩
  · have : h.sends < n := hn
    have : n ≤ h.sends := hle
    omega
  · simp only [History.clear]
    omega

namespace Valid

variable {h : History}

theorem acknowledge (hv : h.Valid) (ack : ℕ) : (h.acknowledge ack).Valid := by
  unfold History.acknowledge
  split
  · exact h.valid_clear ack
  · split
    · exact hv
    · refine ⟨hv.since, hv.ends, fun o => ?_⟩
      have hheld := hv.held o
      dsimp only
      split
      · simp only [lt_self_iff_false, false_iff]
        omega
      · omega

theorem send (hv : h.Valid) {seq stop : ℕ} (now : Instant) (hstart : h.start ≤ seq) (hseq : seq ≤ h.high)
    (hlt : seq < stop) : (h.send seq stop now).Valid := by
  refine ⟨Nat.le_succ_of_le hv.since, fun n hn hle => ?_, fun o => ?_⟩
  · have hsends : n ≤ h.sends + 1 := hle
    simp only [History.send]
    split
    · exact le_rfl
    · exact (hv.ends n hn (by omega)).trans (Nat.le_max_left _ _)
  · have hheld := hv.held o
    simp only [History.send]
    split
    · simp only [Octet.sendAgain, Nat.zero_lt_succ, true_iff]
      omega
    · omega

/-- Deeming octets lost sends none. -/
theorem deem (hv : h.Valid) {octet : ℕ → Octet} (hcount : ∀ o, (octet o).count = (h.octet o).count) :
    Valid { h with octet := octet } := by
  refine ⟨hv.since, hv.ends, fun o => ?_⟩
  simp only [hcount]
  exact hv.held o

theorem judge (hv : h.Valid) (judged : ℕ → Bool) : (h.judge judged).Valid := by
  refine hv.deem fun o => ?_
  split <;> rfl

theorem markLostBelow (hv : h.Valid) (boundary : ℕ) : (h.markLostBelow boundary).Valid := by
  refine hv.deem fun o => ?_
  split <;> rfl

end Valid

/-- What is told about an octet of which nothing changed. -/
theorem Told.congr {h h' : History} {compacted mixed : Bool} {o : ℕ} {m : Mark} (ht : h.Told compacted mixed o m)
    (hoctet : h'.octet o = h.octet o) (hsince : h'.since = h.since) (hsends : h.sends ≤ h'.sends)
    (hends : ∀ n, n ≤ h.sends → h'.ends n = h.ends n) : h'.Told compacted mixed o m := by
  refine ⟨ht.1, fun hx => ?_, fun hc => ?_⟩
  · have ho := ht.2.1 hx
    have hnumber : (h.octet o).number ≤ h.sends := ho.last.trans ho.sends
    refine ⟨hoctet ▸ ho.late, hsince ▸ ho.since, hoctet ▸ ho.first, hoctet ▸ ho.last, ho.sends.trans hsends,
      ho.single, fun hre => ?_⟩
    obtain ⟨hlt, habove⟩ := ho.fresh hre
    rw [hoctet, hends _ hnumber, hsince]
    refine ⟨hlt, fun n hn hn' => ?_⟩
    rw [hends n (by omega)]
    exact habove n hn hn'
  · rw [Agrees, hoctet]
    exact ht.2.2 hc

/-- The octet's last transmission is deemed lost or not, and counts twice or not; the range says so if it said
what the history did. -/
theorem Told.deem {h : History} {octet : ℕ → Octet} {compacted mixed lost doubled lost' doubled' : Bool} {o : ℕ}
    {m : Mark} (ht : h.Told compacted mixed o m)
    (hoctet : octet o = { h.octet o with lost := lost, doubled := doubled })
    (hsaid : h.Agrees o m → lost' = lost ∧ doubled' = doubled) :
    Told { h with octet := octet } compacted mixed o { m with lost := lost', doubled := doubled' } := by
  refine ⟨ht.1, fun hx => ?_, fun hc => ?_⟩
  · have ho := ht.2.1 hx
    refine ⟨?_, ho.since, ?_, ?_, ho.sends, ho.single, ?_⟩
    all_goals simp only [hoctet]
    · exact ho.late
    · exact ho.first
    · exact ho.last
    · exact ho.fresh
  · have hagrees := ht.2.2 hc
    simp only [Agrees, hoctet]
    exact ⟨hagrees.1, hagrees.2.1, hsaid hagrees⟩

theorem Told.mono {h : History} {compacted mixed compacted' mixed' : Bool} {o : ℕ} {m : Mark}
    (ht : h.Told compacted mixed o m) : h.Told (compacted || compacted') (mixed || mixed') o m :=
  ⟨ht.1, fun hx => ht.2.1 (Bool.or_eq_false_iff.1 hx).1, fun hc => ht.2.2 (Bool.or_eq_false_iff.1 hc).1⟩

end History

namespace SendLog

/-! ## The log and the history -/

/-- The log holds what the history does, and says about each octet what the history does unless ranges were
merged. -/
structure Tracks (log : SendLog ℕ) (h : History) (compacted mixed : Bool) : Prop where
  valid : h.Valid
  start : log.start = h.start
  high : log.high = h.high
  sends : log.sends = h.sends
  size : log.ranges.length ≤ logSize
  told : log.Says (h.Told compacted mixed)

theorem judges_iff {P : ℕ → Mark → Prop} {xmit : Xmit ℕ} {wait start o : ℕ} {now : Instant}
    {ranges : List (Sent ℕ)} (h : Spans P start ranges) :
    judges xmit wait now start ranges o = true ↔ ∃ m, Marked start ranges o m ∧ Judged xmit wait now o m := by
  induction ranges generalizing start with
  | nil =>
      refine iff_of_false (by simp [judges]) ?_
      rintro ⟨m, hm, -⟩
      exact hm
  | cons sent rest ih =>
      obtain ⟨-, hle⟩ := sentBefore_bounds xmit h.1
      simp only [judges, Bool.or_eq_true, Bool.and_eq_true, decide_eq_true_eq, Bool.not_eq_true', ih h.2.2]
      constructor
      · rintro (⟨⟨⟨ho, ho'⟩, hlost⟩, hdue⟩ | ⟨m, hm, hj⟩)
        · have hstop : o < sent.stop := by omega
          exact ⟨sent.mark, .inl ⟨ho, hstop, rfl⟩, hlost, (lt_sentBefore ho hstop).1 ho', hdue⟩
        · exact ⟨m, .inr hm, hj⟩
      · rintro ⟨m, ⟨ho, ho', rfl⟩ | hm, hj⟩
        · exact .inl ⟨⟨⟨ho, (lt_sentBefore ho ho').2 hj.2.1⟩, hj.1⟩, hj.2.2⟩
        · exact .inr ⟨m, hm, hj⟩

namespace Tracks

variable {log : SendLog ℕ} {h : History} {compacted mixed : Bool}

theorem clear (ht : log.Tracks h compacted mixed) (start : ℕ) :
    (log.clear start).Tracks (h.clear start) compacted mixed :=
  ⟨h.valid_clear start, rfl, rfl, ht.sends, Nat.zero_le _, trivial⟩

theorem advance (ht : log.Tracks h compacted mixed) (ack : ℕ) :
    (log.advance ack).Tracks (h.acknowledge ack) compacted mixed := by
  have hvalid := ht.valid.acknowledge ack
  have hstart := ht.start
  have hhigh := ht.high
  rcases ht.told.advance_cases ack with ⟨hall, hadv⟩ | ⟨hnot, hle, hadv⟩ | ⟨hnot, hlt, htold, hs, hh, hn, hsize⟩
  · rw [hstart, hhigh] at hall
    rw [hadv, History.acknowledge, if_pos hall]
    exact ht.clear ack
  · rw [hstart, hhigh] at hnot
    rw [hadv, History.acknowledge, if_neg hnot, if_pos (by omega)]
    exact ht
  · rw [hstart, hhigh] at hnot
    rw [History.acknowledge, if_neg hnot, if_neg (by omega)] at hvalid ⊢
    refine ⟨hvalid, hs, hh.trans hhigh, hn.trans ht.sends, hsize.trans ht.size, ?_⟩
    refine htold.mono fun o m ho hm => hm.congr ?_ rfl le_rfl fun _ _ => rfl
    rw [hs] at ho
    exact if_neg (by omega)

theorem reaching (ht : log.Tracks h compacted mixed) (seq : ℕ) :
    (log.reaching seq).Tracks (h.reaching seq) compacted mixed ∧ seq ≤ (log.reaching seq).high := by
  have hhigh := ht.high
  rcases reaching_cases log seq with ⟨hle, hsame⟩ | ⟨hlt, hclear⟩
  · rw [hsame, History.reaching, if_neg (by omega)]
    exact ⟨ht, hle⟩
  · rw [hclear, History.reaching, if_pos (by omega)]
    exact ⟨ht.clear seq, le_rfl⟩

/-- What a send makes of what is said about each octet. -/
theorem sendStep (ht : log.Tracks h compacted mixed) {seq stop : ℕ} (now : Instant) (hseq : seq ≤ log.high) :
    SendStep (h.Told compacted mixed) ((h.send seq stop now).Told compacted mixed) log.numbered seq stop now := by
  have hsends : log.sends = h.sends := ht.sends
  have hhigh : log.high = h.high := ht.high
  have hnew : ∀ o, seq ≤ o → o < stop →
      (h.send seq stop now).octet o = (h.octet o).sendAgain (h.sends + 1) now := fun o ho ho' => if_pos ⟨ho, ho'⟩
  have hnumber : log.numbered.sends = h.sends + 1 := congrArg (· + 1) hsends
  have hsince := ht.valid.since
  refine ⟨?_, ?_, ?_⟩
  · intro o m ho ho' hout hm
    exact hm.congr (if_neg hout) rfl (Nat.le_succ _) fun n hn => if_neg (by omega)
  · intro o m ho ho' hin hin' hm
    have hcount : 0 < (h.octet o).count := (ht.valid.held o).2 ⟨ht.start ▸ ho, hhigh ▸ ho'⟩
    refine ⟨le_rfl, fun _ => ⟨?_, ?_, ?_, ?_, ?_, fun _ => rfl, (fun hre => nomatch hre)⟩, fun hc => ⟨?_, ?_, ?_, ?_⟩⟩
    all_goals simp only [hnew o hin hin', hnumber, Octet.sendAgain]
    · exact le_rfl
    · exact Nat.lt_succ_of_le hsince
    · exact le_rfl
    · exact le_rfl
    · exact le_rfl
    · exact (decide_eq_true (by omega)).symm
    · simp [hcount, (hm.2.2 hc).2.2.1]
  · intro o ho ho'
    have habove : h.high ≤ o := hhigh ▸ ho
    have hcount : (h.octet o).count = 0 := by
      have := ht.valid.held o
      omega
    have hin : seq ≤ o := hseq.trans ho
    refine ⟨le_rfl, fun _ => ⟨?_, ?_, ?_, ?_, ?_, (fun hre => nomatch hre), fun _ => ⟨?_, fun n hn hn' => ?_⟩⟩,
      fun _ => ⟨?_, ?_, ?_, ?_⟩⟩
    all_goals simp only [hnew o hin ho', hnumber, Octet.sendAgain] at *
    · exact le_rfl
    · exact Nat.lt_succ_of_le hsince
    · exact le_rfl
    · exact le_rfl
    · exact le_rfl
    · simp only [History.send, if_true]
      omega
    · have hold : (h.send seq stop now).ends n = h.ends n := if_neg (by omega)
      rw [hold]
      exact (ht.valid.ends n hn (by omega)).trans habove
    · simp [hcount]
    · simp [hcount]

/-- Whatever is built fits, or the merging shows in what is told. -/
theorem fuses (h : History) {compacted mixed : Bool} {built? : Option (List (Sent ℕ))} {built : List (Sent ℕ)}
    (hbuilt : built? = some built) :
    ∀ pair ∈ merged built, Fuses (h.Told (compacted || built?.any fun built => logSize < built.length)
      (mixed || built?.any SmolNet.mixed)) pair.1 pair.2 := by
  intro pair hpair
  subst hbuilt
  have hlong : logSize < built.length := by
    by_contra hfits
    rw [merged, Nat.sub_eq_zero_of_le (by omega)] at hpair
    exact List.not_mem_nil hpair
  rw [Option.any_some, Option.any_some, decide_eq_true hlong, Bool.or_true]
  refine h.fuses_told fun hx => ?_
  simpa using List.any_eq_false.1 (Bool.or_eq_false_iff.1 hx).2 pair hpair

theorem send (ht : log.Tracks h compacted mixed) {seq stop : ℕ} (now : Instant) (hstart : log.start ≤ seq)
    (hseq : seq ≤ log.high) (hlt : seq < stop) :
    (log.numbered.sendOn seq stop now).Tracks (h.send seq stop now)
      (compacted || (log.numbered.sendBuilt seq stop now).any fun built => logSize < built.length)
      (mixed || (log.numbered.sendBuilt seq stop now).any SmolNet.mixed) := by
  have hvalid := ht.valid.send now (ht.start ▸ hstart) (ht.high ▸ hseq) hlt
  obtain ⟨hkept, hagain, hnew⟩ := ht.sendStep now hseq
  have hnumbered : log.numbered.Says (h.Told compacted mixed) := ht.told
  obtain ⟨htold, hstart', hsends, hhigh⟩ := hnumbered.sendOn (History.numbered_told _ _ _) hlt hseq
    ⟨fun o m ho ho' hout hm => (hkept o m ho ho' hout hm).mono,
      fun o m ho ho' hin hin' hm => (hagain o m ho ho' hin hin' hm).mono, fun o ho ho' => (hnew o ho ho').mono⟩
    (History.joinStable_told _ _ _) fun built hbuilt => fuses _ hbuilt
  refine ⟨hvalid, hstart'.trans ht.start, ?_, ?_, length_sendOn_le ht.size, htold⟩
  · rw [hhigh]
    exact congrArg (Max.max · stop) ht.high
  · rw [hsends]
    exact congrArg (· + 1) ht.sends

theorem record (ht : log.Tracks h compacted mixed) (una seq stop : ℕ) (now : Instant) :
    (log.record una seq stop now).Tracks (h.record una seq stop now)
      (compacted || log.compacts (.record una seq stop now)) (mixed || log.mixes (.record una seq stop now)) := by
  have hadv := ht.advance una
  have hstart := hadv.start
  have hmax : Max.max seq (log.advance una).start = Max.max seq (h.acknowledge una).start := by rw [hstart]
  unfold SendLog.record SendLog.compacts SendLog.mixes SendLog.builds SendLog.prepare History.record
  simp only [max_nat, le_nat, decide_eq_true_eq, hmax]
  split
  · simpa using hadv
  · rename_i hlt
    obtain ⟨hreach, hle⟩ := hadv.reaching (Max.max seq (h.acknowledge una).start)
    refine hreach.send now ?_ hle (by omega)
    rcases reaching_cases (log.advance una) (Max.max seq (h.acknowledge una).start) with ⟨-, hsame⟩ | ⟨-, hclear⟩
    · rw [hsame, hstart]
      exact Nat.le_max_right _ _
    · rw [hclear]
      exact le_rfl

theorem markAllLost (ht : log.Tracks h compacted mixed) :
    log.markAllLost.Tracks h.markAllLost (compacted || log.compacts .markAllLost)
      (mixed || log.mixes .markAllLost) := by
  obtain ⟨htold, hhigh⟩ := Says.markAllLost ht.told (h.markAllLost.joinStable_told _ _)
    (fun o m _ hm => (hm.deem rfl fun _ => ⟨rfl, rfl⟩).mono) (fuses _ rfl)
  exact ⟨ht.valid.deem fun _ => rfl, ht.start, hhigh.trans ht.high, ht.sends, length_compact_le _, htold⟩

theorem markLostBelow (ht : log.Tracks h compacted mixed) (boundary : ℕ) :
    (log.markLostBelow boundary).Tracks (h.markLostBelow boundary)
      (compacted || log.compacts (.markLostBelow boundary)) (mixed || log.mixes (.markLostBelow boundary)) := by
  have habove : ∀ o m, boundary ≤ o → h.Told compacted mixed o m →
      (h.markLostBelow boundary).Told compacted mixed o m :=
    fun o m hge hm => hm.congr (if_neg (by omega)) rfl le_rfl fun _ _ => rfl
  have hbelow : ∀ o m, o < boundary → h.Told compacted mixed o m →
      (h.markLostBelow boundary).Told compacted mixed o
        { m with lost := m.lost || !m.retransmitted, doubled := false } := by
    intro o m hlt hm
    refine hm.deem (if_pos hlt) fun hagrees => ⟨?_, rfl⟩
    rw [hagrees.2.2.1, hagrees.2.1, ← decide_not]
    exact congrArg _ (decide_eq_decide.2 not_lt)
  obtain ⟨htold, hhigh⟩ := Says.markLostBelow boundary ht.told ((h.markLostBelow boundary).joinStable_told _ _)
    (fun o m _ hge hm => (habove o m hge hm).mono) (fun o m _ hlt hm => (hbelow o m hlt hm).mono) (fuses _ rfl)
  exact ⟨ht.valid.markLostBelow boundary, ht.start, hhigh.trans ht.high, ht.sends, length_compact_le _, htold⟩

theorem detect (ht : log.Tracks h compacted mixed) {board : Scoreboard ℕ} (hboard : Ascending board.ranges)
    (now : Instant) (xmit : Xmit ℕ) (wait : ℕ) :
    ∃ log' result, log.detect board now xmit wait = some (log', result) ∧
      log'.Tracks (h.judge (judges xmit wait now log.start log.ranges))
        (compacted || log.compacts (.detect board now xmit wait))
        (mixed || log.mixes (.detect board now xmit wait)) := by
  obtain ⟨found, hloop, hdetect, -, hspans, -⟩ := Says.detect now xmit wait ht.told hboard
  have hbuilds : log.builds (.detect board now xmit wait) = some (build found.pieces) := by
    rw [builds, hloop]
    rfl
  have hkept : ∀ o m, Marked log.start log.ranges o m → ¬ Judged xmit wait now o m →
      (h.judge (judges xmit wait now log.start log.ranges)).Told compacted mixed o m := by
    intro o m hm hnot
    refine (ht.told.of_marked hm).congr (if_neg ?_) rfl le_rfl fun _ _ => rfl
    rw [judges_iff ht.told]
    rintro ⟨m', hm', hj⟩
    rw [ht.told.marked_unique hm' hm] at hj
    exact hnot hj
  have hlost : ∀ o m, Marked log.start log.ranges o m → Judged xmit wait now o m →
      (h.judge (judges xmit wait now log.start log.ranges)).Told compacted mixed o
        { m with lost := true, doubled := false } := by
    intro o m hm hj
    exact (ht.told.of_marked hm).deem (if_pos ((judges_iff ht.told).2 ⟨m, hm, hj⟩)) fun _ => ⟨rfl, rfl⟩
  obtain ⟨hbuilt, hhigh⟩ := hspans _ (History.joinStable_told _ _ _) hkept hlost
  obtain ⟨htold, hhigh'⟩ := Says.replace (hbuilt.mono fun _ _ _ hm => hm.mono) (fuses _ hbuilds)
  exact ⟨_, _, hdetect, ht.valid.judge _, ht.start, (hhigh'.trans hhigh).trans ht.high, ht.sends,
    length_compact_le _, htold⟩

/-- Every call has a result that follows the history. -/
theorem apply (ht : log.Tracks h compacted mixed) (call : Call ℕ)
    (hboard : ∀ board now xmit wait, call = .detect board now xmit wait → Ascending board.ranges) :
    ∃ log', log.apply call = some log' ∧
      log'.Tracks (h.follow log call) (compacted || log.compacts call) (mixed || log.mixes call) := by
  cases call with
  | record una seq stop now => exact ⟨_, rfl, ht.record una seq stop now⟩
  | advance ack =>
      refine ⟨_, rfl, ?_⟩
      have hno : log.compacts (.advance ack) = false ∧ log.mixes (.advance ack) = false := ⟨rfl, rfl⟩
      rw [hno.1, hno.2, Bool.or_false, Bool.or_false]
      exact ht.advance ack
  | markAllLost => exact ⟨_, rfl, ht.markAllLost⟩
  | markLostBelow boundary => exact ⟨_, rfl, ht.markLostBelow boundary⟩
  | detect board now xmit wait =>
      obtain ⟨log', result, hdetect, htracks⟩ := ht.detect (hboard board now xmit wait rfl) now xmit wait
      refine ⟨log', ?_, htracks⟩
      rw [SendLog.apply, hdetect]
      rfl

/-- The builder never holds more than its array does. -/
theorem length_builds_le (ht : log.Tracks h compacted mixed) {call : Call ℕ} {built : List (Sent ℕ)}
    (hboard : ∀ board now xmit wait, call = .detect board now xmit wait → Ascending board.ranges)
    (hbuilt : log.builds call = some built) : built.length ≤ logSize + logSlack := by
  have hsize := ht.size
  have hslack : logSlack = 3 := rfl
  cases call with
  | record una seq stop now =>
      have hadv := ht.advance una
      obtain ⟨hreach, -⟩ := hadv.reaching (Serial.max seq (log.advance una).start)
      unfold builds prepare at hbuilt
      dsimp only at hbuilt
      split at hbuilt
      · cases hbuilt
      · unfold sendBuilt at hbuilt
        split at hbuilt
        · cases hbuilt
        · obtain rfl := Option.some.inj hbuilt
          have hnumbered : ((log.advance una).reaching (Serial.max seq (log.advance una).start)).numbered.Says
              ((h.acknowledge una).reaching (Serial.max seq (log.advance una).start) |>.Told compacted mixed) :=
            hreach.told
          have hlen := length_recordBuilt_le (Serial.max seq (log.advance una).start) stop now hnumbered
          exact hlen.trans (Nat.add_le_add_right hreach.size _)
  | advance ack => cases hbuilt
  | markAllLost =>
      obtain rfl := Option.some.inj hbuilt
      have := length_markAllLostBuilt_le log
      omega
  | markLostBelow boundary =>
      obtain rfl := Option.some.inj hbuilt
      have := length_markLostBelowBuilt_le ht.told boundary
      omega
  | detect board now xmit wait =>
      obtain ⟨found, hloop, -, hlen, -⟩ := Says.detect now xmit wait ht.told (hboard board now xmit wait rfl)
      rw [builds, hloop] at hbuilt
      obtain rfl := Option.some.inj hbuilt
      exact hlen.trans (by omega)

end Tracks

end SendLog

end SmolNet
