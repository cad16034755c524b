import SmolNet.RackRuns

/-!
# Round trip samples

Karn's algorithm, octet by octet: a round trip is measured only on octets that were sent once.
-/

namespace SmolNet

open Serial Intervals

namespace History

/-- The octet is held, is reported delivered, and is not on the board. -/
def Newly (h : History) (board : List Interval) (reported : ℕ → Prop) (o : ℕ) : Prop :=
  0 < (h.octet o).count ∧ reported o ∧ ¬ Covers board o

/-- The round trips of those octets that were sent once. -/
def trips (h : History) (now : Instant) (new : ℕ → Prop) : Set ℕ :=
  {t | ∃ o, new o ∧ (h.octet o).count = 1 ∧ t = (now - (h.octet o).time).natAbs}

end History

namespace Racked

variable {base : SeqNumber} {s : Racked}

/-- The octet is newly acknowledged. -/
def Acked (base : SeqNumber) (s : Racked) (board : Scoreboard SeqNumber) (una ack : SeqNumber) : ℕ → Prop :=
  s.history.Newly (board.map base.offset).ranges fun o => base.offset una ≤ o ∧ o < base.offset ack

/-- The octet is newly reported by a SACK block. -/
def Sacked (base : SeqNumber) (s : Racked) (board : Scoreboard SeqNumber) (sacks : List (SeqNumber × SeqNumber)) :
    ℕ → Prop :=
  s.history.Newly (board.map base.offset).ranges (Covers (sacks.map (Scoreboard.both base.offset)))

/-- The octets of the log are those that the history holds. -/
theorem Follows.marked_iff (h : Follows base s) {o : ℕ} :
    (∃ m, Marked (s.rack.log.map base.offset).start (s.rack.log.map base.offset).ranges o m) ↔
      0 < (s.history.octet o).count := by
  have hvalid := h.tracks.valid.held o
  rw [← h.tracks.start, ← h.tracks.high] at hvalid
  rw [hvalid]
  constructor
  · rintro ⟨m, hm⟩
    exact h.tracks.told.bounds_of_marked hm
  · rintro ⟨hle, hlt⟩
    exact h.tracks.told.exists_marked hle hlt

theorem Follows.retransmitted_iff (h : Follows base s) (hc : s.compacted = false) {o : ℕ} {m : Mark}
    (hm : Marked (s.rack.log.map base.offset).start (s.rack.log.map base.offset).ranges o m) :
    m.retransmitted = true ↔ 1 < (s.history.octet o).count := by
  rw [((h.tracks.told.of_marked hm).2.2 hc).2.1, decide_eq_true_eq]

theorem Follows.samples_eq (h : Follows base s) (hc : s.compacted = false) (now : Instant) (board : List Interval)
    (reported : ℕ → Prop) :
    samples now (fun o m =>
      Marked (s.rack.log.map base.offset).start (s.rack.log.map base.offset).ranges o m ∧ reported o ∧
        ¬ Covers board o) = s.history.trips now (s.history.Newly board reported) := by
  ext t
  constructor
  · rintro ⟨o, m, ⟨hm, hreported, hcov⟩, hre, rfl⟩
    have hcount := h.marked_iff.1 ⟨m, hm⟩
    have hagain := h.retransmitted_iff hc hm
    have htime := ((h.tracks.told.of_marked hm).2.2 hc).1
    rw [hre] at hagain
    refine ⟨o, ⟨hcount, hreported, hcov⟩, ?_, by rw [Mark.rtt, htime]⟩
    simp only [Bool.false_eq_true, false_iff] at hagain
    omega
  · rintro ⟨o, ⟨hcount, hreported, hcov⟩, honce, rfl⟩
    obtain ⟨m, hm⟩ := h.marked_iff.2 hcount
    have hagain := h.retransmitted_iff hc hm
    have htime := ((h.tracks.told.of_marked hm).2.2 hc).1
    refine ⟨o, m, ⟨hm, hreported, hcov⟩, ?_, by rw [Mark.rtt, htime]⟩
    cases hre : m.retransmitted with
    | false => rfl
    | true =>
        have := hagain.1 hre
        omega

/-- What an acknowledgment gathers, by what happened to each octet. -/
theorem Follows.gathered (h : Follows base s) (hc : s.compacted = false) {board : Scoreboard SeqNumber}
    {una ack : SeqNumber} {sacks : List (SeqNumber × SeqNumber)} (now : Instant)
    (hcall : (Rack.Call.onAck now board una ack sacks).Within base) :
    ∃ d, Delivery.gather now board s.rack.minRtt s.rack.log una ack sacks = some d ∧
      GreatestOf (s.history.trips now (s.Acked base board una ack)) d.cumulativeSample ∧
      GreatestOf (s.history.trips now (s.Sacked base board sacks)) d.sackSample ∧
      LeastOf ({t | s.rack.minRtt = some t} ∪
        s.history.trips now fun o => s.Acked base board una ack o ∨ s.Sacked base board sacks o) d.minRtt ∧
      (d.cumulativeRetransmission = true ↔
        ∃ o, s.Acked base board una ack o ∧ 1 < (s.history.octet o).count) := by
  obtain ⟨hboard, huna, hack, hsacks⟩ := hcall
  obtain ⟨d, hd, -, hmap⟩ := h.gather now hboard huna hack hsacks
  obtain ⟨d', hd', hgathered, -⟩ := gather_spec h.tracks.told hboard.wellFormed.ascending now s.rack.minRtt
    (base.offset una) (base.offset ack) (sacks.map (Scoreboard.both base.offset))
  obtain rfl := Option.some.inj (hd'.symm.trans hmap)
  refine ⟨d, hd, ?_, ?_, ?_, ?_⟩
  · rw [Acked, ← h.samples_eq hc]
    exact hgathered.cumulativeSample
  · rw [Sacked, ← h.samples_eq hc]
    exact hgathered.sackSample
  · have heither : (fun o => s.Acked base board una ack o ∨ s.Sacked base board sacks o) =
        s.history.Newly (board.map base.offset).ranges fun o =>
          (base.offset una ≤ o ∧ o < base.offset ack) ∨ Covers (sacks.map (Scoreboard.both base.offset)) o := by
      funext o
      simp only [Acked, Sacked, History.Newly]
      exact propext (by tauto)
    have hmin := hgathered.minRtt
    simp only [← and_or_left, ← or_and_right] at hmin
    rw [heither, ← h.samples_eq hc]
    exact hmin
  · refine hgathered.retransmission.trans ⟨?_, ?_⟩
    · rintro ⟨o, m, ⟨hm, hreported, hcov⟩, hre⟩
      exact ⟨o, ⟨h.marked_iff.1 ⟨m, hm⟩, hreported, hcov⟩, (h.retransmitted_iff hc hm).1 hre⟩
    · rintro ⟨o, ⟨hcount, hreported, hcov⟩, hre⟩
      obtain ⟨m, hm⟩ := h.marked_iff.2 hcount
      exact ⟨o, m, ⟨hm, hreported, hcov⟩, (h.retransmitted_iff hc hm).2 hre⟩

/-- As long as no ranges were merged, a sample is the longest round trip of the octets newly acknowledged, if
none of them was sent again, and otherwise of those newly SACKed; only octets that were sent once count.  The
minimum takes in all of these, and no call moves the latest segment delivered back. -/
theorem onAck_karn (h : Reaches base s) (hc : s.compacted = false) {board : Scoreboard SeqNumber}
    {una ack : SeqNumber} {sacks : List (SeqNumber × SeqNumber)} (now : Instant)
    (hcall : (Rack.Call.onAck now board una ack sacks).Within base) :
    ∃ sample rack', s.rack.onAck now board una ack sacks = some (sample, rack') ∧
      ((∃ o, s.Acked base board una ack o ∧ (s.history.octet o).count = 1) →
        (∀ o, s.Acked base board una ack o → (s.history.octet o).count = 1) →
        GreatestOf (s.history.trips now (s.Acked base board una ack)) sample) ∧
      ((¬ ∃ o, s.Acked base board una ack o ∧ (s.history.octet o).count = 1) ∨
          (∃ o, s.Acked base board una ack o ∧ 1 < (s.history.octet o).count) →
        GreatestOf (s.history.trips now (s.Sacked base board sacks)) sample) ∧
      LeastOf ({t | s.rack.minRtt = some t} ∪
        s.history.trips now fun o => s.Acked base board una ack o ∨ s.Sacked base board sacks o) rack'.minRtt ∧
      ∀ call rack'', s.rack.apply call = some rack'' → Rack.Moves s.rack.xmit rack''.xmit := by
  obtain ⟨d, hd, hcumulative, hsack, hmin, hagain⟩ := (Reaches.follows h).gathered hc now hcall
  refine ⟨(s.rack.settle now d).1, (s.rack.settle now d).2, by simp [Rack.onAck, hd], ?_, ?_, ?_, ?_⟩
  · rintro ⟨o, hnew, honce⟩ hall
    have hno : d.cumulativeRetransmission = false := by
      refine Bool.eq_false_of_not_eq_true fun htrue => ?_
      obtain ⟨o', hnew', hre⟩ := hagain.1 htrue
      have := hall o' hnew'
      omega
    cases hsample : d.cumulativeSample with
    | none =>
        rw [hsample] at hcumulative
        exact absurd ⟨o, hnew, honce, rfl⟩ (hcumulative (now - (s.history.octet o).time).natAbs)
    | some t =>
        rw [hsample] at hcumulative
        have hresult : (s.rack.settle now d).1 = some t := by simp [Rack.settle, hsample, hno]
        rw [hresult]
        exact hcumulative
  · intro hcase
    have hresult : (s.rack.settle now d).1 = d.sackSample := by
      cases hre : d.cumulativeRetransmission with
      | true => simp [Rack.settle, hre]
      | false =>
          cases hsample : d.cumulativeSample with
          | none => simp [Rack.settle, hsample]
          | some t =>
              -- an octet that was sent once is acknowledged, so one that was sent again is too
              rw [hsample] at hcumulative
              obtain ⟨o, hnew, honce, -⟩ := hcumulative.1
              rcases hcase with hnone | hex
              · exact absurd ⟨o, hnew, honce⟩ hnone
              · rw [hagain.2 hex] at hre
                cases hre
    rw [hresult]
    exact hsack
  · rw [(s.rack.settle_cases now d).2.1]
    exact hmin
  · exact fun call rack'' happly => (Rack.apply_xmit happly).1

/-- The first of two octets is sent again, and then both are acknowledged: the sample is that of a third, which
is SACKed. -/
theorem onAck_karn_resent :
    ∃ s rack', Reaches ⟨0⟩ s ∧ s.rack.onAck 70 .new ⟨0⟩ ⟨2⟩ [(⟨3⟩, ⟨4⟩)] = some (some 60, rack') ∧
      GreatestOf (s.history.trips 70 (s.Sacked ⟨0⟩ .new [(⟨3⟩, ⟨4⟩)])) (some 60) := by
  have hstart : Reaches ⟨0⟩ (start ⟨0⟩) := .start rfl
  have hrun : (Transition.execute (step ⟨0⟩) (fun _ call => call.Within ⟨0⟩) (start ⟨0⟩)
      [.record ⟨0⟩ ⟨0⟩ ⟨2⟩ 5, .record ⟨0⟩ ⟨2⟩ ⟨4⟩ 10, .record ⟨0⟩ ⟨0⟩ ⟨1⟩ 20]).map
      (fun s => (s.compacted, (s.rack.onAck 70 .new ⟨0⟩ ⟨2⟩ [(⟨3⟩, ⟨4⟩)]).map Prod.fst,
        (s.history.octet 0).count)) = some (false, some (some 60), 2) := by decide +kernel
  obtain ⟨s, hs, hview⟩ := hstart.observe hrun
  simp only [Prod.mk.injEq, Option.map_eq_some_iff] at hview
  obtain ⟨hc, ⟨⟨sample, rack'⟩, honAck, rfl⟩, hcount⟩ := hview
  have hcall : (Rack.Call.onAck 70 .new ⟨0⟩ ⟨2⟩ [(⟨3⟩, ⟨4⟩)]).Within ⟨0⟩ := by decide
  obtain ⟨sample, rack'', honAck', -, hsack, -⟩ := onAck_karn hs hc 70 hcall
  obtain ⟨rfl, rfl⟩ := Prod.mk.inj (Option.some.inj (honAck'.symm.trans honAck))
  refine ⟨s, rack'', hs, honAck, hsack (.inr ⟨0, ⟨by omega, ?_, not_covers_nil 0⟩, by omega⟩)⟩
  decide

end Racked

end SmolNet
