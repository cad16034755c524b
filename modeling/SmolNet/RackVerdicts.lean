import SmolNet.RackRuns

/-!
# What RACK deems lost

As long as no ranges were merged of which some were sent again, an octet that RACK deems lost was sent before
one that was reported delivered.  Merging two ranges that were sent again in falling order breaks this: the
merged range is one run of sends, and an octet of its last send counts as sent before the delivered octet of
its first.
-/

namespace SmolNet

open Serial Intervals

namespace SendLog

/-- If the range says that the octet is lost, one of the log said so before, or has it judged. -/
def LostFrom (log : SendLog ℕ) (xmit : Xmit ℕ) (wait : ℕ) (now : Instant) (o : ℕ) (m : Mark) : Prop :=
  m.lost = true → ∃ m', Marked log.start log.ranges o m' ∧ (m'.lost = true ∨ Judged xmit wait now o m')

theorem joinStable_lostFrom (log : SendLog ℕ) (xmit : Xmit ℕ) (wait : ℕ) (now : Instant) :
    JoinStable (log.LostFrom xmit wait now) := by
  intro o o' a b hjoins ha hb
  simp only [Sent.joins, Bool.and_eq_true, beq_iff_eq] at hjoins
  obtain ⟨⟨⟨-, hsame⟩, -⟩, -⟩ := hjoins
  exact ⟨ha, fun hlost => hb (hsame.symm.trans hlost)⟩

/-- Merged ranges are lost only if both are. -/
theorem fuses_lostFrom (log : SendLog ℕ) (xmit : Xmit ℕ) (wait : ℕ) (now : Instant) (a b : Sent ℕ) :
    Fuses (log.LostFrom xmit wait now) a b := by
  intro o o' ha hb
  exact ⟨fun hlost => ha (Bool.and_eq_true_iff.1 hlost).1, fun hlost => hb (Bool.and_eq_true_iff.1 hlost).2⟩

theorem lostFrom_of_detect {P : ℕ → Mark → Prop} {log log' : SendLog ℕ} {board : Scoreboard ℕ} {now : Instant}
    {xmit : Xmit ℕ} {wait : ℕ} {result : Bool × Option Instant} (h : log.Says P) (hboard : Ascending board.ranges)
    (hdetect : log.detect board now xmit wait = some (log', result)) : log'.Says (log.LostFrom xmit wait now) := by
  obtain ⟨found, -, hfound, -, hspans, -⟩ := Says.detect now xmit wait h hboard
  obtain ⟨rfl, -⟩ := Prod.mk.inj (Option.some.inj (hfound.symm.trans hdetect))
  obtain ⟨hbuilt, -⟩ := hspans _ (log.joinStable_lostFrom xmit wait now)
    (fun o m hm _ hlost => ⟨m, hm, .inl hlost⟩) fun o m hm hj _ => ⟨m, hm, .inr hj⟩
  exact (Says.replace hbuilt fun _ _ => log.fuses_lostFrom xmit wait now _ _).1

end SendLog

namespace Racked

variable {base : SeqNumber} {s : Racked}

/-- On offsets, detection judges by the latest segment delivered. -/
theorem Follows.detect (h : Follows base s) {board : Scoreboard SeqNumber} {now : Instant} {srtt : Option ℕ}
    {newlyLost : Bool} {rack' : Rack SeqNumber} (hboard : Scoreboard.Windowed base board)
    (hdetect : s.rack.detect board now srtt = some (newlyLost, rack')) :
    (s.rack.xmit = none ∧ rack'.log = s.rack.log) ∨
      ∃ x result, s.rack.xmit = some x ∧
        (s.rack.log.map base.offset).detect (board.map base.offset) now (x.map base.offset) (s.rack.wait srtt) =
          some (rack'.log.map base.offset, result) := by
  rcases Rack.detect_cases hdetect with ⟨hx, -, rfl⟩ | ⟨x, log, next, hx, hlog, rfl⟩
  · exact .inl ⟨hx, rfl⟩
  · have hcall : (SendLog.Call.detect board now x (s.rack.wait srtt)).Within base := ⟨hboard, h.within x hx⟩
    have happly := (h.held.apply base.embeds hcall.inWindow).1
    rw [SendLog.apply, hlog] at happly
    obtain ⟨⟨log', result⟩, hlog', heq⟩ := Option.map_eq_some_iff.1 happly
    obtain rfl : log' = log.map base.offset := heq
    exact .inr ⟨x, result, hx, hlog'⟩

/-- An octet that is sent before the latest segment delivered, by what its range tells, was sent before the octet
that the segment ends with, or with it and not above it. -/
theorem XmitFrom.before {h : History} {delivered : List (ℕ × ℕ)} {n : ℕ} {x : Xmit ℕ} {o : ℕ} {m : Mark}
    (hx : XmitFrom h delivered n x) (ht : h.Orders o m) (hbefore : SendLog.Before x o m) :
    (h.octet o).number < n ∨ (h.octet o).number = n ∧ o < x.stop := by
  obtain ⟨d, -, hstop, hfresh⟩ := hx.octet
  have hfirst := hx.first_le
  have hlast := hx.le_last
  have hnumber := ht.first
  have hnumber' := ht.last
  have hsince := ht.since
  rcases hbefore with hearlier | ⟨hf, hl, ho⟩
  · exact .inl (by omega)
  · have hle : (h.octet o).number ≤ n := by
      rcases hfresh with hone | ⟨hd, -⟩
      · omega
      · by_contra hlt
        -- the octet was then sent later than `d` as new data, which lies above `d`
        have hnew : m.retransmitted = false := by
          by_contra hre
          have := ht.single (by simpa using hre)
          omega
        have := (ht.fresh hnew).2 n (by omega) (by omega)
        omega
    omega

/-- Octets from the start of the window on, each sent in a millisecond of its own. -/
def eachSent (n : ℕ) : List (Rack.Call SeqNumber) :=
  (List.range n).map fun k => .record ⟨0⟩ ⟨BitVec.ofNat 32 k⟩ ⟨BitVec.ofNat 32 (k + 1)⟩ (k + 1)

/-- As long as no ranges were merged of which some were sent again, an octet that RACK newly deems lost, and that
was not reported delivered itself, was sent before one that was, and at least the round trip and the reordering
window before. -/
theorem detect_sound (h : Reaches base s) (hc : s.mixed = false) {board : Scoreboard SeqNumber}
    {now : Instant} {srtt : Option ℕ} {newlyLost : Bool} {rack' : Rack SeqNumber} {o : ℕ}
    (hboard : Scoreboard.Windowed base board)
    (hdetect : s.rack.detect board now srtt = some (newlyLost, rack'))
    (hbefore : ¬ Logged.LostAt base s.rack.log o) (hafter : Logged.LostAt base rack'.log o)
    (hnot : ((s.history.octet o).number, o) ∉ s.delivered) :
    (∃ n d, (n, d) ∈ s.delivered ∧
      ((s.history.octet o).number < n ∨ (s.history.octet o).number = n ∧ o < d)) ∧
      (s.history.octet o).time + s.rack.rtt + s.rack.reoWnd srtt ≤ now := by
  have hf := Reaches.follows h
  rcases hf.detect hboard hdetect with ⟨-, hlog⟩ | ⟨x, result, hx, hlog⟩
  · rw [hlog] at hafter
    exact absurd hafter hbefore
  · obtain ⟨m, hm, hlost⟩ := hafter
    have hlostFrom := SendLog.lostFrom_of_detect hf.tracks.told hboard.wellFormed.ascending hlog
    obtain ⟨m', hm', hcase⟩ := hlostFrom.of_marked hm hlost
    rcases hcase with hlost' | hj
    · exact absurd ⟨m', hm', hlost'⟩ hbefore
    · have horders := (hf.tracks.told.of_marked hm').2.1 hc
      have hfrom := hf.xmit hc x hx
      have hearlier := hfrom.before horders hj.2.1
      obtain ⟨d, hmem, hstop, -⟩ := hfrom.octet
      refine ⟨⟨s.latest, d, hmem, ?_⟩, ?_⟩
      · refine hearlier.imp_right fun hsame => ⟨hsame.1, ?_⟩
        by_contra hle
        have hod : o = d := by omega
        rw [hsame.1, hod] at hnot
        exact hnot hmem
      have hdue := hj.2.2
      have hrtt : s.rack.rtt ≤ srtt.elim s.rack.rtt fun srtt => Max.max s.rack.rtt srtt := by
        cases srtt with
        | none => exact le_rfl
        | some srtt => exact Nat.le_max_left _ _
      rw [Rack.wait] at hdue
      push_cast at hdue
      have hcast : (s.rack.rtt : ℤ) ≤ ((srtt.elim s.rack.rtt fun srtt => Max.max s.rack.rtt srtt : ℕ) : ℤ) := by
        exact_mod_cast hrtt
      have htime : ((s.history.octet o).time : ℤ) + s.rack.rtt + s.rack.reoWnd srtt ≤ now := by
        refine le_trans ?_ hdue
        rw [add_assoc]
        exact Int.add_le_add horders.late (Int.add_le_add_right hcast _)
      exact htime

/-- Sixty-five octets, each sent in a millisecond of its own, so that the first two are merged.  The second is
SACKed, and the first is deemed lost when its time has come. -/
theorem detect_sound_first_lost :
    ∃ s rack' n d, Reaches ⟨0⟩ s ∧ s.compacted = true ∧ s.rack.detect ⟨[(⟨1⟩, ⟨2⟩)]⟩ 1000 none = some (true, rack') ∧
      Logged.LostAt ⟨0⟩ rack'.log 0 ∧ (n, d) ∈ s.delivered ∧
      ((s.history.octet 0).number < n ∨ (s.history.octet 0).number = n ∧ 0 < d) := by
  have hstart : Reaches ⟨0⟩ (start ⟨0⟩) := .start rfl
  have hrun : (Transition.execute (step ⟨0⟩) (fun _ call => call.Within ⟨0⟩) (start ⟨0⟩)
      (eachSent 65 ++ [.onAck 70 .new ⟨0⟩ ⟨0⟩ [(⟨1⟩, ⟨2⟩)]])).map
      (fun s => ((s.compacted, s.mixed), decide (Logged.LostAt ⟨0⟩ s.rack.log 0),
        (s.rack.detect ⟨[(⟨1⟩, ⟨2⟩)]⟩ 1000 none).map fun r => (r.1, decide (Logged.LostAt ⟨0⟩ r.2.log 0)),
        decide (((s.history.octet 0).number, 0) ∈ s.delivered))) =
      some ((true, false), false, some (true, true), false) := by decide +kernel
  obtain ⟨s, hs, hview⟩ := hstart.observe hrun
  simp only [Prod.mk.injEq, decide_eq_false_iff_not, Option.map_eq_some_iff] at hview
  obtain ⟨⟨hcompacted, hc⟩, hbefore, ⟨⟨newlyLost, rack'⟩, hdetect, rfl, hafter⟩, hnot⟩ := hview
  have hboard : Scoreboard.Windowed ⟨0⟩ ⟨[(⟨1⟩, ⟨2⟩)]⟩ := by decide
  obtain ⟨⟨n, d, hmem, hlater⟩, -⟩ :=
    detect_sound hs hc hboard hdetect hbefore (of_decide_eq_true hafter) hnot
  exact ⟨s, rack', n, d, hs, hcompacted, hdetect, of_decide_eq_true hafter, hmem, hlater⟩

/-- Sixty-four octets, each sent in a millisecond of its own, then the second and the first sent again, then a
new one, for which the two are merged.  The second is SACKed. -/
def mergedRun : List (Rack.Call SeqNumber) :=
  eachSent 64 ++
    [.onAck 70 .new ⟨0⟩ ⟨0⟩ [(⟨2⟩, ⟨3⟩)], .record ⟨0⟩ ⟨1⟩ ⟨2⟩ 71, .record ⟨0⟩ ⟨0⟩ ⟨1⟩ 71,
      .record ⟨0⟩ ⟨64⟩ ⟨65⟩ 100, .onAck 200 ⟨[(⟨2⟩, ⟨3⟩)]⟩ ⟨0⟩ ⟨0⟩ [(⟨1⟩, ⟨2⟩)]]

/-- The octet that was sent last of all but the new one is deemed lost by the delivery of one that was sent
before it. -/
theorem detect_unsound_when_merged :
    ∃ s rack', Reaches ⟨0⟩ s ∧ s.rack.detect ⟨[(⟨1⟩, ⟨3⟩)]⟩ 1000 none = some (true, rack') ∧
      ¬ Logged.LostAt ⟨0⟩ s.rack.log 0 ∧ Logged.LostAt ⟨0⟩ rack'.log 0 ∧
      ((s.history.octet 0).number, 0) ∉ s.delivered ∧
      ¬ ∃ n d, (n, d) ∈ s.delivered ∧
        ((s.history.octet 0).number < n ∨ (s.history.octet 0).number = n ∧ 0 < d) := by
  have hstart : Reaches ⟨0⟩ (start ⟨0⟩) := .start rfl
  have hrun : (Transition.execute (step ⟨0⟩) (fun _ call => call.Within ⟨0⟩) (start ⟨0⟩) mergedRun).map
      (fun s => (decide (Logged.LostAt ⟨0⟩ s.rack.log 0),
        (s.rack.detect ⟨[(⟨1⟩, ⟨3⟩)]⟩ 1000 none).map fun r => (r.1, decide (Logged.LostAt ⟨0⟩ r.2.log 0)),
        (s.history.octet 0).number, s.delivered)) =
      some (false, some (true, true), 66, [(3, 2), (65, 1)]) := by decide +kernel
  obtain ⟨s, hs, hview⟩ := hstart.observe hrun
  simp only [Prod.mk.injEq, decide_eq_false_iff_not, Option.map_eq_some_iff] at hview
  obtain ⟨hbefore, ⟨⟨newlyLost, rack'⟩, hdetect, rfl, hafter⟩, hnumber, hdelivered⟩ := hview
  refine ⟨s, rack', hs, hdetect, hbefore, of_decide_eq_true hafter, ?_, ?_⟩
  · rw [hnumber, hdelivered]
    decide
  · rintro ⟨n, d, hmem, hlater⟩
    rw [hnumber] at hlater
    rw [hdelivered] at hmem
    simp only [List.mem_cons, Prod.mk.injEq, List.not_mem_nil, or_false] at hmem
    omega

end Racked

end SmolNet
