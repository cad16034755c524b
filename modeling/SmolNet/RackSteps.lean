import SmolNet.Rack
import SmolNet.SendLogSteps

/-!
# What loss detection does to the log's octets

Which octets RACK judges lost is a condition on an octet and what its range says about it; so are which
octets are still waited for, and what the call returns.
-/

namespace SmolNet

open Serial Intervals

/-- The octet lies in a range that says `m` about it. -/
def Marked : ℕ → List (Sent ℕ) → ℕ → Mark → Prop
  | _, [], _, _ => False
  | start, sent :: rest, o, m => (start ≤ o ∧ o < sent.stop ∧ m = sent.mark) ∨ Marked sent.stop rest o m

section Marked

variable {P : ℕ → Mark → Prop} {start : ℕ} {ranges : List (Sent ℕ)} {o : ℕ} {m : Mark}

theorem Spans.of_marked (h : Spans P start ranges) (hm : Marked start ranges o m) : P o m := by
  induction ranges generalizing start with
  | nil => exact hm.elim
  | cons sent rest ih =>
      rcases hm with ⟨hle, hlt, rfl⟩ | hm
      · exact h.2.1 o hle hlt
      · exact ih h.2.2 hm

theorem Spans.marked (h : Spans P start ranges) : Spans (Marked start ranges) start ranges := by
  induction ranges generalizing start with
  | nil => trivial
  | cons sent rest ih =>
      obtain ⟨hlt, -, hrest⟩ := h
      exact ⟨hlt, fun o hle ho => .inl ⟨hle, ho, rfl⟩, (ih hrest).mono fun o m _ hm => .inr hm⟩

/-- Every octet of the log has a mark. -/
theorem Spans.exists_marked (h : Spans P start ranges) (hle : start ≤ o) (hlt : o < highFrom start ranges) :
    ∃ m, Marked start ranges o m := by
  induction ranges generalizing start with
  | nil =>
      simp only [highFrom] at hlt
      omega
  | cons sent rest ih =>
      by_cases hin : o < sent.stop
      · exact ⟨sent.mark, .inl ⟨hle, hin, rfl⟩⟩
      · obtain ⟨m, hm⟩ := ih h.2.2 (by omega) hlt
        exact ⟨m, .inr hm⟩

theorem Spans.bounds_of_marked (h : Spans P start ranges) (hm : Marked start ranges o m) :
    start ≤ o ∧ o < highFrom start ranges := by
  induction ranges generalizing start with
  | nil => exact hm.elim
  | cons sent rest ih =>
      have hlt := h.1
      have hle := h.2.2.le_highFrom
      simp only [highFrom]
      rcases hm with ⟨ho, ho', -⟩ | hm
      · omega
      · have := ih h.2.2 hm
        omega

theorem Spans.marked_unique (h : Spans P start ranges) {m' : Mark} (hm : Marked start ranges o m)
    (hm' : Marked start ranges o m') : m = m' := by
  induction ranges generalizing start with
  | nil => exact hm.elim
  | cons sent rest ih =>
      rcases hm with ⟨-, hlt, rfl⟩ | hm <;> rcases hm' with ⟨-, hlt', rfl⟩ | hm'
      · rfl
      · have := (h.2.2.bounds_of_marked hm').1
        omega
      · have := (h.2.2.bounds_of_marked hm).1
        omega
      · exact ih h.2.2 hm hm'

end Marked

/-! ## The least of some instants -/

/-- The result is the least of the set, or the set is empty. -/
def LeastOf {α : Type} [LE α] (S : Set α) : Option α → Prop
  | none => ∀ t, t ∉ S
  | some t => t ∈ S ∧ ∀ u ∈ S, t ≤ u

theorem LeastOf.earlier {S T : Set Instant} {a b : Option Instant} (ha : LeastOf S a) (hb : LeastOf T b) :
    LeastOf (S ∪ T) (earlier a b) := by
  cases a with
  | none =>
      cases b with
      | none =>
          rintro t (ht | ht)
          · exact ha t ht
          · exact hb t ht
      | some b =>
          refine ⟨.inr hb.1, ?_⟩
          rintro u (hu | hu)
          · exact absurd hu (ha u)
          · exact hb.2 u hu
  | some a =>
      cases b with
      | none =>
          refine ⟨.inl ha.1, ?_⟩
          rintro u (hu | hu)
          · exact ha.2 u hu
          · exact absurd hu (hb u)
      | some b =>
          refine ⟨?_, ?_⟩
          · rcases min_choice a b with hmin | hmin
            · rw [hmin]
              exact .inl ha.1
            · rw [hmin]
              exact .inr hb.1
          · rintro u (hu | hu)
            · exact (min_le_left a b).trans (ha.2 u hu)
            · exact (min_le_right a b).trans (hb.2 u hu)

namespace SendLog

/-- What a range says puts the octet before the delivered segment: sent in an earlier send, or earlier in the
same run. -/
def Before (xmit : Xmit ℕ) (o : ℕ) (m : Mark) : Prop :=
  m.last < xmit.first ∨ m.first = xmit.first ∧ m.last = xmit.last ∧ o < xmit.stop

/-- The octet is newly deemed lost. -/
def Judged (xmit : Xmit ℕ) (wait : ℕ) (now : Instant) (o : ℕ) (m : Mark) : Prop :=
  m.lost = false ∧ Before xmit o m ∧ m.time + wait ≤ now

/-- The octet will be deemed lost once its time has come. -/
def Awaited (xmit : Xmit ℕ) (wait : ℕ) (now : Instant) (o : ℕ) (m : Mark) : Prop :=
  m.lost = false ∧ Before xmit o m ∧ now < m.time + wait

theorem lt_sentBefore {xmit : Xmit ℕ} {s o : ℕ} {sent : Sent ℕ} (hle : s ≤ o) (hlt : o < sent.stop) :
    o < sentBefore xmit s sent ↔ Before xmit o sent.mark := by
  unfold sentBefore Before Sent.mark
  simp only [max_nat, min_nat]
  split
  · rename_i hlast
    exact iff_of_true hlt (.inl hlast)
  · rename_i hlast
    split
    · rename_i hrun
      constructor
      · intro ho
        exact .inr ⟨hrun.1, hrun.2, by omega⟩
      · rintro (ho | ⟨-, -, ho⟩)
        · exact absurd ho hlast
        · omega
    · rename_i hrun
      constructor
      · intro ho
        omega
      · rintro (ho | ⟨hfirst, hlast', -⟩)
        · exact absurd ho hlast
        · exact absurd ⟨hfirst, hlast'⟩ hrun

theorem sentBefore_bounds (xmit : Xmit ℕ) {s : ℕ} {sent : Sent ℕ} (hlt : s < sent.stop) :
    s ≤ sentBefore xmit s sent ∧ sentBefore xmit s sent ≤ sent.stop := by
  unfold sentBefore
  simp only [max_nat, min_nat]
  split
  · omega
  · split <;> omega

/-- Only the range that holds the end of the delivered segment is cut. -/
theorem sentBefore_cut {xmit : Xmit ℕ} {s : ℕ} {sent : Sent ℕ} (hlow : s < sentBefore xmit s sent)
    (hhigh : sentBefore xmit s sent < sent.stop) : s < xmit.stop ∧ ¬ sent.stop < xmit.stop := by
  have hcases : sentBefore xmit s sent = sent.stop ∨
      sentBefore xmit s sent = Max.max (Min.min sent.stop xmit.stop) s ∨ sentBefore xmit s sent = s := by
    unfold sentBefore
    rw [max_nat, min_nat]
    split
    · exact .inl rfl
    · split
      · exact .inr (.inl rfl)
      · exact .inr (.inr rfl)
  omega

/-- What detection does with the octets from `s` up to `stop`, and what it says. -/
structure DetectSpec (board : Scoreboard ℕ) (now : Instant) (xmit : Xmit ℕ) (wait : ℕ)
    (marked : ℕ → Mark → Prop) (s stop : ℕ) (d : Detection ℕ) : Prop where
  spans : ∀ Q : ℕ → Mark → Prop, (∀ o m, marked o m → ¬ Judged xmit wait now o m → Q o m) →
    (∀ o m, marked o m → Judged xmit wait now o m → Q o { m with lost := true, doubled := false }) →
    Spans Q s d.pieces ∧ highFrom s d.pieces = stop
  newlyLost : d.newlyLost = true ↔ ∃ o m, marked o m ∧ Judged xmit wait now o m ∧ ¬ Covers board.ranges o
  next : LeastOf {t | ∃ o m, marked o m ∧ Awaited xmit wait now o m ∧ ¬ Covers board.ranges o ∧ t = m.time + wait}
    d.next

variable {board : Scoreboard ℕ} {now : Instant} {xmit : Xmit ℕ} {wait s : ℕ} {sent : Sent ℕ}

/-- The octets of one range and what it says about them. -/
def ofRange (s : ℕ) (sent : Sent ℕ) (o : ℕ) (m : Mark) : Prop := s ≤ o ∧ o < sent.stop ∧ m = sent.mark

theorem detectSpec_kept (hlt : s < sent.stop)
    (hnone : ∀ o, s ≤ o → o < sent.stop → sent.lost = true ∨ ¬ Before xmit o sent.mark) :
    DetectSpec board now xmit wait (ofRange s sent) s sent.stop ⟨[sent], false, none⟩ := by
  have hno : ∀ o m, ofRange s sent o m → m.lost = false → ¬ Before xmit o m := by
    rintro o m ⟨hle, ho, rfl⟩ hlost hbefore
    rcases hnone o hle ho with hlost' | hnot
    · exact absurd (hlost'.symm.trans hlost) (by decide)
    · exact hnot hbefore
  refine ⟨fun Q hkept _ => ⟨spans_singleton.2 ⟨hlt, fun o hle ho => ?_⟩, rfl⟩, ?_, ?_⟩
  · exact hkept o _ ⟨hle, ho, rfl⟩ fun hj => hno o _ ⟨hle, ho, rfl⟩ hj.1 hj.2.1
  · refine iff_of_false (by simp) ?_
    rintro ⟨o, m, hm, hj, -⟩
    exact hno o m hm hj.1 hj.2.1
  · rintro t ⟨o, m, hm, hj, -, -⟩
    exact hno o m hm hj.1 hj.2.1

/-- The octets before the delivered segment have waited long enough. -/
theorem detectSpec_lost {newly : Bool} (hlt : s < sent.stop) (hlost : sent.lost = false)
    (hbefore : s < sentBefore xmit s sent) (hdue : sent.time + wait ≤ now)
    (hnewly : newly = true ↔ ∃ o, s ≤ o ∧ o < sentBefore xmit s sent ∧ ¬ Covers board.ranges o) :
    DetectSpec board now xmit wait (ofRange s sent) s sent.stop
      ⟨{ sent with stop := sentBefore xmit s sent, lost := true, doubled := false } ::
        (if lt (sentBefore xmit s sent) sent.stop then [sent] else []), newly, none⟩ := by
  obtain ⟨hge, hle⟩ := sentBefore_bounds xmit hlt
  have hjudged : ∀ o, s ≤ o → o < sentBefore xmit s sent → Judged xmit wait now o sent.mark := fun o ho ho' =>
    ⟨hlost, (lt_sentBefore ho (by omega)).1 ho', hdue⟩
  have hspared : ∀ o, sentBefore xmit s sent ≤ o → o < sent.stop → ¬ Judged xmit wait now o sent.mark := by
    intro o ho ho' hj
    have hs : s ≤ o := by omega
    have := (lt_sentBefore hs ho').2 hj.2.1
    omega
  refine ⟨?_, ?_, ?_⟩
  · intro Q hkept hmarked
    have hfirst : ∀ o, s ≤ o → o < sentBefore xmit s sent →
        Q o { sent.mark with lost := true, doubled := false } := fun o ho ho' =>
      hmarked o _ ⟨ho, by omega, rfl⟩ (hjudged o ho ho')
    rw [lt_nat]
    by_cases hrest : sentBefore xmit s sent < sent.stop
    · simp only [hrest, decide_true, if_true, Spans, highFrom]
      refine ⟨⟨hbefore, hfirst, trivial, ?_, trivial⟩, trivial⟩
      exact fun o ho ho' => hkept o _ ⟨by omega, ho', rfl⟩ (hspared o ho ho')
    · simp only [hrest, decide_false, Bool.false_eq_true, if_false, Spans, highFrom]
      exact ⟨⟨hbefore, hfirst, trivial⟩, by omega⟩
  · rw [hnewly]
    constructor
    · rintro ⟨o, ho, ho', hcov⟩
      exact ⟨o, _, ⟨ho, by omega, rfl⟩, hjudged o ho ho', hcov⟩
    · rintro ⟨o, m, ⟨ho, ho', rfl⟩, hj, hcov⟩
      exact ⟨o, ho, (lt_sentBefore ho ho').2 hj.2.1, hcov⟩
  · rintro t ⟨o, m, ⟨ho, ho', rfl⟩, hwait, -, -⟩
    exact absurd hdue (not_le.2 hwait.2.2)

/-- The octets before the delivered segment have to wait. -/
theorem detectSpec_awaited {unsacked : Prop} [Decidable unsacked] (hlt : s < sent.stop) (hlost : sent.lost = false)
    (hdue : ¬ sent.time + wait ≤ now)
    (hunsacked : unsacked ↔ ∃ o, s ≤ o ∧ o < sentBefore xmit s sent ∧ ¬ Covers board.ranges o) :
    DetectSpec board now xmit wait (ofRange s sent) s sent.stop
      ⟨[sent], false, if unsacked then some (sent.time + wait) else none⟩ := by
  obtain ⟨hge, hle⟩ := sentBefore_bounds xmit hlt
  have hspared : ∀ o, ¬ Judged xmit wait now o sent.mark := fun o hj => hdue hj.2.2
  refine ⟨fun Q hkept _ => ⟨spans_singleton.2 ⟨hlt, fun o ho ho' => ?_⟩, rfl⟩, ?_, ?_⟩
  · exact hkept o _ ⟨ho, ho', rfl⟩ (hspared o)
  · refine iff_of_false (by simp) ?_
    rintro ⟨o, m, ⟨-, -, rfl⟩, hj, -⟩
    exact hspared o hj
  · have hmem : ∀ t, (∃ o m, ofRange s sent o m ∧ Awaited xmit wait now o m ∧ ¬ Covers board.ranges o ∧
        t = m.time + wait) ↔ unsacked ∧ t = sent.time + wait := by
      intro t
      rw [hunsacked]
      constructor
      · rintro ⟨o, m, ⟨ho, ho', rfl⟩, hwait, hcov, rfl⟩
        exact ⟨⟨o, ho, (lt_sentBefore ho ho').2 hwait.2.1, hcov⟩, rfl⟩
      · rintro ⟨⟨o, ho, ho', hcov⟩, rfl⟩
        have hbefore := (lt_sentBefore ho (by omega)).1 ho'
        exact ⟨o, sent.mark, ⟨ho, by omega, rfl⟩, ⟨hlost, hbefore, not_le.1 hdue⟩, hcov, rfl⟩
    split
    · rename_i hyes
      refine ⟨(hmem _).2 ⟨hyes, rfl⟩, ?_⟩
      intro u hu
      exact le_of_eq ((hmem u).1 hu).2.symm
    · rename_i hno
      intro t ht
      exact hno ((hmem t).1 ht).1

variable (now xmit wait) in
theorem detectRange_spec (hboard : Ascending board.ranges) (hlt : s < sent.stop) :
    ∃ d, detectRange board now xmit wait s sent = some d ∧
      DetectSpec board now xmit wait (ofRange s sent) s sent.stop d ∧
      d.pieces.length + (if sent.stop < xmit.stop then 1 else 0) ≤ 1 + if s < xmit.stop then 1 else 0 := by
  obtain ⟨hge, hle⟩ := sentBefore_bounds xmit hlt
  have hcost : (if sent.stop < xmit.stop then 1 else 0) ≤ if s < xmit.stop then 1 else 0 := by
    split <;> split <;> omega
  unfold detectRange
  dsimp only
  split
  · rename_i hskip
    refine ⟨_, rfl, detectSpec_kept hlt ?_, by simp only [List.length_singleton]; omega⟩
    intro o ho ho'
    rcases hskip with hskip | hskip
    · exact .inl hskip
    · refine .inr fun hbefore => ?_
      have := (lt_sentBefore ho ho').2 hbefore
      omega
  · rename_i hgo
    push Not at hgo
    have hlost : sent.lost = false := by simpa using hgo.1
    have hbefore : s < sentBefore xmit s sent := lt_of_le_of_ne hge (Ne.symm hgo.2)
    rw [Scoreboard.sackedBetween, Scoreboard.sackedIn_spec hboard, distance_nat hge]
    simp only [Option.bind_eq_bind, Option.bind_some]
    split
    · rename_i hdue
      refine ⟨_, rfl, detectSpec_lost hlt hlost hbefore hdue ?_, ?_⟩
      · rw [decide_eq_true_eq]
        exact count_lt_iff
      · simp only [List.length_cons, lt_nat, decide_eq_true_eq]
        split
        · rename_i hcut
          have hin := sentBefore_cut hbefore hcut
          rw [if_pos hin.1, if_neg hin.2]
          simp
        · simp only [List.length_nil]
          omega
    · rename_i hdue
      exact ⟨_, rfl, detectSpec_awaited hlt hlost hdue count_lt_iff, by simp only [List.length_singleton]; omega⟩

theorem DetectSpec.append {stop high : ℕ} {marked marked' : ℕ → Mark → Prop} {here later : Detection ℕ}
    (hhere : DetectSpec board now xmit wait marked s stop here)
    (hlater : DetectSpec board now xmit wait marked' stop high later) :
    DetectSpec board now xmit wait (fun o m => marked o m ∨ marked' o m) s high
      ⟨here.pieces ++ later.pieces, here.newlyLost || later.newlyLost, earlier here.next later.next⟩ := by
  refine ⟨?_, ?_, ?_⟩
  · intro Q hkept hlost
    obtain ⟨hspans, hstop⟩ := hhere.spans Q (fun o m hm => hkept o m (.inl hm)) fun o m hm => hlost o m (.inl hm)
    obtain ⟨hspans', hhigh⟩ :=
      hlater.spans Q (fun o m hm => hkept o m (.inr hm)) fun o m hm => hlost o m (.inr hm)
    refine ⟨spans_append.2 ⟨hspans, hstop.symm ▸ hspans'⟩, ?_⟩
    rw [highFrom_append, hstop, hhigh]
  · rw [Bool.or_eq_true, hhere.newlyLost, hlater.newlyLost]
    constructor
    · rintro (⟨o, m, hm, hrest⟩ | ⟨o, m, hm, hrest⟩)
      · exact ⟨o, m, .inl hm, hrest⟩
      · exact ⟨o, m, .inr hm, hrest⟩
    · rintro ⟨o, m, hm | hm, hrest⟩
      · exact .inl ⟨o, m, hm, hrest⟩
      · exact .inr ⟨o, m, hm, hrest⟩
  · have hunion := hhere.next.earlier hlater.next
    have hset : {t | ∃ o m, (marked o m ∨ marked' o m) ∧ Awaited xmit wait now o m ∧ ¬ Covers board.ranges o ∧
        t = m.time + wait} =
        {t | ∃ o m, marked o m ∧ Awaited xmit wait now o m ∧ ¬ Covers board.ranges o ∧ t = m.time + wait} ∪
        {t | ∃ o m, marked' o m ∧ Awaited xmit wait now o m ∧ ¬ Covers board.ranges o ∧ t = m.time + wait} := by
      ext t
      constructor
      · rintro ⟨o, m, hm | hm, hrest⟩
        · exact .inl ⟨o, m, hm, hrest⟩
        · exact .inr ⟨o, m, hm, hrest⟩
      · rintro (⟨o, m, hm, hrest⟩ | ⟨o, m, hm, hrest⟩)
        · exact ⟨o, m, .inl hm, hrest⟩
        · exact ⟨o, m, .inr hm, hrest⟩
    rw [hset]
    exact hunion

variable {P Q : ℕ → Mark → Prop} {log : SendLog ℕ}

variable (now xmit wait) in
theorem detectLoop_spec {ranges : List (Sent ℕ)} (hboard : Ascending board.ranges) (h : Spans P s ranges) :
    ∃ d, detectLoop board now xmit wait s ranges = some d ∧
      DetectSpec board now xmit wait (Marked s ranges) s (highFrom s ranges) d ∧
      d.pieces.length ≤ ranges.length + if s < xmit.stop then 1 else 0 := by
  induction ranges generalizing s with
  | nil =>
      refine ⟨⟨[], false, none⟩, rfl, ⟨fun Q _ _ => ⟨trivial, rfl⟩, ?_, ?_⟩, by simp⟩
      · refine iff_of_false (by simp) ?_
        rintro ⟨o, m, hm, -⟩
        exact hm
      · rintro t ⟨o, m, hm, -⟩
        exact hm
  | cons sent rest ih =>
      obtain ⟨here, hhere, hspec, hlen⟩ :=
        detectRange_spec now xmit wait hboard h.1
      obtain ⟨later, hlater, hspec', hlen'⟩ := ih h.2.2
      refine ⟨_, ?_, hspec.append hspec', ?_⟩
      · simp only [detectLoop, hhere, hlater, Option.bind_eq_bind, Option.bind_some]
        rfl
      · simp only [List.length_append, List.length_cons]
        omega

variable (now xmit wait) in
/-- `SendLog::detect` judges each octet by what its range says. -/
theorem Says.detect (h : log.Says P) (hboard : Ascending board.ranges) :
    ∃ found, detectLoop board now xmit wait log.start log.ranges = some found ∧
      log.detect board now xmit wait = some (log.replace (build found.pieces), found.newlyLost, found.next) ∧
      (build found.pieces).length ≤ log.ranges.length + 1 ∧
      (∀ Q, JoinStable Q → (∀ o m, Marked log.start log.ranges o m → ¬ Judged xmit wait now o m → Q o m) →
        (∀ o m, Marked log.start log.ranges o m → Judged xmit wait now o m →
          Q o { m with lost := true, doubled := false }) →
        Spans Q log.start (build found.pieces) ∧ highFrom log.start (build found.pieces) = log.high) ∧
      (found.newlyLost = true ↔ ∃ o m, Marked log.start log.ranges o m ∧ Judged xmit wait now o m ∧
        ¬ Covers board.ranges o) ∧
      LeastOf {t | ∃ o m, Marked log.start log.ranges o m ∧ Awaited xmit wait now o m ∧
        ¬ Covers board.ranges o ∧ t = m.time + wait} found.next := by
  obtain ⟨found, hloop, hspec, hlen⟩ := detectLoop_spec now xmit wait hboard h
  refine ⟨found, hloop, ?_, ?_, ?_, hspec.newlyLost, hspec.next⟩
  · simp only [SendLog.detect, hloop, Option.bind_eq_bind, Option.bind_some]
    rfl
  · refine (length_build_le _).trans (hlen.trans ?_)
    split <;> omega
  · intro Q hjoin hkept hlost
    obtain ⟨hspans, hhigh⟩ := hspec.spans Q hkept hlost
    obtain ⟨hspans', hhigh'⟩ := hspans.build hjoin
    exact ⟨hspans', hhigh'.trans hhigh⟩

end SendLog

end SmolNet
