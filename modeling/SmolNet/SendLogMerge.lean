import SmolNet.SendLogRuns

/-!
# What merging ranges loses

A log that is full merges neighbours until its ranges fit.  What is then said of an octet is coarser than what
was said before, always to the safe side: more counts as in flight, less as lost, and no send gets older.
-/

namespace SmolNet

open Serial Intervals

/-! ## The loop of `replace` -/

/-- The loop as the source has it; `none` if it has not ended after `fuel` rounds. -/
def replaceLoop {α : Type} : ℕ → List (Sent α) → Option (List (Sent α))
  | 0, _ => none
  | fuel + 1, built =>
      if logSize < built.length then replaceLoop fuel (fuseAt (closest built) built) else some built

theorem replaceLoop_eq {α : Type} {fuel : ℕ} {built : List (Sent α)} (hfuel : built.length - logSize < fuel) :
    replaceLoop fuel built = some (compact built) := by
  have hpos : 1 < logSize := by decide
  induction fuel generalizing built with
  | zero => omega
  | succ fuel ih =>
      unfold replaceLoop
      split
      · rename_i hlong
        have hlength := length_fuseAt (closest_lt (by omega : 2 ≤ built.length))
        rw [ih (by omega), compact, compact, hlength]
        have hrounds : built.length - logSize = built.length - 1 - logSize + 1 := by omega
        rw [hrounds, compactBy]
      · rename_i hfits
        rw [compact_of_le (by omega)]

/-! ## Coarser marks -/

/-- How often `pipe` counts an octet of a range. -/
def Mark.copies (m : Mark) : ℕ := if m.lost then 0 else if m.doubled then 2 else 1

/-- What is said after merging, against what was said before. -/
structure Mark.Coarsens (before after : Mark) : Prop where
  lost : after.lost = true → before.lost = true
  doubled : before.doubled = true → after.doubled = true
  retransmitted : before.retransmitted = true → after.retransmitted = true
  time : before.time ≤ after.time

theorem Mark.Coarsens.refl (m : Mark) : m.Coarsens m := ⟨id, id, id, le_rfl⟩

theorem Mark.Coarsens.trans {a b c : Mark} (hab : a.Coarsens b) (hbc : b.Coarsens c) : a.Coarsens c where
  lost := fun h => hab.lost (hbc.lost h)
  doubled := fun h => hbc.doubled (hab.doubled h)
  retransmitted := fun h => hbc.retransmitted (hab.retransmitted h)
  time := le_trans hab.time hbc.time

theorem Mark.Coarsens.copies_le {a b : Mark} (h : a.Coarsens b) : a.copies ≤ b.copies := by
  have hlost := h.lost
  have hdoubled := h.doubled
  unfold Mark.copies
  split
  · exact Nat.zero_le _
  · rename_i hkept
    rw [if_neg fun hb => hkept (hlost hb)]
    split
    · rename_i htwice
      rw [if_pos (hdoubled htwice)]
    · split <;> decide

theorem coarsens_fuse_left (a b : Sent ℕ) : a.mark.Coarsens (a.fuse b).mark where
  lost := fun h => (Bool.and_eq_true_iff.1 h).1
  doubled := fun h => Bool.or_eq_true_iff.2 (.inl h)
  retransmitted := fun h => Bool.or_eq_true_iff.2 (.inl h)
  time := le_max_left _ _

theorem coarsens_fuse_right (a b : Sent ℕ) : b.mark.Coarsens (a.fuse b).mark where
  lost := fun h => (Bool.and_eq_true_iff.1 h).2
  doubled := fun h => Bool.or_eq_true_iff.2 (.inr h)
  retransmitted := fun h => Bool.or_eq_true_iff.2 (.inr h)
  time := le_max_right _ _

/-- The octet was marked before, and what is said of it now is coarser. -/
def CoarserThan (start : ℕ) (ranges : List (Sent ℕ)) (o : ℕ) (m : Mark) : Prop :=
  ∃ m', Marked start ranges o m' ∧ m'.Coarsens m

theorem fuses_coarserThan (start : ℕ) (ranges : List (Sent ℕ)) (a b : Sent ℕ) :
    Fuses (CoarserThan start ranges) a b := by
  rintro o o' ⟨m, hm, ha⟩ ⟨m', hm', hb⟩
  exact ⟨⟨m, hm, ha.trans (coarsens_fuse_left a b)⟩, ⟨m', hm', hb.trans (coarsens_fuse_right a b)⟩⟩

namespace SendLog

/-! ## A log before and after merging -/

section Merge

variable {P : ℕ → Mark → Prop} {log : SendLog ℕ} {built : List (Sent ℕ)}

/-- The log with the ranges as they are built. -/
def holding {α : Type} (log : SendLog α) (built : List (Sent α)) : SendLog α := { log with ranges := built }

theorem says_replace (h : (log.holding built).Says P) :
    (log.replace built).Says (CoarserThan log.start built) ∧ (log.replace built).high = (log.holding built).high := by
  have hmarked : Spans (CoarserThan log.start built) log.start built :=
    Spans.mono (Spans.marked h) fun o m _ hm => ⟨m, hm, .refl m⟩
  exact Says.replace hmarked fun _ _ => fuses_coarserThan log.start built _ _

/-- The same octets are held, each with a coarser mark. -/
theorem marked_replace (h : (log.holding built).Says P) (o : ℕ) :
    (∀ m', Marked log.start (log.replace built).ranges o m' → CoarserThan log.start built o m') ∧
      ∀ m, Marked log.start built o m →
        ∃ m', Marked log.start (log.replace built).ranges o m' ∧ m.Coarsens m' := by
  obtain ⟨hspans, hhigh⟩ := says_replace h
  refine ⟨fun m' hm' => hspans.of_marked hm', fun m hm => ?_⟩
  obtain ⟨hle, hlt⟩ := Spans.bounds_of_marked h hm
  have hlt' : o < highFrom log.start (log.replace built).ranges := by
    have hsame : highFrom log.start (log.replace built).ranges = highFrom log.start built := hhigh
    rw [hsame]
    exact hlt
  obtain ⟨m', hm'⟩ := hspans.exists_marked hle hlt'
  obtain ⟨m'', hm'', hcoarsens⟩ := hspans.of_marked hm'
  obtain rfl := Spans.marked_unique h hm hm''
  exact ⟨m', hm', hcoarsens⟩

/-- How often an octet counts in `pipe`. -/
def copiesOf : ℕ → List (Sent ℕ) → ℕ → ℕ
  | _, [], _ => 1
  | start, sent :: rest, o => if start ≤ o ∧ o < sent.stop then sent.mark.copies else copiesOf sent.stop rest o

theorem copiesOf_of_marked {start o : ℕ} {ranges : List (Sent ℕ)} {m : Mark} (h : Spans P start ranges)
    (hm : Marked start ranges o m) : copiesOf start ranges o = m.copies := by
  induction ranges generalizing start with
  | nil => exact hm.elim
  | cons sent rest ih =>
      unfold copiesOf
      rcases hm with ⟨hle, hlt, rfl⟩ | hm
      · rw [if_pos ⟨hle, hlt⟩]
      · have hbounds := (h.2.2.bounds_of_marked hm).1
        rw [if_neg (by omega)]
        exact ih h.2.2 hm

theorem copiesOf_of_outside {start o : ℕ} {ranges : List (Sent ℕ)} (h : Spans P start ranges)
    (ho : ¬ (start ≤ o ∧ o < highFrom start ranges)) : copiesOf start ranges o = 1 := by
  induction ranges generalizing start with
  | nil => rfl
  | cons sent rest ih =>
      obtain ⟨hlt, -, hrest⟩ := h
      have hhigh := hrest.le_highFrom
      simp only [highFrom] at ho
      unfold copiesOf
      rw [if_neg (by omega)]
      exact ih hrest (by omega)

theorem pipe_eq_copiesOf (h : log.Says P) {board : Scoreboard ℕ} (hboard : Ascending board.ranges) (una high : ℕ) :
    log.pipe board una high =
      some (∑ o ∈ Finset.Ico una high, weight board (copiesOf log.start log.ranges) o) := by
  refine pipe_spec hboard ?_ ?_
  · exact Spans.mono (Spans.marked h) fun o m _ hm => copiesOf_of_marked h hm
  · exact fun o ho => copiesOf_of_outside h ho

/-- Every octet counts at least as often as before. -/
theorem copiesOf_le (h : (log.holding built).Says P) (o : ℕ) :
    copiesOf log.start built o ≤ copiesOf log.start (log.replace built).ranges o := by
  obtain ⟨hspans, hhigh⟩ := says_replace h
  have hbefore : Spans P log.start built := h
  have hafter : Spans (CoarserThan log.start built) log.start (log.replace built).ranges := hspans
  by_cases ho : log.start ≤ o ∧ o < highFrom log.start built
  · obtain ⟨m, hm⟩ := hbefore.exists_marked ho.1 ho.2
    obtain ⟨m', hm', hcoarsens⟩ := (marked_replace h o).2 m hm
    rw [copiesOf_of_marked hbefore hm, copiesOf_of_marked hafter hm']
    exact hcoarsens.copies_le
  · have hsame : highFrom log.start (log.replace built).ranges = highFrom log.start built := hhigh
    rw [copiesOf_of_outside hbefore ho, copiesOf_of_outside hafter (hsame ▸ ho)]

theorem pipe_replace_le (h : (log.holding built).Says P) {board : Scoreboard ℕ} (hboard : Ascending board.ranges)
    (una high : ℕ) :
    ∃ p p', (log.holding built).pipe board una high = some p ∧ (log.replace built).pipe board una high = some p' ∧
      p ≤ p' := by
  refine ⟨_, _, pipe_eq_copiesOf h hboard una high, pipe_eq_copiesOf (says_replace h).1 hboard una high, ?_⟩
  refine Finset.sum_le_sum fun o _ => ?_
  unfold weight
  split
  · exact le_rfl
  · exact copiesOf_le h o

theorem firstLost_replace (h : (log.holding built).Says P) {board : Scoreboard ℕ} (hboard : Ascending board.ranges)
    {high : ℕ} {run : ℕ × ℕ} (hrun : (log.replace built).firstLost board high = some run) {o : ℕ}
    (hle : run.1 ≤ o) (hlt : o < run.2) : ∃ m, Marked log.start built o m ∧ m.lost = true := by
  have hfirst : FirstRun _ ((log.replace built).firstLost board high) :=
    firstLostLoop_spec hboard (says_replace h).1
  rw [hrun] at hfirst
  obtain ⟨⟨m', hm', hlost⟩, -⟩ := hfirst.2.1 o hle hlt
  obtain ⟨m, hm, hcoarsens⟩ := (marked_replace h o).1 m' hm'
  exact ⟨m, hm, hcoarsens.lost hlost⟩

end Merge

/-! ## Merging within one window -/

/-- The ranges follow one another from `start` on, and none is empty. -/
def Follow : ℕ → List (Sent ℕ) → Prop
  | _, [] => True
  | start, sent :: rest => start < sent.stop ∧ Follow sent.stop rest

def decidableFollow : (start : ℕ) → (ranges : List (Sent ℕ)) → Decidable (Follow start ranges)
  | _, [] => inferInstanceAs (Decidable True)
  | start, sent :: rest =>
      have := decidableFollow sent.stop rest
      inferInstanceAs (Decidable (start < sent.stop ∧ Follow sent.stop rest))

instance (start : ℕ) (ranges : List (Sent ℕ)) : Decidable (Follow start ranges) := decidableFollow start ranges

theorem follow_iff_spans {start : ℕ} {ranges : List (Sent ℕ)} :
    Follow start ranges ↔ Spans (fun _ _ => True) start ranges := by
  induction ranges generalizing start with
  | nil => exact Iff.rfl
  | cons sent rest ih =>
      rw [spans_cons, Follow, ih]
      simp

/-- Ranges of numbers of the window that follow one another from `start` on. -/
structure Contiguous (base start : SeqNumber) (ranges : List (Sent SeqNumber)) : Prop where
  within : base.Within start
  stops : StopsIn base.Within ranges
  follow : Follow (base.offset start) (ranges.map (Sent.map base.offset))

/-- What the log says of an octet of the window. -/
def MarkedAt (base : SeqNumber) (log : SendLog SeqNumber) (o : ℕ) (m : Mark) : Prop :=
  Marked (log.map base.offset).start (log.map base.offset).ranges o m

section Window

variable {base : SeqNumber} {log : SendLog SeqNumber} {built : List (Sent SeqNumber)}

theorem Contiguous.says (h : Contiguous base log.start built) :
    ((log.map base.offset).holding (built.map (Sent.map base.offset))).Says fun _ _ => True :=
  follow_iff_spans.1 h.follow

theorem Contiguous.allIn (h : Contiguous base log.start built) : AllIn base.Within (log.holding built) :=
  ⟨h.within, h.stops⟩

theorem Contiguous.allIn_replace (h : Contiguous base log.start built) : AllIn base.Within (log.replace built) :=
  ⟨h.within, h.stops.compact⟩

/-- Merging terminates with ranges that fit and hold the same octets.  No octet counts less in `pipe`, none is
newly lost, none that was retransmitted is no longer marked so, and none has an earlier time. -/
theorem replace_errs_high (h : Contiguous base log.start built) {board : Scoreboard SeqNumber}
    {una high : SeqNumber} (hboard : Scoreboard.AllIn base.Within board.ranges)
    (hascending : Ascending (board.map base.offset).ranges) (huna : base.Within una) (hhigh : base.Within high) :
    (∀ fuel, built.length - logSize < fuel → replaceLoop fuel built = some (log.replace built).ranges) ∧
    (log.replace built).ranges.length ≤ logSize ∧
    Contiguous base (log.replace built).start (log.replace built).ranges ∧
    (∀ o, (∃ m, MarkedAt base (log.replace built) o m) ↔ ∃ m, MarkedAt base (log.holding built) o m) ∧
    (∃ p p', (log.holding built).pipe board una high = some p ∧ (log.replace built).pipe board una high = some p' ∧
      p ≤ p') ∧
    (∀ o, Logged.LostAt base (log.replace built) o → Logged.LostAt base (log.holding built) o) ∧
    (∀ run, (log.replace built).firstLost board high = some run →
      ∀ o, base.offset run.1 ≤ o → o < base.offset run.2 → Logged.LostAt base (log.holding built) o) ∧
    ∀ o m, MarkedAt base (log.holding built) o m → ∃ m', MarkedAt base (log.replace built) o m' ∧
      (m.retransmitted = true → m'.retransmitted = true) ∧ m.time ≤ m'.time := by
  have hmap : (log.map base.offset).replace (built.map (Sent.map base.offset)) =
      (log.replace built).map base.offset := replace_map log built
  have hmarked := marked_replace h.says
  rw [hmap] at hmarked
  obtain ⟨hspans, -⟩ := says_replace h.says
  rw [hmap] at hspans
  refine ⟨fun fuel hfuel => replaceLoop_eq hfuel, length_compact_le built, ?_, ?_, ?_, ?_, ?_, ?_⟩
  · exact ⟨h.within, h.stops.compact, follow_iff_spans.2 (hspans.mono fun _ _ _ _ => trivial)⟩
  · intro o
    constructor
    · rintro ⟨m', hm'⟩
      obtain ⟨m, hm, -⟩ := (hmarked o).1 m' hm'
      exact ⟨m, hm⟩
    · rintro ⟨m, hm⟩
      obtain ⟨m', hm', -⟩ := (hmarked o).2 m hm
      exact ⟨m', hm'⟩
  · obtain ⟨p, p', hp, hp', hle⟩ := pipe_replace_le h.says hascending (base.offset una) (base.offset high)
    rw [hmap] at hp'
    refine ⟨p, p', ?_, ?_, hle⟩
    · rw [← pipe_map base.embeds h.allIn hboard huna hhigh]
      exact hp
    · rw [← pipe_map base.embeds h.allIn_replace hboard huna hhigh]
      exact hp'
  · rintro o ⟨m', hm', hlost⟩
    obtain ⟨m, hm, hcoarsens⟩ := (hmarked o).1 m' hm'
    exact ⟨m, hm, hcoarsens.lost hlost⟩
  · intro run hrun o hle hlt
    have hrun' := firstLost_map base.embeds h.allIn_replace hboard hhigh
    rw [hrun, ← hmap] at hrun'
    exact firstLost_replace h.says hascending hrun' hle hlt
  · intro o m hm
    obtain ⟨m', hm', hcoarsens⟩ := (hmarked o).2 m hm
    exact ⟨m', hm', hcoarsens.retransmitted, hcoarsens.time⟩

/-- Ranges of one octet each, one more than fit, across the end of the sequence space; the last two are lost. -/
def oneTooMany : List (Sent SeqNumber) :=
  (List.range 65).map fun i : ℕ =>
    ⟨⟨0xffffffe0 + .ofNat 32 (i + 1)⟩, Int.ofNat i, false, decide (63 ≤ i), false, i + 1, i + 1⟩

/-- The first two ranges are merged. -/
theorem replace_errs_high_one_too_many :
    oneTooMany.length = 65 ∧ ((new ⟨0xffffffe0⟩).replace oneTooMany).ranges.length ≤ 64 ∧
      ∃ p p', ((new ⟨0xffffffe0⟩).holding oneTooMany).pipe .new ⟨0xffffffe0⟩ ⟨33⟩ = some p ∧
        ((new ⟨0xffffffe0⟩).replace oneTooMany).pipe .new ⟨0xffffffe0⟩ ⟨33⟩ = some p' ∧ p ≤ p' := by
  have hcontiguous : Contiguous ⟨0xffffffe0⟩ (new ⟨0xffffffe0⟩).start oneTooMany :=
    ⟨by decide, by unfold StopsIn; decide +kernel, by decide +kernel⟩
  have hboard : Scoreboard.AllIn (SeqNumber.Within ⟨0xffffffe0⟩) (.new : Scoreboard SeqNumber).ranges :=
    fun _ hp => by cases hp
  have huna : SeqNumber.Within ⟨0xffffffe0⟩ ⟨0xffffffe0⟩ := by decide
  have hhigh : SeqNumber.Within ⟨0xffffffe0⟩ ⟨33⟩ := by decide
  obtain ⟨-, hlength, -, -, hpipe, -⟩ := replace_errs_high hcontiguous hboard (by decide) huna hhigh
  exact ⟨by decide, hlength, hpipe⟩

end Window

end SendLog

end SmolNet
