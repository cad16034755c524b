import SmolNet.RackSteps
import Mathlib.Algebra.BigOperators.Intervals

/-!
# What is in flight, and what is lost

RFC 6675's `pipe` counts the octets in flight; the first run of lost octets is what is sent again next.  Both
are questions about each octet: whether the board has it, and what the log says of it.
-/

namespace SmolNet.SendLog

open Serial Intervals

/-! ## Pipe -/

/-- The octets of `[una, high)` from `s` up to `t`. -/
def clip (una high s t : ℕ) : Finset ℕ := (Finset.Ico una high).filter fun o => s ≤ o ∧ o < t

/-- How often an octet counts, unless it is recorded on the board. -/
def weight (board : Scoreboard ℕ) (copies : ℕ → ℕ) (o : ℕ) : ℕ := if Covers board.ranges o then 0 else copies o

section Pipe

variable {board : Scoreboard ℕ} {una high s t u : ℕ} {copies' : ℕ → ℕ}

theorem mem_clip {o : ℕ} : o ∈ clip una high s t ↔ (una ≤ o ∧ o < high) ∧ s ≤ o ∧ o < t := by
  rw [clip, Finset.mem_filter, Finset.mem_Ico]

theorem clip_eq_Ico : clip una high s t = Finset.Ico (Max.max s una) (Min.min t high) := by
  ext o
  rw [mem_clip, Finset.mem_Ico]
  omega

variable (una high) in
theorem sum_clip_add (f : ℕ → ℕ) (hst : s ≤ t) (htu : t ≤ u) :
    ∑ o ∈ clip una high s t, f o + ∑ o ∈ clip una high t u, f o = ∑ o ∈ clip una high s u, f o := by
  have hdisjoint : Disjoint (clip una high s t) (clip una high t u) := by
    rw [Finset.disjoint_left]
    intro o ho ho'
    rw [mem_clip] at ho ho'
    omega
  have hunion : clip una high s u = clip una high s t ∪ clip una high t u := by
    ext o
    rw [Finset.mem_union, mem_clip, mem_clip, mem_clip]
    omega
  rw [hunion, Finset.sum_union hdisjoint]

theorem unsacked_spec (hboard : Ascending board.ranges) :
    unsacked board una high s t = some (∑ o ∈ clip una high s t, weight board (fun _ => 1) o) := by
  have hsum : ∑ o ∈ clip una high s t, weight board (fun _ => 1) o =
      ((clip una high s t).filter fun o => ¬ Covers board.ranges o).card := by
    rw [Finset.card_filter]
    refine Finset.sum_congr rfl fun o _ => ?_
    unfold weight
    split <;> simp_all
  have hsplit : ((clip una high s t).filter (Covers board.ranges)).card +
      ((clip una high s t).filter fun o => ¬ Covers board.ranges o).card = (clip una high s t).card :=
    Finset.card_filter_add_card_filter_not _
  rw [hsum]
  rw [clip_eq_Ico, Nat.card_Ico] at hsplit
  rw [clip_eq_Ico]
  unfold unsacked
  simp only [max_nat, min_nat, lt_nat, decide_eq_true_eq]
  split
  · rename_i hlt
    rw [distance_nat (Nat.le_of_lt hlt), Scoreboard.sackedBetween, Scoreboard.sackedIn_spec hboard]
    unfold count
    simp only [Option.bind_eq_bind, Option.bind_some]
    rw [if_pos (by omega)]
    exact congrArg some (by omega)
  · rename_i hge
    rw [Finset.Ico_eq_empty hge]
    rfl

variable (una high) in
theorem pipeLoop_spec (hboard : Ascending board.ranges) {ranges : List (Sent ℕ)}
    (h : Spans (fun o m => copies' o = if m.lost then 0 else if m.doubled then 2 else 1) s ranges) :
    pipeLoop board una high s ranges =
      some (∑ o ∈ clip una high s (highFrom s ranges), weight board copies' o) := by
  induction ranges generalizing s with
  | nil =>
      have hempty : clip una high s s = ∅ := by
        ext o
        rw [mem_clip]
        simp only [Finset.notMem_empty, iff_false]
        omega
      simp [pipeLoop, highFrom, hempty]
  | cons sent rest ih =>
      obtain ⟨hlt, hcopies, hrest⟩ := h
      have hhere : copies sent * ∑ o ∈ clip una high s sent.stop, weight board (fun _ => 1) o =
          ∑ o ∈ clip una high s sent.stop, weight board copies' o := by
        rw [Finset.mul_sum]
        refine Finset.sum_congr rfl fun o ho => ?_
        have hin := (mem_clip.1 ho).2
        have hsame : copies' o = copies sent := hcopies o hin.1 hin.2
        unfold weight
        split
        · rfl
        · rw [hsame, Nat.mul_one]
      have hsum := sum_clip_add una high (weight board copies') (Nat.le_of_lt hlt)
        hrest.le_highFrom
      rw [pipeLoop, unsacked_spec hboard, ih hrest, highFrom, ← hsum, ← hhere]
      rfl

/-- `SetPipe`: each octet that is not recorded counts as often as the log says, or once if the log does not
hold it. -/
theorem pipe_spec {log : SendLog ℕ} (hboard : Ascending board.ranges)
    (h : log.Says fun o m => copies' o = if m.lost then 0 else if m.doubled then 2 else 1)
    (hout : ∀ o, ¬ (log.start ≤ o ∧ o < log.high) → copies' o = 1) :
    log.pipe board una high = some (∑ o ∈ Finset.Ico una high, weight board copies' o) := by
  have hle : log.start ≤ log.high := h.le_high
  have honce : ∀ s t, (∀ o, s ≤ o → o < t → ¬ (log.start ≤ o ∧ o < log.high)) →
      ∑ o ∈ clip una high s t, weight board (fun _ => 1) o = ∑ o ∈ clip una high s t, weight board copies' o := by
    intro s t hoff
    refine Finset.sum_congr rfl fun o ho => ?_
    have hin := (mem_clip.1 ho).2
    unfold weight
    rw [hout o (hoff o hin.1 hin.2)]
  have hbelow : clip una high una log.start = clip una high 0 log.start := by
    ext o
    rw [mem_clip, mem_clip]
    omega
  have habove : clip una high log.high high = clip una high log.high (Max.max log.high high) := by
    ext o
    rw [mem_clip, mem_clip]
    omega
  have hall : clip una high 0 (Max.max log.high high) = Finset.Ico una high := by
    ext o
    rw [mem_clip, Finset.mem_Ico]
    omega
  have hloop := pipeLoop_spec una high hboard h
  change pipeLoop board una high log.start log.ranges =
    some (∑ o ∈ clip una high log.start log.high, weight board copies' o) at hloop
  have hsum := sum_clip_add una high (weight board copies') (Nat.zero_le log.start) hle
  have hsum' := sum_clip_add una high (weight board copies') (Nat.zero_le log.high)
    (Nat.le_max_left log.high high)
  rw [pipe, unsacked_spec hboard, unsacked_spec hboard, hloop, honce una log.start (by omega),
    honce log.high high (by omega), hbelow, habove, ← hall, ← hsum', ← hsum]
  refine congrArg some ?_
  omega

end Pipe

/-! ## The first lost run -/

/-- The octet is below `high`, its last transmission is deemed lost, and it is not recorded. -/
def Resendable (board : Scoreboard ℕ) (high : ℕ) (lost : ℕ → Prop) (o : ℕ) : Prop :=
  lost o ∧ o < high ∧ ¬ Covers board.ranges o

/-- The result is a run of such octets that starts with the lowest of them, or there is none. -/
def FirstRun (P : ℕ → Prop) : Option Interval → Prop
  | none => ∀ o, ¬ P o
  | some p => p.1 < p.2 ∧ (∀ o, p.1 ≤ o → o < p.2 → P o) ∧ ∀ o, P o → p.1 ≤ o

theorem firstLostLoop_spec {board : Scoreboard ℕ} {high s : ℕ} {ranges : List (Sent ℕ)} {P : ℕ → Mark → Prop}
    (hboard : Ascending board.ranges) (h : Spans P s ranges) :
    FirstRun (Resendable board high fun o => ∃ m, Marked s ranges o m ∧ m.lost = true)
      (firstLostLoop board high s ranges) := by
  induction ranges generalizing s with
  | nil =>
      rintro o ⟨⟨m, hm, -⟩, -⟩
      exact hm
  | cons sent rest ih =>
      obtain ⟨hlt, -, hrest⟩ := h
      have hlater := ih hrest
      have hbounds : ∀ o m, Marked sent.stop rest o m → sent.stop ≤ o := fun o m hm =>
        (hrest.bounds_of_marked hm).1
      -- if no octet of this range is to be sent again, the rest decides
      have hskip : (∀ o, s ≤ o → o < sent.stop → sent.lost = true → o < high → Covers board.ranges o) →
          FirstRun (Resendable board high fun o => ∃ m, Marked s (sent :: rest) o m ∧ m.lost = true)
            (firstLostLoop board high sent.stop rest) := by
        intro hnone
        have hiff : ∀ o, Resendable board high (fun o => ∃ m, Marked s (sent :: rest) o m ∧ m.lost = true) o ↔
            Resendable board high (fun o => ∃ m, Marked sent.stop rest o m ∧ m.lost = true) o := by
          intro o
          constructor
          · rintro ⟨⟨m, ⟨ho, ho', rfl⟩ | hm, hlost⟩, hhigh, hcov⟩
            · exact absurd (hnone o ho ho' hlost hhigh) hcov
            · exact ⟨⟨m, hm, hlost⟩, hhigh, hcov⟩
          · rintro ⟨⟨m, hm, hlost⟩, hrest⟩
            exact ⟨⟨m, .inr hm, hlost⟩, hrest⟩
        rw [funext fun o => propext (hiff o)]
        exact hlater
      unfold firstLostLoop
      split
      · rename_i hlost
        obtain ⟨hsome, hnone⟩ := Scoreboard.runLoop_spec hboard s (Min.min sent.stop high)
        rw [min_nat, Scoreboard.unsackedRun]
        cases hrun : Scoreboard.runLoop (Min.min sent.stop high) board.ranges s with
        | none => exact hskip fun o ho ho' _ hhigh => hnone hrun o ho (by omega)
        | some p =>
            obtain ⟨hle, hne, hstop, hbelow, hinside, -⟩ := hsome p hrun
            refine ⟨hne, fun o ho ho' => ?_, ?_⟩
            · exact ⟨⟨sent.mark, .inl ⟨by omega, by omega, rfl⟩, hlost⟩, by omega, hinside o ho ho'⟩
            · rintro o ⟨⟨m, ⟨ho, ho', -⟩ | hm, -⟩, -, hcov⟩
              · by_contra hlow
                exact hcov (hbelow o ho (by omega))
              · have := hbounds o m hm
                omega
      · rename_i hlost
        exact hskip fun o _ _ hlost' => absurd hlost' hlost

/-! ## The same code on other numbers -/

section Embedding

variable {α β : Type} {W : α → Prop} {e : α → β} [Ord α] [Distance α] [Ord β] [Distance β] (h : Embeds W e)
  {board : Scoreboard α} {una high : α}

include h

theorem unsacked_map {s t : α} (hboard : Scoreboard.AllIn W board.ranges) (huna : W una) (hhigh : W high)
    (hs : W s) (ht : W t) :
    unsacked (board.map e) (e una) (e high) (e s) (e t) = unsacked board una high s t := by
  have hmax : W (max s una) := max_cases hs huna
  have hmin : W (min t high) := min_cases ht hhigh
  have hsacked : (board.map e).sackedBetween (e (max s una)) (e (min t high)) =
      board.sackedBetween (max s una) (min t high) := Scoreboard.sackedIn_map h hboard hmax hmin
  unfold unsacked
  simp only [h.max hs huna, h.min ht hhigh, h.lt hmax hmin, h.distance hmin hmax, hsacked]

theorem pipeLoop_map {s : α} {ranges : List (Sent α)} (hboard : Scoreboard.AllIn W board.ranges) (huna : W una)
    (hhigh : W high) (hs : W s) (hstops : StopsIn W ranges) :
    pipeLoop (board.map e) (e una) (e high) (e s) (ranges.map (Sent.map e)) = pipeLoop board una high s ranges := by
  induction ranges generalizing s with
  | nil => rfl
  | cons sent rest ih =>
      obtain ⟨hsent, hrest⟩ := stopsIn_cons.1 hstops
      have hstop : (sent.map e).stop = e sent.stop := rfl
      simp only [List.map_cons, pipeLoop, hstop, unsacked_map h hboard huna hhigh hs hsent, ih hsent hrest]
      rfl

theorem pipe_map {log : SendLog α} (hlog : AllIn W log) (hboard : Scoreboard.AllIn W board.ranges) (huna : W una)
    (hhigh : W high) : (log.map e).pipe (board.map e) (e una) (e high) = log.pipe board una high := by
  have hloop : pipeLoop (board.map e) (e una) (e high) (log.map e).start (log.map e).ranges =
      pipeLoop board una high log.start log.ranges := pipeLoop_map h hboard huna hhigh hlog.start hlog.stops
  have hstart : (log.map e).start = e log.start := rfl
  unfold pipe
  rw [hloop, high_map, hstart, unsacked_map h hboard huna hhigh huna hlog.start,
    unsacked_map h hboard huna hhigh hlog.high hhigh]

theorem firstLostLoop_map {s : α} {ranges : List (Sent α)} (hboard : Scoreboard.AllIn W board.ranges)
    (hhigh : W high) (hs : W s) (hstops : StopsIn W ranges) :
    firstLostLoop (board.map e) (e high) (e s) (ranges.map (Sent.map e)) =
      (firstLostLoop board high s ranges).map (Scoreboard.both e) := by
  induction ranges generalizing s with
  | nil => rfl
  | cons sent rest ih =>
      obtain ⟨hsent, hrest⟩ := stopsIn_cons.1 hstops
      have hstop : (sent.map e).stop = e sent.stop := rfl
      have hlost : (sent.map e).lost = sent.lost := rfl
      have hrun : (board.map e).unsackedRun (e s) (e (min sent.stop high)) =
          (board.unsackedRun s (min sent.stop high)).map (Scoreboard.both e) :=
        Scoreboard.runLoop_map h hboard hs (min_cases hsent hhigh)
      simp only [List.map_cons, firstLostLoop, hstop, hlost, h.min hsent hhigh, hrun, ih hsent hrest]
      split
      · cases board.unsackedRun s (min sent.stop high) <;> rfl
      · rfl

theorem firstLost_map {log : SendLog α} (hlog : AllIn W log) (hboard : Scoreboard.AllIn W board.ranges)
    (hhigh : W high) :
    (log.map e).firstLost (board.map e) (e high) = (log.firstLost board high).map (Scoreboard.both e) :=
  firstLostLoop_map h hboard hhigh hlog.start hlog.stops

end Embedding

end SmolNet.SendLog
