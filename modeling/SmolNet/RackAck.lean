import SmolNet.RackSteps

/-!
# What an acknowledgment tells RACK

`on_ack` walks the ranges of the log for each part of sequence space that an acknowledgment reports.  What it
gathers is a matter of octets: those that are reported, held by the log and not yet on the board.
-/

namespace SmolNet

open Serial Intervals

/-! ## The greatest of some round trips -/

/-- The result is the greatest of the set, or the set is empty. -/
def GreatestOf (S : Set ℕ) : Option ℕ → Prop
  | none => ∀ t, t ∉ S
  | some t => t ∈ S ∧ ∀ u ∈ S, u ≤ t

theorem GreatestOf.longest {S : Set ℕ} {a : Option ℕ} (h : GreatestOf S a) (r : ℕ) :
    GreatestOf (insert r S) (Delivery.longest a r) := by
  cases a with
  | none =>
      refine ⟨.inl rfl, ?_⟩
      rintro u (rfl | hu)
      · exact le_rfl
      · exact absurd hu (h u)
  | some t =>
      refine ⟨?_, ?_⟩
      · change Max.max t r ∈ insert r S
        rcases max_choice t r with hmax | hmax
        · rw [hmax]
          exact .inr h.1
        · rw [hmax]
          exact .inl rfl
      · rintro u (rfl | hu)
        · exact le_max_right t u
        · exact (h.2 u hu).trans (le_max_left t r)

theorem LeastOf.shortest {S : Set ℕ} {a : Option ℕ} (h : LeastOf S a) (r : ℕ) :
    LeastOf (insert r S) (some (a.elim r fun least => Min.min least r)) := by
  cases a with
  | none =>
      refine ⟨.inl rfl, ?_⟩
      rintro u (rfl | hu)
      · exact le_rfl
      · exact absurd hu (h u)
  | some t =>
      refine ⟨?_, ?_⟩
      · change Min.min t r ∈ insert r S
        rcases min_choice t r with hmin | hmin
        · rw [hmin]
          exact .inr h.1
        · rw [hmin]
          exact .inl rfl
      · rintro u (rfl | hu)
        · exact min_le_right t u
        · exact (min_le_left t r).trans (h.2 u hu)

/-! ## What is gathered -/

/-- How long ago the octet was last sent. -/
def Mark.rtt (now : Instant) (m : Mark) : ℕ := (now - m.time).natAbs

/-- The round trips of those octets that were sent once. -/
def samples (now : Instant) (new : ℕ → Mark → Prop) : Set ℕ :=
  {t | ∃ o m, new o m ∧ m.retransmitted = false ∧ t = m.rtt now}

/-- What has been gathered from the octets newly delivered, cumulatively and by SACK blocks. -/
structure Gathered (now : Instant) (old : Option ℕ) (acked sacked : ℕ → Mark → Prop) (d : Delivery ℕ) : Prop where
  cumulativeSample : GreatestOf (samples now acked) d.cumulativeSample
  sackSample : GreatestOf (samples now sacked) d.sackSample
  minRtt : LeastOf ({t | old = some t} ∪ samples now fun o m => acked o m ∨ sacked o m) d.minRtt
  retransmission : d.cumulativeRetransmission = true ↔ ∃ o m, acked o m ∧ m.retransmitted = true

namespace Delivery

@[simp] theorem deliver_cumulativeSample (d : Delivery ℕ) (x : Xmit ℕ) :
    (d.deliver x).cumulativeSample = d.cumulativeSample := by
  unfold deliver
  split <;> rfl

@[simp] theorem deliver_sackSample (d : Delivery ℕ) (x : Xmit ℕ) : (d.deliver x).sackSample = d.sackSample := by
  unfold deliver
  split <;> rfl

@[simp] theorem deliver_minRtt (d : Delivery ℕ) (x : Xmit ℕ) : (d.deliver x).minRtt = d.minRtt := by
  unfold deliver
  split <;> rfl

@[simp] theorem deliver_cumulativeRetransmission (d : Delivery ℕ) (x : Xmit ℕ) :
    (d.deliver x).cumulativeRetransmission = d.cumulativeRetransmission := by
  unfold deliver
  split <;> rfl

theorem deliver_latest {d : Delivery ℕ} {x latest : Xmit ℕ} (h : (d.deliver x).latest = some latest) :
    latest = x ∨ d.latest = some latest := by
  unfold deliver at h
  split at h
  · exact .inl (Option.some.inj h).symm
  · exact .inr h

end Delivery

section Gathered

variable {now : Instant} {old : Option ℕ} {acked sacked new : ℕ → Mark → Prop} {d : Delivery ℕ} {sent : Sent ℕ}
  {minRtt : Option ℕ} {stop : ℕ}

theorem samples_or_of_retransmitted (hnew : ∀ o m, new o m → m.retransmitted = true) :
    samples now (fun o m => acked o m ∨ new o m) = samples now acked := by
  ext t
  constructor
  · rintro ⟨o, m, hm | hm, hre, rfl⟩
    · exact ⟨o, m, hm, hre, rfl⟩
    · rw [hnew o m hm] at hre
      cases hre
  · rintro ⟨o, m, hm, hre, rfl⟩
    exact ⟨o, m, .inl hm, hre, rfl⟩

theorem samples_or_of_once {mark : Mark} (hnew : ∀ o m, new o m → m = mark) (hex : ∃ o m, new o m)
    (honce : mark.retransmitted = false) :
    samples now (fun o m => acked o m ∨ new o m) = insert (mark.rtt now) (samples now acked) := by
  ext t
  constructor
  · rintro ⟨o, m, hm | hm, hre, rfl⟩
    · exact .inr ⟨o, m, hm, hre, rfl⟩
    · rw [hnew o m hm]
      exact .inl rfl
  · rintro (rfl | ⟨o, m, hm, hre, rfl⟩)
    · obtain ⟨o, m, hm⟩ := hex
      obtain rfl := hnew o m hm
      exact ⟨o, m, .inr hm, honce, rfl⟩
    · exact ⟨o, m, .inl hm, hre, rfl⟩

theorem Gathered.congr {acked' sacked' : ℕ → Mark → Prop} (h : Gathered now old acked sacked d)
    (hacked : ∀ o m, acked o m ↔ acked' o m) (hsacked : ∀ o m, sacked o m ↔ sacked' o m) :
    Gathered now old acked' sacked' d := by
  obtain rfl : acked = acked' := funext fun o => funext fun m => propext (hacked o m)
  obtain rfl : sacked = sacked' := funext fun o => funext fun m => propext (hsacked o m)
  exact h

theorem Gathered.acked_portion (h : Gathered now old acked sacked d) (hnew : ∀ o m, new o m → m = sent.mark)
    (hex : ∃ o m, new o m) :
    Gathered now old (fun o m => acked o m ∨ new o m) sacked (d.portion now minRtt true sent stop) := by
  have hswap : (fun o m => (acked o m ∨ new o m) ∨ sacked o m) = fun o m => (acked o m ∨ sacked o m) ∨ new o m := by
    funext o m
    exact propext (or_right_comm)
  unfold Delivery.portion
  by_cases hre : sent.retransmitted = true
  · have hre' : ∀ o m, new o m → m.retransmitted = true := fun o m hm => by rw [hnew o m hm]; exact hre
    have hflag : Gathered now old (fun o m => acked o m ∨ new o m) sacked
        { d with cumulativeRetransmission := d.cumulativeRetransmission || true } := by
      refine ⟨?_, h.sackSample, ?_, ?_⟩
      · rw [samples_or_of_retransmitted hre']
        exact h.cumulativeSample
      · rw [hswap, samples_or_of_retransmitted hre']
        exact h.minRtt
      · simp only [Bool.or_true, true_iff]
        obtain ⟨o, m, hm⟩ := hex
        exact ⟨o, m, .inr hm, hre' o m hm⟩
    rw [if_pos hre]
    dsimp only
    split
    · exact hflag
    · exact ⟨by simpa using hflag.cumulativeSample, by simpa using hflag.sackSample, by simpa using hflag.minRtt,
        by simpa using hflag.retransmission⟩
  · have honce : sent.mark.retransmitted = false := Bool.eq_false_of_not_eq_true hre
    rw [if_neg hre]
    refine ⟨?_, ?_, ?_, ?_⟩
    · rw [samples_or_of_once hnew hex honce, Delivery.deliver_cumulativeSample]
      exact h.cumulativeSample.longest _
    · rw [Delivery.deliver_sackSample]
      exact h.sackSample
    · rw [hswap, samples_or_of_once hnew hex honce, Set.union_insert, Delivery.deliver_minRtt]
      exact h.minRtt.shortest _
    · rw [Delivery.deliver_cumulativeRetransmission]
      refine h.retransmission.trans ⟨?_, ?_⟩
      · rintro ⟨o, m, hm, hre'⟩
        exact ⟨o, m, .inl hm, hre'⟩
      · rintro ⟨o, m, hm | hm, hre'⟩
        · exact ⟨o, m, hm, hre'⟩
        · rw [hnew o m hm, honce] at hre'
          cases hre'

theorem Gathered.sacked_portion (h : Gathered now old acked sacked d) (hnew : ∀ o m, new o m → m = sent.mark)
    (hex : ∃ o m, new o m) :
    Gathered now old acked (fun o m => sacked o m ∨ new o m) (d.portion now minRtt false sent stop) := by
  have hassoc : (fun o m => acked o m ∨ sacked o m ∨ new o m) = fun o m => (acked o m ∨ sacked o m) ∨ new o m := by
    funext o m
    exact propext or_assoc.symm
  unfold Delivery.portion
  by_cases hre : sent.retransmitted = true
  · have hre' : ∀ o m, new o m → m.retransmitted = true := fun o m hm => by rw [hnew o m hm]; exact hre
    have hflag : Gathered now old acked (fun o m => sacked o m ∨ new o m)
        { d with cumulativeRetransmission := d.cumulativeRetransmission || false } := by
      refine ⟨h.cumulativeSample, ?_, ?_, ?_⟩
      · rw [samples_or_of_retransmitted hre']
        exact h.sackSample
      · rw [hassoc, samples_or_of_retransmitted hre']
        exact h.minRtt
      · rw [Bool.or_false]
        exact h.retransmission
    rw [if_pos hre]
    dsimp only
    split
    · exact hflag
    · exact ⟨by simpa using hflag.cumulativeSample, by simpa using hflag.sackSample, by simpa using hflag.minRtt,
        by simpa using hflag.retransmission⟩
  · have honce : sent.mark.retransmitted = false := Bool.eq_false_of_not_eq_true hre
    rw [if_neg hre]
    refine ⟨?_, ?_, ?_, ?_⟩
    · rw [Delivery.deliver_cumulativeSample]
      exact h.cumulativeSample
    · rw [samples_or_of_once hnew hex honce, Delivery.deliver_sackSample]
      exact h.sackSample.longest _
    · rw [hassoc, samples_or_of_once hnew hex honce, Set.union_insert, Delivery.deliver_minRtt]
      exact h.minRtt.shortest _
    · rw [Delivery.deliver_cumulativeRetransmission]
      exact h.retransmission

end Gathered

/-! ## The walk over the ranges -/

/-- The octet is reported from `left` up to `right`, and is not on the board. -/
def Reported (board : Scoreboard ℕ) (left right o : ℕ) : Prop := left ≤ o ∧ o < right ∧ ¬ Covers board.ranges o

/-- The latest segment delivered ends with an octet that a range of the log holds and that is in `reported`. -/
def LatestFrom (marked : ℕ → Mark → Prop) (reported : ℕ → Prop) (d : Delivery ℕ) : Prop :=
  ∀ x, d.latest = some x → ∃ o m, marked o m ∧ reported o ∧ x = ⟨m.time, o + 1, m.first, m.last⟩

section Walk

variable {now : Instant} {old minRtt : Option ℕ} {acked sacked marked : ℕ → Mark → Prop} {reported : ℕ → Prop}
  {d : Delivery ℕ} {board : Scoreboard ℕ} {left right s : ℕ} {sent : Sent ℕ} {cumulative : Bool}

variable (now minRtt d left right cumulative) in
/-- A range counts just if one of its octets is reported and not on the board. -/
theorem Delivery.range_cases (hboard : Ascending board.ranges) (hlt : s < sent.stop) :
    ((∃ o, s ≤ o ∧ o < sent.stop ∧ Reported board left right o) ∧
        d.range now board minRtt left right cumulative s sent =
          some (d.portion now minRtt cumulative sent (Min.min sent.stop right))) ∨
      ((∀ o, s ≤ o → o < sent.stop → ¬ Reported board left right o) ∧
        d.range now board minRtt left right cumulative s sent = some d) := by
  unfold Delivery.range
  simp only [max_nat, min_nat, ge_nat, decide_eq_true_eq]
  split
  · rename_i hge
    refine .inr ⟨?_, rfl⟩
    rintro o ho ho' ⟨hleft, hright, -⟩
    omega
  · rename_i hlt'
    have hle := count_le (Max.max s left) (Min.min sent.stop right) board.ranges
    rw [Scoreboard.sackedBetween, Scoreboard.sackedIn_spec hboard, distance_nat (by omega)]
    simp only [Option.bind_eq_bind, Option.bind_some]
    split
    · rename_i heq
      refine .inr ⟨?_, rfl⟩
      rintro o ho ho' ⟨hleft, hright, hcov⟩
      have hshort : count (Max.max s left) (Min.min sent.stop right) board.ranges <
          Min.min sent.stop right - Max.max s left := count_lt_iff.2 ⟨o, by omega, by omega, hcov⟩
      omega
    · rename_i hne
      obtain ⟨o, ho, ho', hcov⟩ := count_lt_iff.1 (lt_of_le_of_ne hle hne)
      exact .inl ⟨⟨o, by omega, by omega, by omega, by omega, hcov⟩, rfl⟩

theorem LatestFrom.portion (h : LatestFrom marked reported d) {o : ℕ} (hm : marked o sent.mark)
    (ho : reported o) : LatestFrom marked reported (d.portion now minRtt cumulative sent (o + 1)) := by
  have hdeliver : ∀ d' : Delivery ℕ, d'.latest = d.latest →
      LatestFrom marked reported (d'.deliver (sent.delivered (o + 1))) := by
    intro d' hsame x hx
    rcases Delivery.deliver_latest hx with rfl | hx
    · exact ⟨o, sent.mark, hm, ho, rfl⟩
    · exact h x (hsame ▸ hx)
  unfold Delivery.portion
  split
  · dsimp only
    split
    · exact h
    · exact hdeliver _ rfl
  · exact hdeliver _ (by cases cumulative <;> rfl)

/-- The last octet of a range that is reported. -/
theorem LatestFrom.range {d' : Delivery ℕ} (h : LatestFrom marked reported d) (hboard : Ascending board.ranges)
    (hlt : s < sent.stop) (hmarked : ∀ o, s ≤ o → o < sent.stop → marked o sent.mark)
    (hreported : ∀ o, left ≤ o → o < right → reported o)
    (hd' : d.range now board minRtt left right cumulative s sent = some d') : LatestFrom marked reported d' := by
  rcases Delivery.range_cases now minRtt d left right cumulative hboard hlt with
    ⟨⟨o, ho, ho', hr⟩, hrange⟩ | ⟨-, hrange⟩
  · obtain rfl := Option.some.inj (hrange.symm.trans hd')
    obtain ⟨hleft, hright, -⟩ := hr
    have hlast : Min.min sent.stop right - 1 + 1 = Min.min sent.stop right := by omega
    rw [← hlast]
    exact h.portion (hmarked _ (by omega) (by omega)) (hreported _ (by omega) (by omega))
  · obtain rfl := Option.some.inj (hrange.symm.trans hd')
    exact h

variable (minRtt left right cumulative) in
theorem Gathered.range (h : Gathered now old acked sacked d) (hboard : Ascending board.ranges)
    (hlt : s < sent.stop) :
    ∃ d', d.range now board minRtt left right cumulative s sent = some d' ∧
      Gathered now old
        (fun o m => acked o m ∨ cumulative = true ∧ SendLog.ofRange s sent o m ∧ Reported board left right o)
        (fun o m => sacked o m ∨ cumulative = false ∧ SendLog.ofRange s sent o m ∧ Reported board left right o)
        d' := by
  rcases Delivery.range_cases now minRtt d left right cumulative hboard hlt with
    ⟨⟨o, ho, ho', hr⟩, hrange⟩ | ⟨hnone, hrange⟩
  · have hnew : ∀ o m, SendLog.ofRange s sent o m ∧ Reported board left right o → m = sent.mark :=
      fun o m hm => hm.1.2.2
    have hex : ∃ o m, SendLog.ofRange s sent o m ∧ Reported board left right o :=
      ⟨o, sent.mark, ⟨ho, ho', rfl⟩, hr⟩
    refine ⟨_, hrange, ?_⟩
    cases cumulative with
    | true => exact (h.acked_portion hnew hex).congr (by simp) (by simp)
    | false => exact (h.sacked_portion hnew hex).congr (by simp) (by simp)
  · refine ⟨d, hrange, h.congr (fun o m => ?_) (fun o m => ?_)⟩
    · exact (or_iff_left fun hm => hnone o hm.2.1.1 hm.2.1.2.1 hm.2.2).symm
    · exact (or_iff_left fun hm => hnone o hm.2.1.1 hm.2.1.2.1 hm.2.2).symm

variable (minRtt cumulative) in
/-- One part of sequence space that is reported. -/
theorem Gathered.ranges {P : ℕ → Mark → Prop} {ranges : List (Sent ℕ)} (h : Gathered now old acked sacked d)
    (hlatest : LatestFrom marked reported d) (hboard : Ascending board.ranges) (hspans : Spans P s ranges)
    (hmarked : ∀ o m, Marked s ranges o m → marked o m) (hreported : ∀ o, left ≤ o → o < right → reported o) :
    ∃ d', Delivery.ranges now board minRtt left right cumulative s ranges d = some d' ∧
      Gathered now old
        (fun o m => acked o m ∨ cumulative = true ∧ Marked s ranges o m ∧ Reported board left right o)
        (fun o m => sacked o m ∨ cumulative = false ∧ Marked s ranges o m ∧ Reported board left right o)
        d' ∧ LatestFrom marked reported d' := by
  induction ranges generalizing s d acked sacked with
  | nil =>
      refine ⟨d, rfl, h.congr (fun o m => ?_) (fun o m => ?_), hlatest⟩
      · simp [Marked]
      · simp [Marked]
  | cons sent rest ih =>
      obtain ⟨hlt, -, hrest⟩ := hspans
      obtain ⟨d₁, hd₁, hgathered⟩ := h.range minRtt left right cumulative hboard hlt
      have hlatest₁ := hlatest.range hboard hlt (fun o ho ho' => hmarked o _ (.inl ⟨ho, ho', rfl⟩)) hreported hd₁
      obtain ⟨d', hd', hgathered', hlatest'⟩ :=
        ih hgathered hlatest₁ hrest fun o m hm => hmarked o m (.inr hm)
      refine ⟨d', by simp [Delivery.ranges, hd₁, hd'], hgathered'.congr ?_ ?_, hlatest'⟩
      · intro o m
        simp only [Marked, SendLog.ofRange]
        tauto
      · intro o m
        simp only [Marked, SendLog.ofRange]
        tauto

variable (minRtt) in
theorem Gathered.blocks {P : ℕ → Mark → Prop} {log : SendLog ℕ} {blocks : List Interval}
    (h : Gathered now old acked sacked d)
    (hlatest : LatestFrom (Marked log.start log.ranges) reported d) (hboard : Ascending board.ranges)
    (hspans : log.Says P) (hreported : ∀ o, Covers blocks o → reported o) :
    ∃ d', Delivery.blocks now board minRtt log blocks d = some d' ∧
      Gathered now old acked
        (fun o m => sacked o m ∨ Marked log.start log.ranges o m ∧ Covers blocks o ∧ ¬ Covers board.ranges o) d' ∧
      LatestFrom (Marked log.start log.ranges) reported d' := by
  induction blocks generalizing d acked sacked with
  | nil =>
      refine ⟨d, rfl, h.congr (fun o m => Iff.rfl) (fun o m => ?_), hlatest⟩
      simp
  | cons block rest ih =>
      obtain ⟨d₁, hd₁, hgathered, hlatest₁⟩ := h.ranges minRtt false hlatest hboard hspans (fun o m hm => hm)
        fun o ho ho' => hreported o (covers_cons.2 (.inl ⟨ho, ho'⟩))
      obtain ⟨d', hd', hgathered', hlatest'⟩ :=
        ih hgathered hlatest₁ fun o ho => hreported o (covers_cons.2 (.inr ho))
      refine ⟨d', by simp [Delivery.blocks, hd₁, hd'], hgathered'.congr ?_ ?_, hlatest'⟩
      · intro o m
        simp
      · intro o m
        simp only [covers_cons, Reported]
        tauto

/-- Everything that an acknowledgment reports. -/
theorem gather_spec {P : ℕ → Mark → Prop} {log : SendLog ℕ} (hspans : log.Says P) (hboard : Ascending board.ranges)
    (now : Instant) (minRtt : Option ℕ) (una ack : ℕ) (sacks : List Interval) :
    ∃ d, Delivery.gather now board minRtt log una ack sacks = some d ∧
      Gathered now minRtt
        (fun o m => Marked log.start log.ranges o m ∧ (una ≤ o ∧ o < ack) ∧ ¬ Covers board.ranges o)
        (fun o m => Marked log.start log.ranges o m ∧ Covers sacks o ∧ ¬ Covers board.ranges o) d ∧
      LatestFrom (Marked log.start log.ranges) (Covers ((una, ack) :: sacks)) d := by
  have hempty : Gathered now minRtt (fun _ _ => False) (fun _ _ => False) { minRtt := minRtt } := by
    refine ⟨?_, ?_, ?_, ?_⟩
    · rintro t ⟨o, m, hm, -⟩
      exact hm
    · rintro t ⟨o, m, hm, -⟩
      exact hm
    · have hset : {t | minRtt = some t} ∪ samples now (fun _ _ => False ∨ False) = {t | minRtt = some t} := by
        refine Set.union_eq_left.2 ?_
        rintro t ⟨o, m, hm, -⟩
        exact hm.elim False.elim False.elim
      rw [hset]
      cases minRtt with
      | none => exact fun t ht => by cases ht
      | some least => exact ⟨rfl, fun u hu => le_of_eq (Option.some.inj hu)⟩
    · simp
  have hnone : LatestFrom (Marked log.start log.ranges) (Covers ((una, ack) :: sacks)) { minRtt := minRtt } :=
    fun x hx => by cases hx
  obtain ⟨d₁, hd₁, hgathered, hlatest⟩ := hempty.ranges minRtt true hnone hboard hspans (fun o m hm => hm)
    fun o ho ho' => covers_cons.2 (.inl ⟨ho, ho'⟩)
  obtain ⟨d, hd, hgathered', hlatest'⟩ := hgathered.blocks minRtt hlatest hboard hspans
    fun o ho => covers_cons.2 (.inr ho)
  refine ⟨d, by simp [Delivery.gather, hd₁, hd], hgathered'.congr ?_ ?_, hlatest'⟩
  · intro o m
    simp only [Reported]
    tauto
  · intro o m
    simp

end Walk

end SmolNet
