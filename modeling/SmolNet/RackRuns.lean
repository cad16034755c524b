import SmolNet.RackAck
import SmolNet.SendLogRuns

/-!
# Runs of RACK

Sequences of calls on RACK's state, with sequence numbers of one window.  Beside it go the history of each
octet, whether a call has merged ranges, and some that were sent again, which octets were reported delivered,
each with the number of the send that was its last one then, and that number for the octet that the latest
segment delivered ends with.
-/

namespace SmolNet

open Serial Intervals

namespace Rack

inductive Call (α : Type) where
  | record (una seq stop : α) (now : Instant)
  | advance (ack : α)
  | markAllLost
  | markLostBelow (boundary : α)
  | onAck (now : Instant) (board : Scoreboard α) (una ack : α) (sacks : List (α × α))
  | detect (board : Scoreboard α) (now : Instant) (srtt : Option Nat)
  | onDsack (ack nxt : α)
  | onRecoveryEnd
deriving DecidableEq, Repr

section Calls

variable {α : Type} [Ord α] [Distance α] [DecidableEq α]

/-- The call that is made on the log. -/
def logCall (rack : Rack α) : Call α → Option (SendLog.Call α)
  | .record una seq stop now => some (.record una seq stop now)
  | .advance ack => some (.advance ack)
  | .markAllLost => some .markAllLost
  | .markLostBelow boundary => some (.markLostBelow boundary)
  | .detect board now srtt => rack.xmit.map fun xmit => .detect board now xmit (rack.wait srtt)
  | _ => none

def apply (rack : Rack α) : Call α → Option (Rack α)
  | .record una seq stop now => some { rack with log := rack.log.record una seq stop now }
  | .advance ack => some { rack with log := rack.log.advance ack }
  | .markAllLost => some { rack with log := rack.log.markAllLost }
  | .markLostBelow boundary => some { rack with log := rack.log.markLostBelow boundary }
  | .onAck now board una ack sacks => (rack.onAck now board una ack sacks).map Prod.snd
  | .detect board now srtt => (rack.detect board now srtt).map Prod.snd
  | .onDsack ack nxt => some (rack.onDsack ack nxt)
  | .onRecoveryEnd => some rack.onRecoveryEnd

/-- The latest segment delivered is the one before, or one that was sent after it. -/
def Moves (old new : Option (Xmit α)) : Prop :=
  new = old ∨ ∃ x, new = some x ∧ ∀ x', old = some x' → x.after x' = true

omit [DecidableEq α] [Distance α] in
/-- What an acknowledgment changes. -/
theorem settle_cases (rack : Rack α) (now : Instant) (d : Delivery α) :
    (rack.settle now d).2.log = rack.log ∧ (rack.settle now d).2.minRtt = d.minRtt ∧
      ((rack.settle now d).2.xmit = rack.xmit ∨ ∃ x, d.latest = some x ∧ (rack.settle now d).2.xmit = some x ∧
        ∀ x', rack.xmit = some x' → x.after x' = true) := by
  unfold settle
  cases hlatest : d.latest with
  | none => exact ⟨rfl, rfl, .inl rfl⟩
  | some x =>
      simp only [Option.elim_some]
      split
      · rename_i hafter
        refine ⟨rfl, rfl, .inr ⟨x, rfl, rfl, fun x' hx' => ?_⟩⟩
        have hafter' : rack.xmit.all (fun xmit => x.after xmit) = true := hafter
        rw [hx'] at hafter'
        exact hafter'
      · exact ⟨rfl, rfl, .inl rfl⟩

/-- Detection works on the log, if a segment was delivered. -/
theorem detect_cases {rack rack' : Rack α} {board : Scoreboard α} {now : Instant} {srtt : Option Nat}
    {newlyLost : Bool} (h : rack.detect board now srtt = some (newlyLost, rack')) :
    (rack.xmit = none ∧ newlyLost = false ∧ rack' = { rack with reoTimeout := none }) ∨
      ∃ xmit log next, rack.xmit = some xmit ∧
        rack.log.detect board now xmit (rack.wait srtt) = some (log, newlyLost, next) ∧
        rack' = { rack with log := log, reoTimeout := next } := by
  unfold detect at h
  split at h
  · rename_i hxmit
    obtain ⟨rfl, rfl⟩ := Prod.mk.inj (Option.some.inj h)
    exact .inl ⟨hxmit, rfl, rfl⟩
  · rename_i xmit hxmit
    simp only [Option.bind_eq_bind, Option.bind_eq_some_iff] at h
    obtain ⟨⟨log, lost, next⟩, hfound, hresult⟩ := h
    obtain ⟨rfl, rfl⟩ := Prod.mk.inj (Option.some.inj hresult)
    exact .inr ⟨xmit, log, next, hxmit, hfound, rfl⟩

/-- What a call does to the log. -/
theorem apply_log {rack rack' : Rack α} {call : Call α} (h : rack.apply call = some rack') :
    (rack.logCall call = none ∧ rack'.log = rack.log) ∨
      ∃ c, rack.logCall call = some c ∧ rack.log.apply c = some rack'.log := by
  cases call with
  | record una seq stop now =>
      obtain rfl := Option.some.inj h
      exact .inr ⟨_, rfl, rfl⟩
  | advance ack =>
      obtain rfl := Option.some.inj h
      exact .inr ⟨_, rfl, rfl⟩
  | markAllLost =>
      obtain rfl := Option.some.inj h
      exact .inr ⟨_, rfl, rfl⟩
  | markLostBelow boundary =>
      obtain rfl := Option.some.inj h
      exact .inr ⟨_, rfl, rfl⟩
  | onAck now board una ack sacks =>
      simp only [apply, onAck, Option.bind_eq_bind, Option.map_eq_some_iff, Option.bind_eq_some_iff] at h
      obtain ⟨result, ⟨d, -, hd⟩, rfl⟩ := h
      obtain rfl := Option.some.inj hd
      exact .inl ⟨rfl, (rack.settle_cases now d).1⟩
  | detect board now srtt =>
      obtain ⟨⟨newlyLost, rack'⟩, hdetect, rfl⟩ := Option.map_eq_some_iff.1 h
      rcases detect_cases hdetect with ⟨hxmit, -, rfl⟩ | ⟨xmit, log, next, hxmit, hfound, rfl⟩
      · exact .inl ⟨by rw [logCall, hxmit]; rfl, rfl⟩
      · refine .inr ⟨_, by rw [logCall, hxmit]; rfl, ?_⟩
        rw [SendLog.apply, hfound]
        rfl
  | onDsack ack nxt =>
      obtain rfl := Option.some.inj h
      refine .inl ⟨rfl, ?_⟩
      unfold onDsack
      split <;> rfl
  | onRecoveryEnd =>
      obtain rfl := Option.some.inj h
      exact .inl ⟨rfl, rfl⟩

/-- Only an acknowledgment moves the latest segment delivered, and only to one that was sent later. -/
theorem apply_xmit {rack rack' : Rack α} {call : Call α} (h : rack.apply call = some rack') :
    Moves rack.xmit rack'.xmit ∧
      ((∀ now board una ack sacks, call ≠ .onAck now board una ack sacks) → rack'.xmit = rack.xmit) := by
  cases call with
  | onAck now board una ack sacks =>
      simp only [apply, onAck, Option.bind_eq_bind, Option.map_eq_some_iff, Option.bind_eq_some_iff] at h
      obtain ⟨result, ⟨d, -, hd⟩, rfl⟩ := h
      obtain rfl := Option.some.inj hd
      refine ⟨?_, fun hnot => absurd rfl (hnot now board una ack sacks)⟩
      rcases (rack.settle_cases now d).2.2 with hsame | ⟨x, -, hx, hafter⟩
      · exact .inl hsame
      · exact .inr ⟨x, hx, hafter⟩
  | detect board now srtt =>
      obtain ⟨⟨newlyLost, rack'⟩, hdetect, rfl⟩ := Option.map_eq_some_iff.1 h
      rcases detect_cases hdetect with ⟨-, -, rfl⟩ | ⟨xmit, log, next, -, -, rfl⟩
      · exact ⟨.inl rfl, fun _ => rfl⟩
      · exact ⟨.inl rfl, fun _ => rfl⟩
  | onDsack ack nxt =>
      obtain rfl := Option.some.inj h
      have hsame : (rack.onDsack ack nxt).xmit = rack.xmit := by
        unfold onDsack
        split <;> rfl
      exact ⟨.inl hsame, fun _ => hsame⟩
  | _ =>
      obtain rfl := Option.some.inj h
      exact ⟨.inl rfl, fun _ => rfl⟩

end Calls

end Rack

/-! ## Runs within one window -/

def Rack.Call.Within (base : SeqNumber) : Rack.Call SeqNumber → Prop
  | .record una seq stop _ => base.Within una ∧ base.Within seq ∧ base.Within stop
  | .advance ack => base.Within ack
  | .markAllLost => True
  | .markLostBelow boundary => base.Within boundary
  | .onAck _ board una ack sacks => Scoreboard.Windowed base board ∧ base.Within una ∧ base.Within ack ∧
      ∀ p ∈ sacks, base.Within p.1 ∧ base.Within p.2
  | .detect board _ _ => Scoreboard.Windowed base board
  | .onDsack _ _ => True
  | .onRecoveryEnd => True

instance (base : SeqNumber) (call : Rack.Call SeqNumber) : Decidable (call.Within base) :=
  match call with
  | .record una seq stop _ => inferInstanceAs (Decidable (base.Within una ∧ base.Within seq ∧ base.Within stop))
  | .advance ack => inferInstanceAs (Decidable (base.Within ack))
  | .markAllLost => inferInstanceAs (Decidable True)
  | .markLostBelow boundary => inferInstanceAs (Decidable (base.Within boundary))
  | .onAck _ board una ack sacks => inferInstanceAs (Decidable (Scoreboard.Windowed base board ∧
      base.Within una ∧ base.Within ack ∧ ∀ p ∈ sacks, base.Within p.1 ∧ base.Within p.2))
  | .detect board _ _ => inferInstanceAs (Decidable (Scoreboard.Windowed base board))
  | .onDsack _ _ => inferInstanceAs (Decidable True)
  | .onRecoveryEnd => inferInstanceAs (Decidable True)

/-- The octets of the history in the intervals, each with the number of its last send. -/
def History.report (h : History) (portions : List Interval) : List (ℕ × ℕ) :=
  ((List.range' h.start (h.high - h.start)).filter fun o => Covers portions o).map fun o => ((h.octet o).number, o)

theorem History.mem_report {h : History} {portions : List Interval} {o : ℕ} (hstart : h.start ≤ o)
    (hhigh : o < h.high) (hcov : Covers portions o) : ((h.octet o).number, o) ∈ h.report portions := by
  refine List.mem_map.2 ⟨o, List.mem_filter.2 ⟨?_, by simpa using hcov⟩, rfl⟩
  rw [List.mem_range'_1]
  omega

/-- What the call reports delivered. -/
def Rack.Call.reports (base : SeqNumber) (h : History) : Rack.Call SeqNumber → List (ℕ × ℕ)
  | .onAck _ _ una ack sacks => h.report (((una, ack) :: sacks).map (Scoreboard.both base.offset))
  | _ => []

structure Racked where
  rack : Rack SeqNumber
  history : History
  compacted : Bool := false
  mixed : Bool := false
  delivered : List (ℕ × ℕ) := []
  latest : ℕ := 0

namespace Racked

/-- `Rack::new`, and a history that holds nothing. -/
def start (base : SeqNumber) : Racked where
  rack := .new ⟨0⟩
  history := { start := base.offset ⟨0⟩, high := base.offset ⟨0⟩ }

/-- The state after a call that leaves RACK's as `rack`. -/
def next (base : SeqNumber) (s : Racked) (call : Rack.Call SeqNumber) (rack : Rack SeqNumber) : Racked where
  rack := rack
  history := (s.rack.logCall call).elim s.history fun c =>
    s.history.follow (s.rack.log.map base.offset) (c.map base.offset)
  compacted := s.compacted || (s.rack.logCall call).any s.rack.log.compacts
  mixed := s.mixed || (s.rack.logCall call).any s.rack.log.mixes
  delivered := s.delivered ++ call.reports base s.history
  latest := if rack.xmit = s.rack.xmit then s.latest
    else rack.xmit.elim s.latest fun x => (s.history.octet (base.offset x.stop - 1)).number

def step (base : SeqNumber) (s : Racked) (call : Rack.Call SeqNumber) : Option Racked :=
  (s.rack.apply call).map (s.next base call)

abbrev Reaches (base : SeqNumber) (s : Racked) : Prop :=
  Transition.Reaches (step base) (fun _ call => call.Within base) (· = start base) s

/-- The log and its history. -/
def logged (s : Racked) : Logged := ⟨s.rack.log, s.history, s.compacted, s.mixed⟩

/-- The segment ends with an octet `d` that was reported delivered, whose last send then, `n`, is one of the
segment's.  If these are several, `d` was new then. -/
structure XmitFrom (h : History) (delivered : List (ℕ × ℕ)) (n : ℕ) (x : Xmit ℕ) : Prop where
  last : x.last ≤ h.sends
  first_le : x.first ≤ n
  le_last : n ≤ x.last
  octet : ∃ d, (n, d) ∈ delivered ∧ x.stop = d + 1 ∧
    (x.first = x.last ∨ d < h.ends n ∧ ∀ j, x.first ≤ j → j < n → h.ends j ≤ d)

structure Follows (base : SeqNumber) (s : Racked) : Prop where
  logged : Logged.Follows base s.logged
  within : ∀ x, s.rack.xmit = some x → base.Within x.stop
  xmit : s.mixed = false → ∀ x, s.rack.xmit = some x →
    XmitFrom s.history s.delivered s.latest (x.map base.offset)

variable {base : SeqNumber} {s s' : Racked} {call : Rack.Call SeqNumber}

theorem follows_start (base : SeqNumber) : Follows base (start base) :=
  ⟨Logged.follows_start base, (fun _ hx => by cases hx), fun _ _ hx => by cases hx⟩

theorem Follows.held (h : Follows base s) : SendLog.Held base.Within s.rack.log := h.logged.held

theorem Follows.tracks (h : Follows base s) : (s.rack.log.map base.offset).Tracks s.history s.compacted s.mixed :=
  h.logged.tracks

theorem XmitFrom.mono {h h' : History} {delivered delivered' : List (ℕ × ℕ)} {n : ℕ} {x : Xmit ℕ}
    (hx : XmitFrom h delivered n x) (hsends : h.sends ≤ h'.sends) (hends : ∀ n, n ≤ h.sends → h'.ends n = h.ends n)
    (hdelivered : ∀ p ∈ delivered, p ∈ delivered') : XmitFrom h' delivered' n x := by
  obtain ⟨d, hmem, hstop, hfresh⟩ := hx.octet
  have hlast := hx.last
  have hn := hx.le_last
  refine ⟨hlast.trans hsends, hx.first_le, hn, d, hdelivered _ hmem, hstop, hfresh.imp_right ?_⟩
  rintro ⟨hlt, hbelow⟩
  rw [hends n (by omega)]
  refine ⟨hlt, fun j hj hj' => ?_⟩
  rw [hends j (by omega)]
  exact hbelow j hj hj'

/-- The call on the log is within the window. -/
theorem Follows.logCall (h : Follows base s) (hcall : call.Within base) {c : SendLog.Call SeqNumber}
    (hc : s.rack.logCall call = some c) : c.Within base := by
  cases call with
  | detect board now srtt =>
      obtain ⟨x, hx, rfl⟩ := Option.map_eq_some_iff.1 hc
      exact ⟨hcall, h.within x hx⟩
  | onAck now board una ack sacks => cases hc
  | onDsack ack nxt => cases hc
  | onRecoveryEnd => cases hc
  | _ =>
      obtain rfl := Option.some.inj hc
      exact hcall

/-- What is gathered, on the window and on offsets. -/
theorem Follows.gather (h : Follows base s) {board : Scoreboard SeqNumber} {una ack : SeqNumber}
    {sacks : List (SeqNumber × SeqNumber)} (now : Instant) (hboard : Scoreboard.Windowed base board)
    (huna : base.Within una) (hack : base.Within ack) (hsacks : Scoreboard.AllIn base.Within sacks) :
    ∃ d, Delivery.gather now board s.rack.minRtt s.rack.log una ack sacks = some d ∧ d.In base.Within ∧
      Delivery.gather now (board.map base.offset) s.rack.minRtt (s.rack.log.map base.offset) (base.offset una)
        (base.offset ack) (sacks.map (Scoreboard.both base.offset)) = some (d.map base.offset) := by
  rcases h.held with hempty | hlog
  · have hempty' : (s.rack.log.map base.offset).ranges = [] := by simp [SendLog.map, hempty]
    refine ⟨_, Delivery.gather_of_empty hempty now board s.rack.minRtt una ack sacks, (fun x hx => by cases hx), ?_⟩
    rw [Delivery.gather_of_empty hempty']
    rfl
  · obtain ⟨hmap, hin⟩ := Delivery.gather_map base.embeds now s.rack.minRtt hboard.within hlog huna hack hsacks
    obtain ⟨d', hd', -⟩ := gather_spec h.tracks.told hboard.wellFormed.ascending now s.rack.minRtt
      (base.offset una) (base.offset ack) (sacks.map (Scoreboard.both base.offset))
    rw [hmap, Option.map_eq_some_iff] at hd'
    obtain ⟨d, hd, -⟩ := hd'
    refine ⟨d, hd, hin d hd, ?_⟩
    rw [hmap, hd]
    rfl

/-- The latest segment that an acknowledgment delivers ends with an octet that it reports. -/
theorem Follows.xmitFrom (h : Follows base s) (hc : s.mixed = false) {board : Scoreboard SeqNumber}
    {una ack : SeqNumber} {sacks : List (SeqNumber × SeqNumber)} {now : Instant} {d : Delivery SeqNumber}
    {x : Xmit SeqNumber} (hboard : Scoreboard.Windowed base board)
    (hd : Delivery.gather now (board.map base.offset) s.rack.minRtt (s.rack.log.map base.offset) (base.offset una)
      (base.offset ack) (sacks.map (Scoreboard.both base.offset)) = some (d.map base.offset))
    (hx : d.latest = some x) :
    XmitFrom s.history (s.delivered ++ s.history.report (((una, ack) :: sacks).map (Scoreboard.both base.offset)))
      (s.history.octet (base.offset x.stop - 1)).number (x.map base.offset) := by
  obtain ⟨d', hd', -, hlatest⟩ := gather_spec h.tracks.told hboard.wellFormed.ascending now s.rack.minRtt
    (base.offset una) (base.offset ack) (sacks.map (Scoreboard.both base.offset))
  obtain rfl := Option.some.inj (hd'.symm.trans hd)
  obtain ⟨o, m, hm, hcov, hxm⟩ := hlatest (x.map base.offset) (by rw [Delivery.map, hx]; rfl)
  have horders := (h.tracks.told.of_marked hm).2.1 hc
  obtain ⟨hstart, hhigh⟩ := h.tracks.told.bounds_of_marked hm
  have hmem : ((s.history.octet o).number, o) ∈
      s.history.report (((una, ack) :: sacks).map (Scoreboard.both base.offset)) :=
    History.mem_report (h.tracks.start ▸ hstart) (h.tracks.high ▸ hhigh) hcov
  have ho : base.offset x.stop - 1 = o := by
    have hstop : base.offset x.stop = o + 1 := congrArg Xmit.stop hxm
    omega
  rw [hxm, ho]
  refine ⟨horders.sends, horders.first, horders.last, o, List.mem_append_right _ hmem, rfl, ?_⟩
  cases hre : m.retransmitted with
  | true => exact .inl (horders.single hre)
  | false =>
      have hsince := horders.since
      exact .inr ⟨(horders.fresh hre).1, fun j hj hlt => (horders.fresh hre).2 j (hsince.trans_le hj) hlt⟩

/-- No call panics. -/
theorem Follows.applies (h : Follows base s) (hcall : call.Within base) :
    ∃ rack', s.rack.apply call = some rack' := by
  cases call with
  | onAck now board una ack sacks =>
      obtain ⟨d, hd, -⟩ := h.gather now hcall.1 hcall.2.1 hcall.2.2.1 hcall.2.2.2
      refine ⟨(s.rack.settle now d).2, ?_⟩
      simp [Rack.apply, Rack.onAck, hd]
  | detect board now srtt =>
      cases hx : s.rack.xmit with
      | none => exact ⟨{ s.rack with reoTimeout := none }, by simp [Rack.apply, Rack.detect, hx]⟩
      | some x =>
          have hc : s.rack.logCall (.detect board now srtt) = some (.detect board now x (s.rack.wait srtt)) := by
            rw [Rack.logCall, hx]
            rfl
          obtain ⟨t, ht, -⟩ := h.logged.step (h.logCall hcall hc)
          obtain ⟨log, hlog, -⟩ := Option.map_eq_some_iff.1 ht
          obtain ⟨⟨log', newlyLost, next⟩, hdetect, -⟩ := Option.map_eq_some_iff.1 hlog
          have hdetect' : s.rack.log.detect board now x (s.rack.wait srtt) = some (log', newlyLost, next) := hdetect
          exact ⟨{ s.rack with log := log', reoTimeout := next }, by simp [Rack.apply, Rack.detect, hx, hdetect']⟩
  | _ => exact ⟨_, rfl⟩

theorem Follows.logged_next (h : Follows base s) (hcall : call.Within base) {rack' : Rack SeqNumber}
    (hrack' : s.rack.apply call = some rack') : Logged.Follows base (s.next base call rack').logged := by
  rcases Rack.apply_log hrack' with ⟨hnone, hlog⟩ | ⟨c, hc, hlog⟩
  · have hsame : (s.next base call rack').logged = s.logged := by simp [Racked.logged, next, hnone, hlog]
    rw [hsame]
    exact h.logged
  · obtain ⟨t, ht, hfollows⟩ := h.logged.step (h.logCall hcall hc)
    have hstep : Logged.step base s.logged c = some (s.next base call rack').logged := by
      simp [Logged.step, Racked.logged, next, hc, hlog]
    obtain rfl := Option.some.inj (ht.symm.trans hstep)
    exact hfollows

/-- What the call leaves as the latest segment delivered. -/
theorem Follows.xmit_apply (h : Follows base s) (hcall : call.Within base) {rack' : Rack SeqNumber}
    (hrack' : s.rack.apply call = some rack') {x : Xmit SeqNumber} (hx : rack'.xmit = some x) :
    base.Within x.stop ∧ (s.mixed = false →
      XmitFrom s.history (s.next base call rack').delivered (s.next base call rack').latest
        (x.map base.offset)) := by
  by_cases hsame : rack'.xmit = s.rack.xmit
  · have hold : s.rack.xmit = some x := hsame.symm.trans hx
    have hlatest : (s.next base call rack').latest = s.latest := if_pos hsame
    rw [hlatest]
    exact ⟨h.within x hold, fun hc => (h.xmit hc x hold).mono le_rfl (fun _ _ => rfl) fun _ hp =>
      List.mem_append_left _ hp⟩
  · have hlatest : (s.next base call rack').latest = (s.history.octet (base.offset x.stop - 1)).number := by
      rw [next, if_neg hsame, hx]
      rfl
    rw [hlatest]
    cases call with
    | onAck now board una ack sacks =>
        obtain ⟨hboard, huna, hack, hsacks⟩ := hcall
        obtain ⟨d, hd, hin, hmap⟩ := h.gather now hboard huna hack hsacks
        have hrack : rack' = (s.rack.settle now d).2 := by
          simp only [Rack.apply, Rack.onAck, hd] at hrack'
          exact (Option.some.inj hrack').symm
        rcases (s.rack.settle_cases now d).2.2 with hkept | ⟨x', hlatest', hnew, -⟩
        · rw [hrack] at hsame
          exact absurd hkept hsame
        · rw [hrack, hnew] at hx
          obtain rfl := Option.some.inj hx
          exact ⟨hin x' hlatest', fun hc => h.xmitFrom hc hboard hmap hlatest'⟩
    | _ => exact absurd ((Rack.apply_xmit hrack').2 (fun _ _ _ _ _ hcall => by cases hcall)) hsame

theorem Follows.step (h : Follows base s) (hcall : call.Within base) :
    ∃ s', step base s call = some s' ∧ Follows base s' := by
  obtain ⟨rack', hrack'⟩ := h.applies hcall
  refine ⟨s.next base call rack', by rw [Racked.step, hrack']; rfl, h.logged_next hcall hrack', ?_, ?_⟩
  · exact fun x hx => (h.xmit_apply hcall hrack' hx).1
  · intro hc x hx
    have hfalse : s.mixed = false := (Bool.or_eq_false_iff.1 hc).1
    refine ((h.xmit_apply hcall hrack' hx).2 hfalse).mono ?_ ?_ fun _ hp => hp
    · unfold next
      cases s.rack.logCall call with
      | none => exact le_rfl
      | some c => exact (s.history.follow_sends _ _).1
    · unfold next
      cases s.rack.logCall call with
      | none => exact fun _ _ => rfl
      | some c => exact (s.history.follow_sends _ _).2

theorem Reaches.follows (h : Reaches base s) : Follows base s := by
  refine h.invariant ?_ ?_
  · rintro s rfl
    exact follows_start base
  · intro s call s' hs hcall hstep
    obtain ⟨t, ht, hfollows⟩ := hs.step hcall
    obtain rfl := Option.some.inj (ht.symm.trans hstep)
    exact hfollows

end Racked

end SmolNet
