import SmolNet.SendLog

/-!
# RACK

RFC 8985's state beside the send log: the latest sent of the segments delivered, its round trip, the
minimum round trip, and the reordering window.  A subtraction of sequence numbers that underflows panics,
so what subtracts may have no result.
-/

namespace SmolNet

open Serial

section Code

variable {α : Type} [Ord α] [Distance α]

/-- What loss detection finds: the pieces of the ranges, whether an octet that is not SACKed is newly deemed
lost, and when the next one would be. -/
structure Detection (α : Type) where
  pieces : List (Sent α)
  newlyLost : Bool
  next : Option Instant
deriving DecidableEq, Repr

def earlier : Option Instant → Option Instant → Option Instant
  | none, next => next
  | some a, none => some a
  | some a, some b => some (Min.min a b)

namespace SendLog

/-- The end of the part of a range that was sent before `xmit`. -/
def sentBefore (xmit : Xmit α) (start : α) (sent : Sent α) : α :=
  if sent.last < xmit.first then sent.stop
  else if sent.first = xmit.first ∧ sent.last = xmit.last then max (min sent.stop xmit.stop) start
  else start

def detectRange [DecidableEq α] (board : Scoreboard α) (now : Instant) (xmit : Xmit α) (wait : Nat) (start : α)
    (sent : Sent α) : Option (Detection α) :=
  let before := sentBefore xmit start sent
  if sent.lost = true ∨ before = start then some ⟨[sent], false, none⟩
  else do
    let sacked ← board.sackedBetween start before
    let octets ← distance before start
    let deadline := sent.time + wait
    if deadline ≤ now then
      return ⟨{ sent with stop := before, lost := true, doubled := false } ::
        (if lt before sent.stop then [sent] else []), sacked < octets, none⟩
    else return ⟨[sent], false, if sacked < octets then some deadline else none⟩

def detectLoop [DecidableEq α] (board : Scoreboard α) (now : Instant) (xmit : Xmit α) (wait : Nat) :
    α → List (Sent α) → Option (Detection α)
  | _, [] => some ⟨[], false, none⟩
  | start, sent :: rest => do
      let here ← detectRange board now xmit wait start sent
      let later ← detectLoop board now xmit wait sent.stop rest
      return ⟨here.pieces ++ later.pieces, here.newlyLost || later.newlyLost, earlier here.next later.next⟩

/-- `SendLog::detect`: the log, whether it newly deems an octet lost that is not SACKed, and when the next one
would be. -/
def detect [DecidableEq α] (log : SendLog α) (board : Scoreboard α) (now : Instant) (xmit : Xmit α) (wait : Nat) :
    Option (SendLog α × Bool × Option Instant) := do
  let found ← detectLoop board now xmit wait log.start log.ranges
  return (log.replace (build found.pieces), found.newlyLost, found.next)

end SendLog

structure Probe (α : Type) where
  stop : α
  retransmitted : Bool
  dsacked : Bool
deriving DecidableEq, Repr

structure Rack (α : Type) where
  log : SendLog α
  xmit : Option (Xmit α) := none
  rtt : Nat := 0
  minRtt : Option Nat := none
  reoWndMult : Nat := 1
  reoWndPersist : Nat := 0
  dsackRound : Option α := none
  reoTimeout : Option Instant := none
  probeAt : Option Instant := none
  probePending : Bool := false
  probe : Option (Probe α) := none
deriving DecidableEq, Repr

def reoWndPersistStart : Nat := 16

def reoWndMultMax : Nat := 64

/-- What `on_ack` gathers from the octets that are newly delivered. -/
structure Delivery (α : Type) where
  minRtt : Option Nat
  latest : Option (Xmit α) := none
  cumulativeSample : Option Nat := none
  sackSample : Option Nat := none
  cumulativeRetransmission : Bool := false
deriving DecidableEq, Repr

namespace Delivery

def deliver (d : Delivery α) (delivered : Xmit α) : Delivery α :=
  if d.latest.all fun latest => delivered.after latest then { d with latest := some delivered } else d

def longest (sample : Option Nat) (rtt : Nat) : Option Nat := some (sample.elim rtt fun sample => Max.max sample rtt)

def sample (d : Delivery α) (cumulative : Bool) (rtt : Nat) : Delivery α :=
  let d :=
    if cumulative then { d with cumulativeSample := longest d.cumulativeSample rtt }
    else { d with sackSample := longest d.sackSample rtt }
  { d with minRtt := some (d.minRtt.elim rtt fun least => Min.min least rtt) }

/-- Octets of a range, up to `stop`, are newly delivered.  `minRtt` is the minimum round trip before the
acknowledgment. -/
def portion (now : Instant) (minRtt : Option Nat) (cumulative : Bool) (sent : Sent α) (stop : α) (d : Delivery α) :
    Delivery α :=
  let rtt := (now - sent.time).natAbs
  if sent.retransmitted then
    let d := { d with cumulativeRetransmission := d.cumulativeRetransmission || cumulative }
    -- its first transmission may be what arrived
    if minRtt.all fun least => rtt < least then d else d.deliver (sent.delivered stop)
  else (d.sample cumulative rtt).deliver (sent.delivered stop)

/-- One range of the log, for the octets from `left` up to `right`. -/
def range (now : Instant) (board : Scoreboard α) (minRtt : Option Nat) (left right : α) (cumulative : Bool)
    (start : α) (sent : Sent α) (d : Delivery α) : Option (Delivery α) :=
  let (a, b) := (max start left, min sent.stop right)
  if ge a b then some d
  else do
    let sacked ← board.sackedBetween a b
    let octets ← distance b a
    if sacked = octets then return d else return d.portion now minRtt cumulative sent b

def ranges (now : Instant) (board : Scoreboard α) (minRtt : Option Nat) (left right : α) (cumulative : Bool) :
    α → List (Sent α) → Delivery α → Option (Delivery α)
  | _, [], d => some d
  | start, sent :: rest, d => do
      let d ← d.range now board minRtt left right cumulative start sent
      ranges now board minRtt left right cumulative sent.stop rest d

def blocks (now : Instant) (board : Scoreboard α) (minRtt : Option Nat) (log : SendLog α) :
    List (α × α) → Delivery α → Option (Delivery α)
  | [], d => some d
  | (left, right) :: rest, d => do
      let d ← ranges now board minRtt left right false log.start log.ranges d
      blocks now board minRtt log rest d

/-- What an acknowledgment of `[una, ack)` with SACK blocks newly delivers. -/
def gather (now : Instant) (board : Scoreboard α) (minRtt : Option Nat) (log : SendLog α) (una ack : α)
    (sacks : List (α × α)) : Option (Delivery α) := do
  let d ← ranges now board minRtt una ack true log.start log.ranges { minRtt := minRtt }
  blocks now board minRtt log sacks d

theorem gather_of_empty {log : SendLog α} (hempty : log.ranges = []) (now : Instant) (board : Scoreboard α)
    (minRtt : Option Nat) (una ack : α) (sacks : List (α × α)) :
    gather now board minRtt log una ack sacks = some { minRtt := minRtt } := by
  have hblocks : ∀ d, blocks now board minRtt log sacks d = some d := by
    induction sacks with
    | nil => exact fun d => rfl
    | cons block rest ih =>
        intro d
        simp [blocks, ranges, hempty, ih]
  simp [gather, ranges, hempty, hblocks]

end Delivery

namespace Rack

def new (start : α) : Rack α := { log := .new start }

def cancelProbe (rack : Rack α) : Rack α := { rack with probeAt := none, probePending := false }

def onRewind (rack : Rack α) : Rack α :=
  { { rack with log := rack.log.markAllLost, reoTimeout := none }.cancelProbe with probe := none }

/-- The state after what was delivered, and the round trip sample that Karn's algorithm allows. -/
def settle (rack : Rack α) (now : Instant) (d : Delivery α) : Option Nat × Rack α :=
  let rack := { rack with minRtt := d.minRtt }
  let rack := d.latest.elim rack fun latest =>
    let rack := { rack with rtt := (now - latest.time).natAbs }
    if rack.xmit.all fun xmit => latest.after xmit then { rack with xmit := some latest } else rack
  ((d.cumulativeSample.filter fun _ => !d.cumulativeRetransmission).or d.sackSample, rack)

def onAck (rack : Rack α) (now : Instant) (board : Scoreboard α) (una ack : α) (blocks : List (α × α)) :
    Option (Option Nat × Rack α) := do
  let d ← Delivery.gather now board rack.minRtt rack.log una ack blocks
  return rack.settle now d

def onDsack (rack : Rack α) (ack nxt : α) : Rack α :=
  if rack.dsackRound.any fun round => lt ack round then rack
  else
    { rack with
      dsackRound := some nxt
      reoWndMult := Min.min (rack.reoWndMult + 1) reoWndMultMax
      reoWndPersist := reoWndPersistStart }

def onRecoveryEnd (rack : Rack α) : Rack α :=
  let persist := rack.reoWndPersist - 1
  { rack with reoWndPersist := persist, reoWndMult := if persist = 0 then 1 else rack.reoWndMult }

/-- The reordering window. -/
def reoWnd (rack : Rack α) (srtt : Option Nat) : Nat :=
  let base := (srtt.or rack.minRtt).getD 0
  let wnd := base / 4 * rack.reoWndMult
  srtt.elim wnd fun srtt => Min.min wnd srtt

/-- How long after a send RACK deems it lost. -/
def wait (rack : Rack α) (srtt : Option Nat) : Nat :=
  (srtt.elim rack.rtt fun srtt => Max.max rack.rtt srtt) + rack.reoWnd srtt

def detect [DecidableEq α] (rack : Rack α) (board : Scoreboard α) (now : Instant) (srtt : Option Nat) :
    Option (Bool × Rack α) :=
  match rack.xmit with
  | none => some (false, { rack with reoTimeout := none })
  | some xmit => do
      let (log, newlyLost, next) ← rack.log.detect board now xmit (rack.wait srtt)
      return (newlyLost, { rack with log := log, reoTimeout := next })

end Rack

end Code

/-! ## The same code on other numbers -/

section Embedding

variable {α β : Type} {W : α → Prop} {e : α → β} {xmit : Xmit α} {d : Delivery α} {start : α} {sent : Sent α}

def Xmit.map (e : α → β) (xmit : Xmit α) : Xmit β := ⟨xmit.time, e xmit.stop, xmit.first, xmit.last⟩

def Detection.map (e : α → β) (d : Detection α) : Detection β := ⟨d.pieces.map (Sent.map e), d.newlyLost, d.next⟩

def Delivery.map (e : α → β) (d : Delivery α) : Delivery β :=
  ⟨d.minRtt, d.latest.map (Xmit.map e), d.cumulativeSample, d.sackSample, d.cumulativeRetransmission⟩

variable [Ord α] [Distance α] [Ord β] [Distance β] (h : Embeds W e)

include h

theorem Xmit.after_map {x y : Xmit α} (hx : W x.stop) (hy : W y.stop) : (x.map e).after (y.map e) = x.after y := by
  have hgt : gt (x.map e).stop (y.map e).stop = gt x.stop y.stop := h.gt hx hy
  unfold Xmit.after
  rw [hgt]
  rfl

namespace SendLog

theorem sentBefore_map (hxmit : W xmit.stop) (hstart : W start) (hsent : W sent.stop) :
    sentBefore (xmit.map e) (e start) (sent.map e) = e (sentBefore xmit start sent) := by
  have hmin : W (min sent.stop xmit.stop) := min_cases hsent hxmit
  simp only [sentBefore, Sent.map, Xmit.map, h.min hsent hxmit, h.max hmin hstart]
  split
  · rfl
  · split <;> rfl

omit h [Distance α] in
theorem sentBefore_cases (hxmit : W xmit.stop) (hstart : W start) (hsent : W sent.stop) :
    W (sentBefore xmit start sent) := by
  unfold sentBefore
  split
  · exact hsent
  · split
    · exact max_cases (min_cases hsent hxmit) hstart
    · exact hstart

variable [DecidableEq α] [DecidableEq β] {board : Scoreboard α}

theorem detectRange_map (now : Instant) (wait : Nat) (hboard : Scoreboard.AllIn W board.ranges)
    (hxmit : W xmit.stop) (hstart : W start) (hsent : W sent.stop) :
    detectRange (board.map e) now (xmit.map e) wait (e start) (sent.map e) =
      (detectRange board now xmit wait start sent).map (Detection.map e) := by
  have hbefore := sentBefore_cases hxmit hstart hsent
  have hiff : e (sentBefore xmit start sent) = e start ↔ sentBefore xmit start sent = start :=
    ⟨h.injective hbefore hstart, fun heq => by rw [heq]⟩
  have hsacked : (board.map e).sackedBetween (e start) (e (sentBefore xmit start sent)) =
      board.sackedBetween start (sentBefore xmit start sent) := Scoreboard.sackedIn_map h hboard hstart hbefore
  have hlost : (sent.map e).lost = sent.lost := rfl
  have hstop : (sent.map e).stop = e sent.stop := rfl
  have htime : (sent.map e).time = sent.time := rfl
  unfold detectRange
  simp only [sentBefore_map h hxmit hstart hsent, hiff, hlost, hstop, htime, hsacked,
    h.distance hbefore hstart, h.lt hbefore hsent]
  split
  · rfl
  · cases board.sackedBetween start (sentBefore xmit start sent) with
    | none => rfl
    | some sacked =>
        cases distance (sentBefore xmit start sent) start with
        | none => rfl
        | some octets =>
            simp only [Option.bind_eq_bind, Option.bind_some]
            split
            · split <;> rfl
            · rfl

theorem detectLoop_map {ranges : List (Sent α)} (now : Instant) (wait : Nat)
    (hboard : Scoreboard.AllIn W board.ranges) (hxmit : W xmit.stop) (hstart : W start)
    (hstops : StopsIn W ranges) :
    detectLoop (board.map e) now (xmit.map e) wait (e start) (ranges.map (Sent.map e)) =
      (detectLoop board now xmit wait start ranges).map (Detection.map e) := by
  induction ranges generalizing start with
  | nil => rfl
  | cons sent rest ih =>
      obtain ⟨hsent, hrest⟩ := stopsIn_cons.1 hstops
      have hlater := ih hsent hrest
      have hstop : (sent.map e).stop = e sent.stop := rfl
      simp only [List.map_cons, detectLoop, detectRange_map h now wait hboard hxmit hstart hsent, hstop, hlater]
      cases detectRange board now xmit wait start sent with
      | none => rfl
      | some here =>
          cases detectLoop board now xmit wait sent.stop rest with
          | none => rfl
          | some later => simp [Detection.map]

omit h [Distance β] [Ord β] [DecidableEq β] in
theorem stopsIn_detectRange {now : Instant} {wait : Nat} {d : Detection α} (hxmit : W xmit.stop)
    (hstart : W start) (hsent : W sent.stop) (hd : detectRange board now xmit wait start sent = some d) :
    StopsIn W d.pieces := by
  have hself : StopsIn W [sent] := stopsIn_cons.2 ⟨hsent, by simp [StopsIn]⟩
  unfold detectRange at hd
  dsimp only at hd
  split at hd
  · obtain rfl := Option.some.inj hd
    exact hself
  · simp only [Option.bind_eq_bind, Option.bind_eq_some_iff] at hd
    obtain ⟨sacked, -, octets, -, hd⟩ := hd
    split at hd
    · obtain rfl := Option.some.inj hd
      refine stopsIn_cons.2 ⟨sentBefore_cases hxmit hstart hsent, ?_⟩
      split
      · exact hself
      · simp [StopsIn]
    · obtain rfl := Option.some.inj hd
      exact hself

omit h [Distance β] [Ord β] [DecidableEq β] in
theorem stopsIn_detectLoop {ranges : List (Sent α)} {now : Instant} {wait : Nat} {d : Detection α}
    (hxmit : W xmit.stop) (hstart : W start) (hstops : StopsIn W ranges)
    (hd : detectLoop board now xmit wait start ranges = some d) : StopsIn W d.pieces := by
  induction ranges generalizing start d with
  | nil =>
      obtain rfl := Option.some.inj hd
      simp [StopsIn]
  | cons sent rest ih =>
      obtain ⟨hsent, hrest⟩ := stopsIn_cons.1 hstops
      simp only [detectLoop, Option.bind_eq_bind, Option.bind_eq_some_iff] at hd
      obtain ⟨here, hhere, later, hlater, hd⟩ := hd
      obtain rfl := Option.some.inj hd
      exact (stopsIn_detectRange hxmit hstart hsent hhere).append (ih hsent hrest hlater)

theorem detect_map {log : SendLog α} (now : Instant) (wait : Nat) (hboard : Scoreboard.AllIn W board.ranges)
    (hxmit : W xmit.stop) (hlog : AllIn W log) :
    (log.map e).detect (board.map e) now (xmit.map e) wait =
      (log.detect board now xmit wait).map fun r => (r.1.map e, r.2) := by
  have hloop := detectLoop_map h now wait hboard hxmit hlog.start hlog.stops
  have hmap : detectLoop (board.map e) now (xmit.map e) wait (log.map e).start (log.map e).ranges =
      (detectLoop board now xmit wait log.start log.ranges).map (Detection.map e) := hloop
  unfold detect
  rw [hmap]
  cases detectLoop board now xmit wait log.start log.ranges with
  | none => rfl
  | some d =>
      simp only [Option.map_some, Option.bind_eq_bind, Option.bind_some, Detection.map, build_map, replace_map]
      rfl

end SendLog

namespace Delivery

/-- The latest segment delivered ends in the window. -/
def In (W : α → Prop) (d : Delivery α) : Prop := ∀ latest, d.latest = some latest → W latest.stop

omit h [Distance α] [Ord β] [Distance β] in
theorem In.deliver {x : Xmit α} (hd : d.In W) (hx : W x.stop) : (d.deliver x).In W := by
  unfold Delivery.deliver
  split
  · intro latest hlatest
    obtain rfl := Option.some.inj hlatest
    exact hx
  · exact hd

theorem deliver_map {x : Xmit α} (hd : d.In W) (hx : W x.stop) :
    (d.map e).deliver (x.map e) = (d.deliver x).map e := by
  have hall : ((d.map e).latest.all fun latest => (x.map e).after latest) =
      d.latest.all fun latest => x.after latest := by
    cases hlatest : d.latest with
    | none => simp [Delivery.map, hlatest]
    | some latest => simp [Delivery.map, hlatest, Xmit.after_map h hx (hd latest hlatest)]
  unfold deliver
  rw [hall]
  split <;> rfl

omit h [Ord α] [Distance α] [Ord β] [Distance β] in
theorem sample_map (d : Delivery α) (cumulative : Bool) (rtt : Nat) :
    (d.map e).sample cumulative rtt = (d.sample cumulative rtt).map e := by
  cases cumulative <;> rfl

theorem portion_map {stop : α} (now : Instant) (minRtt : Option Nat) (cumulative : Bool) (sent : Sent α)
    (hd : d.In W) (hstop : W stop) :
    (d.map e).portion now minRtt cumulative (sent.map e) (e stop) =
      (d.portion now minRtt cumulative sent stop).map e ∧ (d.portion now minRtt cumulative sent stop).In W := by
  have hdelivered : W (sent.delivered stop).stop := hstop
  have hsample : (d.sample cumulative (now - sent.time).natAbs).In W := by cases cumulative <;> exact hd
  have hflag : ({ d with cumulativeRetransmission := d.cumulativeRetransmission || cumulative } : Delivery α).In W := hd
  have hfirst := deliver_map h hsample hdelivered
  have hagain := deliver_map h hflag hdelivered
  rw [← sample_map] at hfirst
  unfold portion
  by_cases hre : sent.retransmitted = true
  · have hre' : (sent.map e).retransmitted = true := hre
    simp only [hre, hre', if_true]
    by_cases hearly : (minRtt.all fun least => decide ((now - sent.time).natAbs < least)) = true
    · have hearly' : (minRtt.all fun least => decide ((now - (sent.map e).time).natAbs < least)) = true := hearly
      rw [if_pos hearly, if_pos hearly']
      exact ⟨rfl, hd⟩
    · have hearly' : ¬ (minRtt.all fun least => decide ((now - (sent.map e).time).natAbs < least)) = true := hearly
      rw [if_neg hearly, if_neg hearly']
      exact ⟨hagain, hflag.deliver hdelivered⟩
  · have hre' : ¬ (sent.map e).retransmitted = true := hre
    rw [if_neg hre, if_neg hre']
    exact ⟨hfirst, hsample.deliver hdelivered⟩

theorem range_map {board : Scoreboard α} {left right start : α} (now : Instant) (minRtt : Option Nat)
    (cumulative : Bool) (hd : d.In W) (hboard : Scoreboard.AllIn W board.ranges) (hleft : W left)
    (hright : W right) (hstart : W start) (hsent : W sent.stop) :
    (d.map e).range now (board.map e) minRtt (e left) (e right) cumulative (e start) (sent.map e) =
      (d.range now board minRtt left right cumulative start sent).map (Delivery.map e) ∧
    ∀ d', d.range now board minRtt left right cumulative start sent = some d' → d'.In W := by
  have hmax : W (max start left) := max_cases hstart hleft
  have hmin : W (min sent.stop right) := min_cases hsent hright
  have hstop : (sent.map e).stop = e sent.stop := rfl
  have hsacked : (board.map e).sackedBetween (e (max start left)) (e (min sent.stop right)) =
      board.sackedBetween (max start left) (min sent.stop right) := Scoreboard.sackedIn_map h hboard hmax hmin
  obtain ⟨hportion, hin⟩ := portion_map h now minRtt cumulative sent hd hmin
  unfold range
  simp only [hstop, h.max hstart hleft, h.min hsent hright, h.ge hmax hmin, hsacked, h.distance hmin hmax]
  by_cases hge : ge (max start left) (min sent.stop right) = true
  · rw [if_pos hge, if_pos hge]
    refine ⟨rfl, fun d' hd' => ?_⟩
    obtain rfl := Option.some.inj hd'
    exact hd
  · rw [if_neg hge, if_neg hge]
    cases board.sackedBetween (max start left) (min sent.stop right) with
    | none => exact ⟨rfl, fun d' hd' => by cases hd'⟩
    | some sacked =>
        cases distance (min sent.stop right) (max start left) with
        | none => exact ⟨rfl, fun d' hd' => by cases hd'⟩
        | some octets =>
            simp only [Option.bind_eq_bind, Option.bind_some]
            split
            · refine ⟨rfl, fun d' hd' => ?_⟩
              obtain rfl := Option.some.inj hd'
              exact hd
            · refine ⟨congrArg some hportion, fun d' hd' => ?_⟩
              obtain rfl := Option.some.inj hd'
              exact hin

theorem ranges_map {board : Scoreboard α} {left right start : α} {ranges : List (Sent α)} (now : Instant)
    (minRtt : Option Nat) (cumulative : Bool) (hd : d.In W) (hboard : Scoreboard.AllIn W board.ranges)
    (hleft : W left) (hright : W right) (hstart : W start) (hstops : StopsIn W ranges) :
    Delivery.ranges now (board.map e) minRtt (e left) (e right) cumulative (e start) (ranges.map (Sent.map e))
        (d.map e) =
      (Delivery.ranges now board minRtt left right cumulative start ranges d).map (Delivery.map e) ∧
    ∀ d', Delivery.ranges now board minRtt left right cumulative start ranges d = some d' → d'.In W := by
  induction ranges generalizing start d with
  | nil =>
      refine ⟨rfl, fun d' hd' => ?_⟩
      obtain rfl := Option.some.inj hd'
      exact hd
  | cons sent rest ih =>
      obtain ⟨hsent, hrest⟩ := stopsIn_cons.1 hstops
      obtain ⟨hmap, hin⟩ := range_map h now minRtt cumulative hd hboard hleft hright hstart hsent
      have hstop : (sent.map e).stop = e sent.stop := rfl
      simp only [List.map_cons, Delivery.ranges, hmap, hstop]
      cases hrange : d.range now board minRtt left right cumulative start sent with
      | none => exact ⟨rfl, fun d' hd' => by cases hd'⟩
      | some d' => exact ih (hin d' hrange) hsent hrest

theorem blocks_map {board : Scoreboard α} {log : SendLog α} {blocks : List (α × α)} (now : Instant)
    (minRtt : Option Nat) (hd : d.In W) (hboard : Scoreboard.AllIn W board.ranges) (hlog : log.AllIn W)
    (hblocks : Scoreboard.AllIn W blocks) :
    Delivery.blocks now (board.map e) minRtt (log.map e) (blocks.map (Scoreboard.both e)) (d.map e) =
      (Delivery.blocks now board minRtt log blocks d).map (Delivery.map e) ∧
    ∀ d', Delivery.blocks now board minRtt log blocks d = some d' → d'.In W := by
  induction blocks generalizing d with
  | nil =>
      refine ⟨rfl, fun d' hd' => ?_⟩
      obtain rfl := Option.some.inj hd'
      exact hd
  | cons block rest ih =>
      obtain ⟨⟨hleft, hright⟩, hrest⟩ := Scoreboard.allIn_cons.1 hblocks
      obtain ⟨hmap, hin⟩ := ranges_map h now minRtt false hd hboard hleft hright hlog.start hlog.stops
      have hmap' : Delivery.ranges now (board.map e) minRtt (e block.1) (e block.2) false (log.map e).start
          (log.map e).ranges (d.map e) =
          (Delivery.ranges now board minRtt block.1 block.2 false log.start log.ranges d).map (Delivery.map e) := hmap
      simp only [List.map_cons, Delivery.blocks, Scoreboard.both, hmap']
      cases hranges : Delivery.ranges now board minRtt block.1 block.2 false log.start log.ranges d with
      | none => exact ⟨rfl, fun d' hd' => by cases hd'⟩
      | some d' => exact ih (hin d' hranges) hrest

theorem gather_map {board : Scoreboard α} {log : SendLog α} {una ack : α} {sacks : List (α × α)} (now : Instant)
    (minRtt : Option Nat) (hboard : Scoreboard.AllIn W board.ranges) (hlog : log.AllIn W) (huna : W una)
    (hack : W ack) (hsacks : Scoreboard.AllIn W sacks) :
    gather now (board.map e) minRtt (log.map e) (e una) (e ack) (sacks.map (Scoreboard.both e)) =
      (gather now board minRtt log una ack sacks).map (Delivery.map e) ∧
    ∀ d, gather now board minRtt log una ack sacks = some d → d.In W := by
  have hempty : ({ minRtt := minRtt } : Delivery α).In W := fun latest hlatest => by cases hlatest
  obtain ⟨hmap, hin⟩ := ranges_map h now minRtt true hempty hboard huna hack hlog.start hlog.stops
  have hmap' : Delivery.ranges now (board.map e) minRtt (e una) (e ack) true (log.map e).start (log.map e).ranges
      { minRtt := minRtt } =
      (Delivery.ranges now board minRtt una ack true log.start log.ranges { minRtt := minRtt }).map
        (Delivery.map e) := hmap
  simp only [gather, hmap']
  cases hranges : Delivery.ranges now board minRtt una ack true log.start log.ranges { minRtt := minRtt } with
  | none => exact ⟨rfl, fun d hd => by cases hd⟩
  | some d => exact blocks_map h now minRtt (hin d hranges) hboard hlog hsacks

end Delivery

end Embedding

end SmolNet
