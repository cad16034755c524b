import SmolNet.Endpoint
import SmolNet.NativeSocket
import SmolNet.Rack
import SmolNet.Transition

/-!
# Path MTU discovery

What ICMP errors that report a path MTU do to the TCP connections of an interface.  Of a socket only the fields
that this reads or writes are here, and of its congestion controller only the MSS that it was told.
-/

namespace SmolNet.PathMtu

open Serial (SeqNumber lt ge)

/-! ## The socket -/

def ipv4HeaderLen : ℕ := 20

def ipv6HeaderLen : ℕ := 40

def tcpHeaderLen : ℕ := 20

def ipv4MinPathMtu : ℕ := 576

def ipv6MinPathMtu : ℕ := 1280

structure Tuple where
  localEndpoint : IpEndpoint
  remote : IpEndpoint
deriving DecidableEq, Repr

structure Socket where
  tuple : Option Tuple := none
  state : TcpState := .closed
  localSeqNo : SeqNumber := ⟨0⟩
  remoteLastSeq : SeqNumber := ⟨0⟩
  remoteMss : ℕ := 536
  pathMtu : Option ℕ := none
  controllerMss : ℕ := 0
  pendingFastRetransmit : Bool := false
  recover : Option SeqNumber := none
  recoveryRxtEnd : Option SeqNumber := none
  scoreboard : Scoreboard SeqNumber := .new
  rack : Rack SeqNumber := .new ⟨0⟩
  nagleSmallSegmentEnd : Option SeqNumber := none
  rttTimestamp : Option (Instant × SeqNumber) := none
deriving DecidableEq, Repr

inductive Outcome where
  | notMatched | rejected | unchanged | reduced
deriving DecidableEq, Repr

def headerLen : IpAddress → ℕ
  | .ipv4 _ => ipv4HeaderLen
  | .ipv6 _ => ipv6HeaderLen

def minPathMtu : IpAddress → ℕ
  | .ipv4 _ => ipv4MinPathMtu
  | .ipv6 _ => ipv6MinPathMtu

/-- The states in which data is sent. -/
def sending (state : TcpState) : Bool :=
  state = .established || state = .finWait1 || state = .closeWait || state = .closing || state = .lastAck

/-- What an ICMP error quotes: a segment's endpoints and its sequence number. -/
structure Quote where
  localEndpoint : IpEndpoint
  remote : IpEndpoint
  seq : SeqNumber
deriving DecidableEq, Repr

namespace Socket

/-- The largest IP packet that the connection sends. -/
def sendIpMtu (socket : Socket) (ipMtu : ℕ) : ℕ := socket.pathMtu.elim ipMtu fun pathMtu => min pathMtu ipMtu

/-- `none` where the subtraction underflows. -/
def mssAt (socket : Socket) (ipHeaderLen mtu : ℕ) : Option ℕ :=
  if ipHeaderLen + tcpHeaderLen ≤ mtu then some (min (mtu - ipHeaderLen - tcpHeaderLen) socket.remoteMss) else none

/-- Resends from the last ACK, as a retransmission timeout does. -/
def rewind (socket : Socket) (mss : ℕ) : Socket :=
  { socket with
    controllerMss := mss
    remoteLastSeq := socket.localSeqNo
    pendingFastRetransmit := false
    recover := none
    recoveryRxtEnd := none
    scoreboard := .new
    rack := socket.rack.onRewind
    nagleSmallSegmentEnd := none
    rttTimestamp := none }

def processPathMtu (socket : Socket) (ipMtu : ℕ) (quote : Quote) (mtu : ℕ) : Option (Outcome × Socket) :=
  if socket.tuple ≠ some ⟨quote.localEndpoint, quote.remote⟩ then some (.notMatched, socket)
  else
    let current := socket.sendIpMtu ipMtu
    let mtu := max mtu (minPathMtu quote.localEndpoint.addr)
    if current ≤ mtu then some (.unchanged, socket)
    else if !sending socket.state || lt quote.seq socket.localSeqNo || ge quote.seq socket.remoteLastSeq then
      some (.rejected, socket)
    else do
      let oldMss ← socket.mssAt (headerLen quote.localEndpoint.addr) current
      let mss ← socket.mssAt (headerLen quote.localEndpoint.addr) mtu
      let socket := { socket with pathMtu := some mtu }
      -- the remote's MSS may keep the segments within the path already
      if oldMss ≤ mss then return (.unchanged, socket)
      return (.reduced, socket.rewind mss)

end Socket

/-! ## The interface -/

structure Stats where
  received : ℕ := 0
  rejected : ℕ := 0
  reductions : ℕ := 0
deriving DecidableEq, Repr

/-- The interface, with the TCP sockets of its set. -/
structure Inner where
  ipMtu : ℕ
  ipAddrs : List IpCidr
  stats : Stats := {}
  sockets : List Socket := []
deriving DecidableEq, Repr

namespace Inner

/-- `any_ip` is left out: the interface is made with it unset, and the stack never sets it. -/
def hasIpAddr (s : Inner) (addr : IpAddress) : Bool := s.ipAddrs.any fun cidr => cidr.address == addr

/-- What the error quotes, if it has the start of a TCP header and the source is the interface's. -/
def quote (s : Inner) (src dst : IpAddress) (quoted : List UInt8) : Option Quote :=
  if quoted.length < 8 || !s.hasIpAddr src then none
  else some
    { localEndpoint := ⟨src, bigEndian (quoted.take 2)⟩
      remote := ⟨dst, bigEndian ((quoted.drop 2).take 2)⟩
      seq := ⟨.ofNat 32 (bigEndian ((quoted.drop 4).take 4))⟩ }

/-- Offers the error to each socket in turn, up to the first that it matches. -/
def offer (ipMtu : ℕ) (quote : Quote) (mtu : ℕ) : List Socket → Option (List Outcome × List Socket)
  | [] => some ([], [])
  | socket :: rest => do
      let (outcome, socket) ← socket.processPathMtu ipMtu quote mtu
      if outcome = .notMatched then
        let (outcomes, rest) ← offer ipMtu quote mtu rest
        return (outcome :: outcomes, socket :: rest)
      else return ([outcome], socket :: rest)

/-- The outcome that counts. -/
def outcome (outcomes : List Outcome) : Outcome := (outcomes.find? fun o => o ≠ .notMatched).getD .notMatched

def count (stats : Stats) : Outcome → Stats
  | .notMatched | .rejected => { stats with rejected := stats.rejected + 1 }
  | .reduced => { stats with reductions := stats.reductions + 1 }
  | .unchanged => stats

/-- `reject_path_mtu_error`. -/
def rejectPathMtuError (s : Inner) : Inner :=
  { s with stats := { s.stats with received := s.stats.received + 1, rejected := s.stats.rejected + 1 } }

def processTcpPathMtu (s : Inner) (src dst : IpAddress) (quoted : List UInt8) (mtu : ℕ) : Option Inner :=
  match s.quote src dst quoted with
  | none => some s.rejectPathMtuError
  | some quote => do
      let (outcomes, sockets) ← offer s.ipMtu quote mtu s.sockets
      let stats := { s.stats with received := s.stats.received + 1 }
      return { s with stats := count stats (outcome outcomes), sockets := sockets }

end Inner

/-! ## A rewind deems everything lost -/

section AllLost

variable {α : Type}

def AllLost (ranges : List (Sent α)) : Prop := ∀ sent ∈ ranges, sent.lost = true

theorem allLost_cons {sent : Sent α} {rest : List (Sent α)} :
    AllLost (sent :: rest) ↔ sent.lost = true ∧ AllLost rest := List.forall_mem_cons

theorem AllLost.push {built : List (Sent α)} {sent : Sent α} (h : AllLost built) (hsent : sent.lost = true) :
    AllLost (push built sent) := by
  cases built with
  | nil => simpa [AllLost, SmolNet.push] using hsent
  | cons last earlier =>
      obtain ⟨hlast, hearlier⟩ := allLost_cons.1 h
      by_cases hjoins : last.joins sent = true
      · simp only [SmolNet.push, hjoins, if_true]
        exact allLost_cons.2 ⟨hlast, hearlier⟩
      · simp only [SmolNet.push, hjoins]
        exact allLost_cons.2 ⟨hsent, h⟩

theorem AllLost.build {pieces : List (Sent α)} (h : AllLost pieces) : AllLost (build pieces) := by
  have hfold : ∀ built, AllLost built → AllLost (pieces.foldl SmolNet.push built) := by
    induction pieces with
    | nil => exact fun built hbuilt => hbuilt
    | cons sent rest ih =>
        obtain ⟨hsent, hrest⟩ := allLost_cons.1 h
        exact fun built hbuilt => ih hrest _ (hbuilt.push hsent)
  intro sent hmem
  exact hfold [] (fun _ hnil => by cases hnil) sent (List.mem_reverse.1 hmem)

theorem AllLost.fuseAt {ranges : List (Sent α)} (h : AllLost ranges) (i : ℕ) : AllLost (fuseAt i ranges) := by
  induction ranges generalizing i with
  | nil => cases i <;> exact h
  | cons a rest ih =>
      obtain ⟨ha, hrest⟩ := allLost_cons.1 h
      cases i with
      | zero =>
          cases rest with
          | nil => exact h
          | cons b rest =>
              obtain ⟨hb, hrest⟩ := allLost_cons.1 hrest
              exact allLost_cons.2 ⟨Bool.and_eq_true_iff.2 ⟨ha, hb⟩, hrest⟩
      | succ i => exact allLost_cons.2 ⟨ha, ih hrest i⟩

theorem AllLost.compactBy {ranges : List (Sent α)} (h : AllLost ranges) (n : ℕ) : AllLost (compactBy n ranges) := by
  induction n generalizing ranges with
  | zero => exact h
  | succ n ih => exact ih (h.fuseAt (closest ranges))

theorem allLost_markAllLost (log : SendLog α) : AllLost log.markAllLost.ranges := by
  have hpieces : AllLost (log.ranges.map SendLog.lostPiece) := by
    intro sent hmem
    obtain ⟨old, -, rfl⟩ := List.mem_map.1 hmem
    rfl
  exact hpieces.build.compactBy _

end AllLost

/-! ## What one error does to a socket -/

theorem ge_eq_not_lt {α : Type} [Ord α] (a b : α) : ge a b = !lt a b := by
  unfold ge lt
  cases compare a b <;> rfl

/-- The quoted segment is in flight: `SND.UNA <= seq < SND.NXT`. -/
def InFlight (socket : Socket) (quote : Quote) : Prop :=
  ge quote.seq socket.localSeqNo = true ∧ lt quote.seq socket.remoteLastSeq = true

/-- The error quotes the connection's endpoints. -/
def Matches (socket : Socket) (quote : Quote) : Prop := socket.tuple = some ⟨quote.localEndpoint, quote.remote⟩

/-- What an error can do to a socket. -/
inductive Effect (socket : Socket) (ipMtu : ℕ) (quote : Quote) : Outcome → Socket → Prop
  | notMatched : ¬ Matches socket quote → Effect socket ipMtu quote .notMatched socket
  | rejected : Matches socket quote → Effect socket ipMtu quote .rejected socket
  | unchanged : Matches socket quote → Effect socket ipMtu quote .unchanged socket
  | lowered {mtu : ℕ} : Matches socket quote → InFlight socket quote → minPathMtu quote.localEndpoint.addr ≤ mtu →
      mtu < socket.sendIpMtu ipMtu → Effect socket ipMtu quote .unchanged { socket with pathMtu := some mtu }
  | reduced {mtu mss : ℕ} : Matches socket quote → InFlight socket quote →
      minPathMtu quote.localEndpoint.addr ≤ mtu → mtu < socket.sendIpMtu ipMtu →
      Effect socket ipMtu quote .reduced ({ socket with pathMtu := some mtu }.rewind mss)

/-- The headers fit into the least path MTU. -/
theorem headers_le (addr : IpAddress) : headerLen addr + tcpHeaderLen ≤ minPathMtu addr := by
  cases addr with
  | ipv4 bits => exact (by decide : ipv4HeaderLen + tcpHeaderLen ≤ ipv4MinPathMtu)
  | ipv6 bits => exact (by decide : ipv6HeaderLen + tcpHeaderLen ≤ ipv6MinPathMtu)

theorem mssAt_of_le (socket : Socket) {addr : IpAddress} {mtu : ℕ} (h : minPathMtu addr ≤ mtu) :
    ∃ mss, socket.mssAt (headerLen addr) mtu = some mss :=
  ⟨_, if_pos ((headers_le addr).trans h)⟩

/-- The subtractions of `process_path_mtu` do not underflow. -/
theorem processPathMtu_effect (socket : Socket) (ipMtu : ℕ) (quote : Quote) (mtu : ℕ) :
    ∃ outcome socket', socket.processPathMtu ipMtu quote mtu = some (outcome, socket') ∧
      Effect socket ipMtu quote outcome socket' := by
  unfold Socket.processPathMtu
  split
  · rename_i hother
    exact ⟨_, _, rfl, .notMatched hother⟩
  · rename_i hmatch
    have hmatch : Matches socket quote := not_not.1 hmatch
    dsimp only
    split
    · exact ⟨_, _, rfl, .unchanged hmatch⟩
    · rename_i hlower
      split
      · exact ⟨_, _, rfl, .rejected hmatch⟩
      · rename_i hvalid
        simp only [Bool.or_eq_true, not_or, Bool.not_eq_true] at hvalid
        have hflight : InFlight socket quote := by
          refine ⟨?_, ?_⟩
          · rw [ge_eq_not_lt, hvalid.1.2]
            rfl
          · have hnot := hvalid.2
            rw [ge_eq_not_lt] at hnot
            simpa using hnot
        have hfloor : minPathMtu quote.localEndpoint.addr ≤ max mtu (minPathMtu quote.localEndpoint.addr) :=
          le_max_right _ _
        have hlt : max mtu (minPathMtu quote.localEndpoint.addr) < socket.sendIpMtu ipMtu := not_le.1 hlower
        obtain ⟨oldMss, hold⟩ := mssAt_of_le socket (hfloor.trans hlt.le)
        obtain ⟨mss, hmss⟩ := mssAt_of_le socket hfloor
        rw [hold, hmss]
        simp only [Option.bind_eq_bind, Option.bind_some]
        split
        · exact ⟨_, _, rfl, .lowered hmatch hflight hfloor hlt⟩
        · exact ⟨_, _, rfl, .reduced hmatch hflight hfloor hlt⟩

section Effect

variable {socket socket' : Socket} {ipMtu : ℕ} {quote : Quote} {outcome : Outcome}

theorem Effect.tuple (h : Effect socket ipMtu quote outcome socket') : socket'.tuple = socket.tuple := by
  cases h <;> rfl

/-- The path MTU of a connection is not below the least one of its family. -/
def Floored (socket : Socket) : Prop :=
  ∀ tuple mtu, socket.tuple = some tuple → socket.pathMtu = some mtu →
    minPathMtu tuple.localEndpoint.addr ≤ mtu

theorem Effect.floored (h : Effect socket ipMtu quote outcome socket') (hfloored : Floored socket) :
    Floored socket' := by
  have hset : ∀ mtu, Matches socket quote → minPathMtu quote.localEndpoint.addr ≤ mtu →
      ∀ tuple mtu', socket.tuple = some tuple → some mtu = some mtu' →
        minPathMtu tuple.localEndpoint.addr ≤ mtu' := by
    intro mtu hmatch hmtu tuple mtu' htuple hsame
    obtain rfl := Option.some.inj (hmatch.symm.trans htuple)
    obtain rfl := Option.some.inj hsame
    exact hmtu
  cases h with
  | notMatched => exact hfloored
  | rejected => exact hfloored
  | unchanged => exact hfloored
  | lowered hmatch _ hmtu _ => exact hset _ hmatch hmtu
  | reduced hmatch _ hmtu _ => exact hset _ hmatch hmtu

/-- What the connection sends gets smaller, or stays as it was; a reduction makes it smaller. -/
theorem Effect.sendIpMtu (h : Effect socket ipMtu quote outcome socket') :
    (socket'.sendIpMtu ipMtu = socket.sendIpMtu ipMtu ∧ outcome ≠ .reduced) ∨
      (socket'.sendIpMtu ipMtu < socket.sendIpMtu ipMtu ∧ Matches socket quote ∧ InFlight socket quote) := by
  have hset : ∀ mtu, mtu < socket.sendIpMtu ipMtu → min mtu ipMtu < socket.sendIpMtu ipMtu := by
    intro mtu hlt
    exact lt_of_le_of_lt (min_le_left _ _) hlt
  cases h with
  | notMatched => exact .inl ⟨rfl, by decide⟩
  | rejected => exact .inl ⟨rfl, by decide⟩
  | unchanged => exact .inl ⟨rfl, by decide⟩
  | lowered hmatch hflight _ hlt => exact .inr ⟨hset _ hlt, hmatch, hflight⟩
  | reduced hmatch hflight _ hlt => exact .inr ⟨hset _ hlt, hmatch, hflight⟩

/-- Everything unacknowledged is sent again. -/
def Rewound (socket : Socket) : Prop :=
  socket.remoteLastSeq = socket.localSeqNo ∧ socket.scoreboard = .new ∧ AllLost socket.rack.log.ranges

theorem Effect.rewound (h : Effect socket ipMtu quote .reduced socket') : Rewound socket' := by
  cases h with
  | reduced => exact ⟨rfl, rfl, allLost_markAllLost _⟩

end Effect

/-! ## What one error does to the interface -/

/-- Each socket sees the error or not. -/
theorem offer_spec (ipMtu : ℕ) (quote : Quote) (mtu : ℕ) (sockets : List Socket) :
    ∃ outcomes sockets', Inner.offer ipMtu quote mtu sockets = some (outcomes, sockets') ∧
      sockets'.length = sockets.length ∧
      ∀ (i : ℕ) (socket : Socket), sockets[i]? = some socket → ∃ socket', sockets'[i]? = some socket' ∧
        (outcomes[i]? = none ∧ socket' = socket ∨
          ∃ outcome, outcomes[i]? = some outcome ∧ Effect socket ipMtu quote outcome socket') := by
  induction sockets with
  | nil => exact ⟨[], [], rfl, rfl, fun i socket h => by cases h⟩
  | cons first rest ih =>
      obtain ⟨outcome, first', hfirst, heffect⟩ := processPathMtu_effect first ipMtu quote mtu
      obtain ⟨outcomes, rest', hrest, hlength, hall⟩ := ih
      by_cases hnot : outcome = .notMatched
      · refine ⟨outcome :: outcomes, first' :: rest', ?_, by simp [hlength], ?_⟩
        · simp only [Inner.offer, hfirst, hrest, Option.bind_eq_bind, Option.bind_some, if_pos hnot]
          rfl
        · intro i socket hsocket
          cases i with
          | zero =>
              obtain rfl := Option.some.inj hsocket
              exact ⟨first', rfl, .inr ⟨outcome, rfl, heffect⟩⟩
          | succ i => exact hall i socket hsocket
      · refine ⟨[outcome], first' :: rest, ?_, by simp, ?_⟩
        · simp only [Inner.offer, hfirst, Option.bind_eq_bind, Option.bind_some, if_neg hnot]
          rfl
        · intro i socket hsocket
          cases i with
          | zero =>
              obtain rfl := Option.some.inj hsocket
              exact ⟨first', rfl, .inr ⟨outcome, rfl, heffect⟩⟩
          | succ i => exact ⟨socket, hsocket, .inl ⟨rfl, rfl⟩⟩

/-- An error is received once, and counted at most once. -/
structure Counted (before after : Stats) : Prop where
  received : after.received = before.received + 1
  once : (after.rejected = before.rejected + 1 ∧ after.reductions = before.reductions) ∨
    (after.rejected = before.rejected ∧ after.reductions = before.reductions + 1) ∨
    (after.rejected = before.rejected ∧ after.reductions = before.reductions)

theorem counted_count (stats : Stats) (outcome : Outcome) :
    Counted stats (Inner.count { stats with received := stats.received + 1 } outcome) := by
  cases outcome with
  | notMatched => exact ⟨rfl, .inl ⟨rfl, rfl⟩⟩
  | rejected => exact ⟨rfl, .inl ⟨rfl, rfl⟩⟩
  | unchanged => exact ⟨rfl, .inr (.inr ⟨rfl, rfl⟩)⟩
  | reduced => exact ⟨rfl, .inr (.inl ⟨rfl, rfl⟩)⟩

/-- What the error did to the socket at place `i`, if it got there. -/
def Inner.outcomeAt (s : Inner) (i : ℕ) (src dst : IpAddress) (quoted : List UInt8) (mtu : ℕ) : Option Outcome :=
  (s.quote src dst quoted).bind fun quote => (Inner.offer s.ipMtu quote mtu s.sockets).bind fun result => result.1[i]?

theorem processTcpPathMtu_spec (s : Inner) (src dst : IpAddress) (quoted : List UInt8) (mtu : ℕ) :
    ∃ s', s.processTcpPathMtu src dst quoted mtu = some s' ∧ s'.ipMtu = s.ipMtu ∧ Counted s.stats s'.stats ∧
      s'.sockets.length = s.sockets.length ∧
      ∀ (i : ℕ) (socket : Socket), s.sockets[i]? = some socket → ∃ socket', s'.sockets[i]? = some socket' ∧
        (s.outcomeAt i src dst quoted mtu = none ∧ socket' = socket ∨
          ∃ quote outcome, s.quote src dst quoted = some quote ∧
            s.outcomeAt i src dst quoted mtu = some outcome ∧ Effect socket s.ipMtu quote outcome socket') := by
  unfold Inner.processTcpPathMtu Inner.outcomeAt
  cases hquote : s.quote src dst quoted with
  | none =>
      refine ⟨_, rfl, rfl, ⟨rfl, .inl ⟨rfl, rfl⟩⟩, rfl, fun i socket hsocket => ?_⟩
      exact ⟨socket, hsocket, .inl ⟨rfl, rfl⟩⟩
  | some quote =>
      obtain ⟨outcomes, sockets', hoffer, hlength, hall⟩ := offer_spec s.ipMtu quote mtu s.sockets
      refine ⟨{ s with
          stats := Inner.count { s.stats with received := s.stats.received + 1 } (Inner.outcome outcomes)
          sockets := sockets' }, ?_, rfl, counted_count _ _, hlength, fun i socket hsocket => ?_⟩
      · simp only [hoffer, Option.bind_eq_bind, Option.bind_some]
        rfl
      obtain ⟨socket', hsocket', hcase⟩ := hall i socket hsocket
      refine ⟨socket', hsocket', ?_⟩
      simp only [hoffer, Option.bind_some]
      rcases hcase with hnone | ⟨outcome, houtcome, heffect⟩
      · exact .inl hnone
      · exact .inr ⟨quote, outcome, rfl, houtcome, heffect⟩

/-! ## Runs -/

/-- What happens at the interface.  Sends, acknowledgments and everything else but ICMP errors may change the
sockets as they like, so long as none gets a path MTU. -/
inductive Event where
  | error (src dst : IpAddress) (quoted : List UInt8) (mtu : ℕ)
  | malformed
  | other (sockets : List Socket)
deriving DecidableEq, Repr

/-- The interface, and how often the connection at one place was reduced. -/
structure Watched where
  inner : Inner
  reduced : ℕ := 0
deriving DecidableEq, Repr

namespace Watched

def step (i : ℕ) (s : Watched) : Event → Option Watched
  | .error src dst quoted mtu =>
      (s.inner.processTcpPathMtu src dst quoted mtu).map fun inner =>
        ⟨inner, if s.inner.outcomeAt i src dst quoted mtu = some .reduced then s.reduced + 1 else s.reduced⟩
  | .malformed => some { s with inner := s.inner.rejectPathMtuError }
  | .other sockets => some { s with inner := { s.inner with sockets := sockets } }

/-- Nothing but `process_path_mtu` and `reset` writes a socket's path MTU: the connection at place `i` stays the
connection it is, and any other socket is not connected, has no path MTU, or is as before. -/
def Keeps (i : ℕ) (before after : List Socket) : Prop :=
  (after[i]?.map fun c => (c.tuple, c.pathMtu)) = (before[i]?.map fun c => (c.tuple, c.pathMtu)) ∧
    ∀ c ∈ after, c.tuple = none ∨ c.pathMtu = none ∨
      ∃ c' ∈ before, c.tuple = c'.tuple ∧ c.pathMtu = c'.pathMtu

instance (i : ℕ) (before after : List Socket) : Decidable (Keeps i before after) :=
  inferInstanceAs (Decidable (_ ∧ _))

def Allowed (i : ℕ) (s : Watched) : Event → Prop
  | .other sockets => Keeps i s.inner.sockets sockets
  | _ => True

instance (i : ℕ) (s : Watched) (event : Event) : Decidable (Allowed i s event) :=
  match event with
  | .other sockets => inferInstanceAs (Decidable (Keeps i s.inner.sockets sockets))
  | .error _ _ _ _ => inferInstanceAs (Decidable True)
  | .malformed => inferInstanceAs (Decidable True)

/-- The connection at place `i` is new, and no other has a path MTU below the least one. -/
def Opened (i : ℕ) (tuple : Tuple) (ipMtu : ℕ) (s : Watched) : Prop :=
  s.inner.ipMtu = ipMtu ∧ s.reduced = 0 ∧ (∀ c ∈ s.inner.sockets, Floored c) ∧
    ∃ c, s.inner.sockets[i]? = some c ∧ c.tuple = some tuple ∧ c.pathMtu = none

abbrev Reaches (i : ℕ) (tuple : Tuple) (ipMtu : ℕ) (s : Watched) : Prop :=
  Transition.Reaches (step i) (Allowed i) (Opened i tuple ipMtu) s

/-- What holds in every state: each reduction has made the packets smaller. -/
structure Shrinking (i : ℕ) (tuple : Tuple) (ipMtu : ℕ) (s : Watched) : Prop where
  ipMtu_eq : s.inner.ipMtu = ipMtu
  floored : ∀ c ∈ s.inner.sockets, Floored c
  connection : ∃ c, s.inner.sockets[i]? = some c ∧ c.tuple = some tuple ∧ c.sendIpMtu ipMtu + s.reduced ≤ ipMtu

variable {i ipMtu : ℕ} {tuple : Tuple} {s s' : Watched}

theorem Shrinking.error (h : Shrinking i tuple ipMtu s) (src dst : IpAddress) (quoted : List UInt8) (mtu : ℕ) :
    ∃ s', step i s (.error src dst quoted mtu) = some s' ∧ Shrinking i tuple ipMtu s' := by
  obtain ⟨inner', hinner', hipMtu, -, hlength, hall⟩ := processTcpPathMtu_spec s.inner src dst quoted mtu
  refine ⟨_, by rw [step, hinner']; rfl, hipMtu.trans h.ipMtu_eq, ?_, ?_⟩
  · intro c' hc'
    obtain ⟨j, hj⟩ := List.mem_iff_getElem?.1 hc'
    have hlt : j < s.inner.sockets.length := hlength ▸ (List.getElem?_eq_some_iff.1 hj).1
    have hc := List.getElem?_eq_getElem hlt
    obtain ⟨c'', hc'', hcase⟩ := hall j _ hc
    obtain rfl := Option.some.inj (hj.symm.trans hc'')
    have hfloored := h.floored _ (List.mem_of_getElem? hc)
    rcases hcase with ⟨-, hsame⟩ | ⟨quote, outcome, -, -, heffect⟩
    · rw [hsame]
      exact hfloored
    · exact heffect.floored hfloored
  · obtain ⟨c, hc, htuple, hsum⟩ := h.connection
    obtain ⟨c', hc', hcase⟩ := hall i c hc
    refine ⟨c', hc', ?_⟩
    rcases hcase with ⟨hnone, rfl⟩ | ⟨quote, outcome, -, houtcome, heffect⟩
    · rw [hnone, if_neg (by decide)]
      exact ⟨htuple, hsum⟩
    · refine ⟨heffect.tuple.trans htuple, ?_⟩
      rw [h.ipMtu_eq] at heffect
      rw [houtcome]
      rcases heffect.sendIpMtu with ⟨hsame, hne⟩ | ⟨hlt, -⟩
      · rw [if_neg fun heq => hne (Option.some.inj heq), hsame]
        exact hsum
      · dsimp only
        split <;> omega

theorem Shrinking.step (h : Shrinking i tuple ipMtu s) {event : Event} (hallowed : Allowed i s event)
    (hstep : step i s event = some s') : Shrinking i tuple ipMtu s' := by
  cases event with
  | error src dst quoted mtu =>
      obtain ⟨t, ht, hshrinking⟩ := h.error src dst quoted mtu
      obtain rfl := Option.some.inj (ht.symm.trans hstep)
      exact hshrinking
  | malformed =>
      obtain rfl := Option.some.inj hstep
      exact ⟨h.ipMtu_eq, h.floored, h.connection⟩
  | other sockets =>
      obtain rfl := Option.some.inj hstep
      obtain ⟨hsame, hothers⟩ := hallowed
      refine ⟨h.ipMtu_eq, ?_, ?_⟩
      · intro c hc tuple' mtu htuple hmtu
        rcases hothers c hc with hnone | hnone | ⟨c', hc', htuple', hmtu'⟩
        · rw [hnone] at htuple
          cases htuple
        · rw [hnone] at hmtu
          cases hmtu
        · exact h.floored c' hc' tuple' mtu (htuple' ▸ htuple) (hmtu' ▸ hmtu)
      · obtain ⟨c, hc, htuple, hsum⟩ := h.connection
        rw [hc, Option.map_some, Option.map_eq_some_iff] at hsame
        obtain ⟨c', hc', heq⟩ := hsame
        obtain ⟨htuple', hmtu'⟩ := Prod.mk.inj heq
        refine ⟨c', hc', htuple'.trans htuple, ?_⟩
        rw [Socket.sendIpMtu, hmtu']
        exact hsum

theorem Reaches.shrinking (h : Reaches i tuple ipMtu s) : Shrinking i tuple ipMtu s := by
  refine h.invariant ?_ fun s event s' hs hallowed hstep => hs.step hallowed hstep
  rintro s ⟨hipMtu, hreduced, hfloored, c, hc, htuple, hnone⟩
  refine ⟨hipMtu, hfloored, c, hc, htuple, ?_⟩
  rw [Socket.sendIpMtu, hnone, hreduced]
  exact le_rfl

theorem Floored.le_sendIpMtu {c : Socket} (h : Floored c) (htuple : c.tuple = some tuple) (ipMtu : ℕ) :
    min ipMtu (minPathMtu tuple.localEndpoint.addr) ≤ c.sendIpMtu ipMtu := by
  unfold Socket.sendIpMtu
  cases hmtu : c.pathMtu with
  | none => exact min_le_left _ _
  | some mtu => exact le_min ((min_le_right _ _).trans (h tuple mtu htuple hmtu)) (min_le_left _ _)

/-- Errors that report a path MTU only shrink a connection's packets, never below the least path MTU of its
family, and only if they quote data that is in flight; so there are only so many reductions.  Each is followed
by a resend of everything, and no error makes a subtraction underflow or is counted twice. -/
theorem path_mtu_only_shrinks (h : Reaches i tuple ipMtu s) :
    ∃ c, s.inner.sockets[i]? = some c ∧ c.tuple = some tuple ∧
      min ipMtu (minPathMtu tuple.localEndpoint.addr) ≤ c.sendIpMtu ipMtu ∧
      s.reduced ≤ ipMtu - minPathMtu tuple.localEndpoint.addr ∧
      (∀ event s', Allowed i s event → step i s event = some s' → ∃ c', s'.inner.sockets[i]? = some c' ∧
        c'.sendIpMtu ipMtu ≤ c.sendIpMtu ipMtu ∧
        (c'.sendIpMtu ipMtu ≠ c.sendIpMtu ipMtu → ∃ src dst quoted mtu quote,
          event = .error src dst quoted mtu ∧ s.inner.quote src dst quoted = some quote ∧
          tuple = ⟨quote.localEndpoint, quote.remote⟩ ∧ InFlight c quote)) ∧
      ∀ src dst quoted mtu, ∃ s' c', step i s (.error src dst quoted mtu) = some s' ∧
        s'.inner.sockets[i]? = some c' ∧ Counted s.inner.stats s'.inner.stats ∧
        (s.inner.outcomeAt i src dst quoted mtu = some .reduced → Rewound c') := by
  have hs := Reaches.shrinking h
  obtain ⟨c, hc, htuple, hsum⟩ := hs.connection
  have hle := Floored.le_sendIpMtu (hs.floored c (List.mem_of_getElem? hc)) htuple ipMtu
  refine ⟨c, hc, htuple, hle, by omega, ?_, ?_⟩
  · intro event s' hallowed hstep
    cases event with
    | error src dst quoted mtu =>
        obtain ⟨inner', hinner', -, -, -, hall⟩ := processTcpPathMtu_spec s.inner src dst quoted mtu
        rw [step, hinner'] at hstep
        obtain rfl := Option.some.inj hstep
        obtain ⟨c', hc', hcase⟩ := hall i c hc
        refine ⟨c', hc', ?_⟩
        rcases hcase with ⟨-, rfl⟩ | ⟨quote, outcome, hquote, -, heffect⟩
        · exact ⟨le_rfl, fun hne => absurd rfl hne⟩
        · rw [hs.ipMtu_eq] at heffect
          rcases heffect.sendIpMtu with ⟨hsame, -⟩ | ⟨hlt, hmatch, hflight⟩
          · exact ⟨hsame.le, fun hne => absurd hsame hne⟩
          · refine ⟨hlt.le, fun _ => ⟨src, dst, quoted, mtu, quote, rfl, hquote, ?_, hflight⟩⟩
            exact Option.some.inj (htuple.symm.trans hmatch)
    | malformed =>
        obtain rfl := Option.some.inj hstep
        exact ⟨c, hc, le_rfl, fun hne => absurd rfl hne⟩
    | other sockets =>
        obtain rfl := Option.some.inj hstep
        have hsame := hallowed.1
        rw [hc, Option.map_some, Option.map_eq_some_iff] at hsame
        obtain ⟨c', hc', heq⟩ := hsame
        have hmtu : c'.sendIpMtu ipMtu = c.sendIpMtu ipMtu := by
          rw [Socket.sendIpMtu, (Prod.mk.inj heq).2]
          rfl
        exact ⟨c', hc', hmtu.le, fun hne => absurd hmtu hne⟩
  · intro src dst quoted mtu
    obtain ⟨inner', hinner', -, hcounted, -, hall⟩ := processTcpPathMtu_spec s.inner src dst quoted mtu
    obtain ⟨c', hc', hcase⟩ := hall i c hc
    refine ⟨_, c', by rw [step, hinner']; rfl, hc', hcounted, fun hreduced => ?_⟩
    rcases hcase with ⟨hnone, -⟩ | ⟨quote, outcome, -, houtcome, heffect⟩
    · rw [hnone] at hreduced
      cases hreduced
    · obtain rfl := Option.some.inj (houtcome.symm.trans hreduced)
      exact heffect.rewound

/-- A connection from `10.0.0.1:80` to `10.0.0.2:1024` with a thousand octets in flight. -/
def established : Watched where
  inner :=
    { ipMtu := 1500
      ipAddrs := [⟨.ipv4 0x0a000001, 24⟩]
      sockets := [
        { tuple := some ⟨⟨.ipv4 0x0a000001, 80⟩, ⟨.ipv4 0x0a000002, 1024⟩⟩
          state := .established
          remoteMss := 1460
          localSeqNo := ⟨100⟩
          remoteLastSeq := ⟨1100⟩ }] }

/-- An error that reports 1000 octets for the segment at 100 reduces the connection. -/
theorem path_mtu_only_shrinks_to_1000 :
    ∃ s c, Reaches 0 ⟨⟨.ipv4 0x0a000001, 80⟩, ⟨.ipv4 0x0a000002, 1024⟩⟩ 1500 s ∧ s.reduced = 1 ∧
      s.inner.sockets[0]? = some c ∧ c.sendIpMtu 1500 = 1000 ∧ min 1500 576 ≤ c.sendIpMtu 1500 ∧
      s.reduced ≤ 1500 - 576 := by
  have hstart : Reaches 0 ⟨⟨.ipv4 0x0a000001, 80⟩, ⟨.ipv4 0x0a000002, 1024⟩⟩ 1500 established := by
    refine .start ⟨rfl, rfl, ?_, _, rfl, rfl, rfl⟩
    intro c hc tuple mtu _ hmtu
    obtain rfl := List.mem_singleton.1 hc
    cases hmtu
  have hrun : (Transition.execute (step 0) (Allowed 0) established
      [.error (.ipv4 0x0a000001) (.ipv4 0x0a000002) [0, 80, 4, 0, 0, 0, 0, 100] 1000]).map
        (fun s => (s.reduced, s.inner.sockets[0]?.map fun c => c.sendIpMtu 1500)) = some (1, some 1000) := by
    decide +kernel
  obtain ⟨s, hs, hview⟩ := hstart.observe hrun
  obtain ⟨hreduced, hmtu⟩ := Prod.mk.inj hview
  obtain ⟨c, hc, -, hle, hbound, -⟩ := path_mtu_only_shrinks hs
  rw [hc] at hmtu
  exact ⟨s, c, hs, hreduced, hc, Option.some.inj hmtu, hle, hbound⟩

end Watched

end SmolNet.PathMtu
