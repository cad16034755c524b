import SmolNet.AcceptQueues
import SmolNet.PortRuns

/-!
# Four-tuples of live connections

A live connection's native socket has the four-tuple of its record, and no other live socket has it.
smoltcp is assumed to open no second connection for the four-tuple of a live socket; the rest follows
from the ports that sockets hold.  A socket that is bound to the port of a closed listener may still
connect to the peer of a connection which that listener had promoted: the port check passes over those.
-/

namespace SmolNet

open Std TreeMap Ownership

/-! ## Sockets, records and pools -/

/-- A socket that listens has no four-tuple, and no two live sockets have the same. -/
structure SocketSet.Apart (sockets : SocketSet) : Prop where
  listens : ∀ (handle : Nat) (socket : TcpSocket), sockets[handle]? = some (.tcp socket) →
    socket.state = .listen → socket.tuple = none
  apart : ∀ (handle other : Nat) (a b : TcpSocket) (tuple : IpEndpoint × IpEndpoint),
    sockets[handle]? = some (.tcp a) → sockets[other]? = some (.tcp b) → a.state ≠ .closed →
    b.state ≠ .closed → a.tuple = some tuple → b.tuple = some tuple → handle = other

/-- The live socket of a record has the record's four-tuple; one that connects has no port to listen on
again. -/
structure TcpRecord.Linked (record : TcpRecord) (socket : TcpSocket) : Prop where
  tuple : ∃ localEndpoint remote, record.localEndpoint = some localEndpoint ∧
    record.remote = some remote ∧ socket.tuple = some (localEndpoint, remote)
  active : socket.state = .synSent ∨ socket.state = .synReceived → socket.listenEndpoint.port = 0

/-- The endpoint has the port and the family of a listener. -/
def ListenerRecord.Offers (listener : ListenerRecord) (endpoint : IpListenEndpoint) : Prop :=
  endpoint.port = listener.localEndpoint.port ∧ ∃ addr, endpoint.addr = some addr ∧
    AddressFamily.of addr = AddressFamily.of listener.localEndpoint.addr

/-- A live pool member listens for its listener, and its four-tuple is on the listener's port. -/
structure ListenerRecord.Linked (listener : ListenerRecord) (socket : TcpSocket) : Prop where
  offers : listener.Offers socket.listenEndpoint
  tuple : ∀ localEndpoint remote, socket.tuple = some (localEndpoint, remote) →
    localEndpoint.port = listener.localEndpoint.port ∧
      AddressFamily.of localEndpoint.addr = AddressFamily.of listener.localEndpoint.addr

/-- The socket of a record that is live is linked to it. -/
def RecordsLinked (sockets : SocketSet) (records : ExtTreeMap Nat TcpRecord) : Prop :=
  All (fun _ record => ∀ socket, sockets[record.handle]? = some (.tcp socket) → socket.state ≠ .closed →
    record.Linked socket) records

def PoolsLinked (sockets : SocketSet) (listeners : ExtTreeMap Nat ListenerRecord) : Prop :=
  All (fun _ listener => listener.Offers listener.listenEndpoint ∧ ∀ handle ∈ listener.pool, ∀ socket,
    sockets[handle]? = some (.tcp socket) → socket.state ≠ .closed → listener.Linked socket) listeners

/-- What one socket of a set can become, for its four-tuple. -/
inductive Follows (listeners : ExtTreeMap Nat ListenerRecord) (after : SocketSet) (handle : Nat)
    (a b : TcpSocket) : Prop
  | ended (h : b.state = .closed)
  | kept (hlive : a.state ≠ .closed) (htuple : b.tuple = a.tuple)
      (hendpoint : b.listenEndpoint = a.listenEndpoint) (hlisten : b.state = .listen → a.state = .listen)
      (hactive : b.state = .synSent ∨ b.state = .synReceived → a.state = .synSent ∨ a.state = .synReceived)
  | opens {localEndpoint remote : IpEndpoint} (hlisten : a.state = .listen) (hleft : b.state ≠ .listen)
      (htuple : b.tuple = some (localEndpoint, remote)) (hport : localEndpoint.port = a.listenEndpoint.port)
      (haddr : ∀ addr, a.listenEndpoint.addr = some addr → localEndpoint.addr = addr)
      (hendpoint : b.listenEndpoint = a.listenEndpoint)
      (hapart : ∀ (other : Nat) (c : TcpSocket), other ≠ handle → after[other]? = some (.tcp c) →
        c.state ≠ .closed → c.tuple ≠ b.tuple)
  | relistens (hstate : a.state = .synReceived) (hport : a.listenEndpoint.port ≠ 0)
      (hlisten : b.state = .listen) (htuple : b.tuple = none)
      (hendpoint : b.listenEndpoint = a.listenEndpoint)
  | retargets {id : Nat} {listener : ListenerRecord} (hlistener : listeners[id]? = some listener)
      (hpool : handle ∈ listener.pool) (hlisten : b.state = .listen) (htuple : b.tuple = none)
      (hoffers : listener.Offers b.listenEndpoint)

/-- Every TCP socket of the second set follows one of the first. -/
def SocketSet.Follow (listeners : ExtTreeMap Nat ListenerRecord) (before after : SocketSet) : Prop :=
  ∀ (handle : Nat) (b : TcpSocket), after[handle]? = some (.tcp b) →
    ∃ a, before[handle]? = some (.tcp a) ∧ Follows listeners after handle a b

section

variable {listeners : ExtTreeMap Nat ListenerRecord} {records : ExtTreeMap Nat TcpRecord}
  {before after : SocketSet}

theorem SocketSet.Apart.follow (h : before.Apart) (hfollow : before.Follow listeners after) :
    after.Apart where
  listens := by
    intro handle b hb hlisten
    obtain ⟨a, ha, hab⟩ := hfollow handle b hb
    cases hab with
    | ended hclosed =>
        rw [hlisten] at hclosed
        cases hclosed
    | kept _ htuple _ hstate _ =>
        rw [htuple]
        exact h.listens handle a ha (hstate hlisten)
    | opens _ hleft _ _ _ _ _ => exact (hleft hlisten).elim
    | relistens _ _ _ htuple _ => exact htuple
    | retargets _ _ _ htuple _ => exact htuple
  apart := by
    intro handle other b d tuple hb hd hlive hlive' htuple htuple'
    obtain ⟨a, ha, hab⟩ := hfollow handle b hb
    obtain ⟨c, hc, hcd⟩ := hfollow other d hd
    by_contra hne
    -- A socket that opens is apart from every other one; two that stay were apart before.
    cases hab with
    | ended hclosed => exact hlive hclosed
    | opens _ _ _ _ _ _ hapart => exact hapart other d (Ne.symm hne) hd hlive' (htuple'.trans htuple.symm)
    | relistens _ _ _ hnone _ =>
        rw [hnone] at htuple
        cases htuple
    | retargets _ _ _ hnone _ =>
        rw [hnone] at htuple
        cases htuple
    | kept hliveA hkept _ _ _ =>
        cases hcd with
        | ended hclosed => exact hlive' hclosed
        | opens _ _ _ _ _ _ hapart => exact hapart handle b hne hb hlive (htuple.trans htuple'.symm)
        | relistens _ _ _ hnone _ =>
            rw [hnone] at htuple'
            cases htuple'
        | retargets _ _ _ hnone _ =>
            rw [hnone] at htuple'
            cases htuple'
        | kept hliveC hkept' _ _ _ =>
            exact hne (h.apart handle other a c tuple ha hc hliveA hliveC (hkept ▸ htuple) (hkept' ▸ htuple'))

/-- A record's socket is never one that listens, so it ends or stays as it is. -/
theorem RecordsLinked.follow (h : RecordsLinked before records) (happart : before.Apart)
    (hfollow : before.Follow listeners after)
    (hpools : ∀ (id id' : Nat) (record : TcpRecord) (listener : ListenerRecord), records[id]? = some record →
      listeners[id']? = some listener → record.handle ∉ listener.pool) : RecordsLinked after records := by
  intro id record hrecord b hb hlive
  obtain ⟨a, ha, hab⟩ := hfollow record.handle b hb
  cases hab with
  | ended hclosed => exact (hlive hclosed).elim
  | kept hliveA htuple hendpoint _ hactive =>
      have hlinked := h id record hrecord a ha hliveA
      refine ⟨by rw [htuple]; exact hlinked.tuple, fun hstate => ?_⟩
      rw [hendpoint]
      exact hlinked.active (hactive hstate)
  | opens hlisten _ _ _ _ _ _ =>
      have hlinked := h id record hrecord a ha (by rw [hlisten]; decide)
      obtain ⟨_, _, -, -, htuple⟩ := hlinked.tuple
      rw [happart.listens _ a ha hlisten] at htuple
      cases htuple
  | relistens hstate hport _ _ _ =>
      have hlinked := h id record hrecord a ha (by rw [hstate]; decide)
      exact (hport (hlinked.active (.inr hstate))).elim
  | retargets hlistener hpool _ _ _ => exact (hpools id _ record _ hrecord hlistener hpool).elim

theorem PoolsLinked.follow (h : PoolsLinked before listeners) (hfollow : before.Follow listeners after)
    (hapart : ∀ (id id' handle : Nat) (listener listener' : ListenerRecord), listeners[id]? = some listener →
      listeners[id']? = some listener' → handle ∈ listener.pool → handle ∈ listener'.pool → id = id') :
    PoolsLinked after listeners := by
  intro id listener hlistener
  obtain ⟨hoffers, hmembers⟩ := h id listener hlistener
  refine ⟨hoffers, fun handle hhandle b hb hlive => ?_⟩
  obtain ⟨a, ha, hab⟩ := hfollow handle b hb
  cases hab with
  | ended hclosed => exact (hlive hclosed).elim
  | kept hliveA htuple hendpoint _ _ =>
      have hlinked := hmembers handle hhandle a ha hliveA
      refine ⟨by rw [hendpoint]; exact hlinked.offers, ?_⟩
      rw [htuple]
      exact hlinked.tuple
  | opens hlisten _ htuple hport haddr hendpoint _ =>
      have hlinked := hmembers handle hhandle a ha (by rw [hlisten]; decide)
      refine ⟨by rw [hendpoint]; exact hlinked.offers, fun localEndpoint remote hopened => ?_⟩
      rw [htuple] at hopened
      obtain ⟨rfl, rfl⟩ := Prod.mk.inj (Option.some.inj hopened)
      obtain ⟨hsame, addr, hsome, hfamily⟩ := hlinked.offers
      exact ⟨hport.trans hsame, by rw [haddr addr hsome]; exact hfamily⟩
  | relistens hstate _ _ htuple hendpoint =>
      have hlinked := hmembers handle hhandle a ha (by rw [hstate]; decide)
      refine ⟨by rw [hendpoint]; exact hlinked.offers, fun localEndpoint remote hopened => ?_⟩
      rw [htuple] at hopened
      cases hopened
  | retargets hfound hpool _ htuple hretargeted =>
      obtain rfl := hapart _ _ handle _ _ hlistener hfound hhandle hpool
      obtain rfl := Option.some.inj (hlistener.symm.trans hfound)
      refine ⟨hretargeted, fun localEndpoint remote hopened => ?_⟩
      rw [htuple] at hopened
      cases hopened

end

/-! ## Sets with fewer or other sockets -/

section

variable {listeners : ExtTreeMap Nat ListenerRecord} {records : ExtTreeMap Nat TcpRecord}
  {sockets others : SocketSet}

theorem SocketSet.Apart.sub (h : sockets.Apart)
    (hsub : ∀ (handle : Nat) (socket : TcpSocket), others[handle]? = some (.tcp socket) →
      sockets[handle]? = some (.tcp socket)) : others.Apart :=
  ⟨fun handle socket hsocket => h.listens handle socket (hsub handle socket hsocket),
    fun handle other a b tuple ha hb => h.apart handle other a b tuple (hsub handle a ha) (hsub other b hb)⟩

theorem RecordsLinked.sub (h : RecordsLinked sockets records)
    (hsub : ∀ (handle : Nat) (socket : TcpSocket), others[handle]? = some (.tcp socket) →
      sockets[handle]? = some (.tcp socket)) : RecordsLinked others records :=
  fun id record hrecord socket hsocket => h id record hrecord socket (hsub _ socket hsocket)

theorem PoolsLinked.sub (h : PoolsLinked sockets listeners)
    (hsub : ∀ (handle : Nat) (socket : TcpSocket), others[handle]? = some (.tcp socket) →
      sockets[handle]? = some (.tcp socket)) : PoolsLinked others listeners :=
  fun id listener hlistener => ⟨(h id listener hlistener).1, fun handle hhandle socket hsocket =>
    (h id listener hlistener).2 handle hhandle socket (hsub handle socket hsocket)⟩

/-- A set in which one handle has another TCP socket. -/
theorem tcp_insert {handle other : Nat} {socket found : TcpSocket}
    (h : (sockets.insert handle (.tcp socket))[other]? = some (.tcp found)) :
    other = handle ∧ found = socket ∨ other ≠ handle ∧ sockets[other]? = some (.tcp found) := by
  rcases getElem?_insert_eq_some.1 h with ⟨hsame, hfound⟩ | hold
  · cases hfound
    exact .inl ⟨hsame, rfl⟩
  · exact .inr hold

/-- A socket joins that is closed, or whose four-tuple no live socket has. -/
theorem SocketSet.Apart.insert (h : sockets.Apart) {handle : Nat} {socket : TcpSocket}
    (hlistens : socket.state = .listen → socket.tuple = none)
    (hfree : socket.state ≠ .closed → ∀ (other : Nat) (found : TcpSocket) (tuple : IpEndpoint × IpEndpoint),
      other ≠ handle → sockets[other]? = some (.tcp found) → found.state ≠ .closed →
      found.tuple = some tuple → socket.tuple ≠ some tuple) :
    SocketSet.Apart (sockets.insert handle (.tcp socket)) where
  listens := by
    intro other found hfound hlisten
    rcases tcp_insert hfound with ⟨-, rfl⟩ | ⟨-, hold⟩
    · exact hlistens hlisten
    · exact h.listens other found hold hlisten
  apart := by
    intro i j a b tuple ha hb hlive hlive' htuple htuple'
    rcases tcp_insert ha with ⟨rfl, rfl⟩ | ⟨hne, hold⟩
    · rcases tcp_insert hb with ⟨rfl, -⟩ | ⟨hne', hold'⟩
      · rfl
      · exact (hfree hlive j b tuple hne' hold' hlive' htuple' htuple).elim
    · rcases tcp_insert hb with ⟨rfl, rfl⟩ | ⟨-, hold'⟩
      · exact (hfree hlive' i a tuple hne hold hlive htuple htuple').elim
      · exact h.apart i j a b tuple hold hold' hlive hlive' htuple htuple'

/-- The records whose sockets stay are linked as before. -/
theorem RecordsLinked.insert (h : RecordsLinked sockets records) {handle : Nat} {socket : TcpSocket}
    (hhandle : ∀ (id : Nat) (record : TcpRecord), records[id]? = some record → record.handle = handle →
      socket.state ≠ .closed → record.Linked socket) :
    RecordsLinked (sockets.insert handle (.tcp socket)) records := by
  intro id record hrecord found hfound hlive
  rcases tcp_insert hfound with ⟨hsame, rfl⟩ | ⟨-, hold⟩
  · exact hhandle id record hrecord hsame hlive
  · exact h id record hrecord found hold hlive

theorem PoolsLinked.insert (h : PoolsLinked sockets listeners) {handle : Nat} {socket : TcpSocket}
    (hhandle : ∀ (id : Nat) (listener : ListenerRecord), listeners[id]? = some listener →
      handle ∈ listener.pool → socket.state ≠ .closed → listener.Linked socket) :
    PoolsLinked (sockets.insert handle (.tcp socket)) listeners := by
  intro id listener hlistener
  obtain ⟨hoffers, hmembers⟩ := h id listener hlistener
  refine ⟨hoffers, fun member hmember found hfound hlive => ?_⟩
  rcases tcp_insert hfound with ⟨rfl, rfl⟩ | ⟨-, hold⟩
  · exact hhandle id listener hlistener hmember hlive
  · exact hmembers member hmember found hold hlive

/-- A record keeps its native socket and its endpoints. -/
theorem RecordsLinked.amend (h : RecordsLinked sockets records) {id : Nat} {record changed : TcpRecord}
    (hrecord : records[id]? = some record) (hhandle : changed.handle = record.handle)
    (hlocal : changed.localEndpoint = record.localEndpoint) (hremote : changed.remote = record.remote) :
    RecordsLinked sockets (records.insert id changed) := by
  refine All.insert h fun socket hsocket hlive => ?_
  rw [hhandle] at hsocket
  have hlinked := h id record hrecord socket hsocket hlive
  exact ⟨by rw [hlocal, hremote]; exact hlinked.tuple, hlinked.active⟩

/-- A listener keeps its pool and its endpoints. -/
theorem PoolsLinked.amend (h : PoolsLinked sockets listeners) {id : Nat} {listener changed : ListenerRecord}
    (hlistener : listeners[id]? = some listener) (hpool : changed.pool = listener.pool)
    (hendpoint : changed.listenEndpoint = listener.listenEndpoint)
    (hlocal : changed.localEndpoint = listener.localEndpoint) :
    PoolsLinked sockets (listeners.insert id changed) := by
  obtain ⟨hoffers, hmembers⟩ := h id listener hlistener
  have hoffers' : ∀ endpoint, listener.Offers endpoint → changed.Offers endpoint := by
    intro endpoint hendpoint
    unfold ListenerRecord.Offers
    rw [hlocal]
    exact hendpoint
  refine All.insert h ⟨by rw [hendpoint]; exact hoffers' _ hoffers, fun handle hhandle socket hsocket hlive => ?_⟩
  rw [hpool] at hhandle
  have hlinked := hmembers handle hhandle socket hsocket hlive
  exact ⟨hoffers' _ hlinked.offers, by rw [hlocal]; exact hlinked.tuple⟩

/-- A listener's pool loses one member and gets the next free handle, with a fresh one. -/
theorem PoolsLinked.refill (h : PoolsLinked sockets listeners) {id handle : Nat} {listener changed : ListenerRecord}
    (hlistener : listeners[id]? = some listener)
    (hpool : changed.pool = (listener.pool.erase handle).insert sockets.freeHandle)
    (hendpoint : changed.listenEndpoint = listener.listenEndpoint)
    (hlocal : changed.localEndpoint = listener.localEndpoint)
    (hother : ∀ (id' : Nat) (listener' : ListenerRecord), listeners[id']? = some listener' → id' ≠ id →
      sockets.freeHandle ∉ listener'.pool) :
    PoolsLinked (sockets.insert sockets.freeHandle (.tcp (NativeStack.freshMember listener)))
      (listeners.insert id changed) := by
  obtain ⟨hoffers, hmembers⟩ := h id listener hlistener
  have hoffers' : ∀ endpoint, listener.Offers endpoint → changed.Offers endpoint := by
    intro endpoint hendpoint
    unfold ListenerRecord.Offers
    rw [hlocal]
    exact hendpoint
  intro id' found hfound
  rcases getElem?_insert_eq_some.1 hfound with ⟨rfl, rfl⟩ | ⟨hne, hold⟩
  · refine ⟨by rw [hendpoint]; exact hoffers' _ hoffers, fun member hmember socket hsocket hlive => ?_⟩
    rcases tcp_insert hsocket with ⟨rfl, rfl⟩ | ⟨hapart, hkept⟩
    · exact ⟨hoffers' _ hoffers, fun localEndpoint remote htuple => by cases htuple⟩
    · have hmember' : member ∈ listener.pool := by
        rw [hpool, ExtTreeSet.mem_insert] at hmember
        rcases hmember with hsame | hmember
        · exact (hapart (Std.compare_eq_iff_eq.1 hsame).symm).elim
        · exact (ExtTreeSet.mem_erase.1 hmember).2
      have hlinked := hmembers member hmember' socket hkept hlive
      exact ⟨hoffers' _ hlinked.offers, by rw [hlocal]; exact hlinked.tuple⟩
  · obtain ⟨hoffersOld, hmembersOld⟩ := h id' found hold
    refine ⟨hoffersOld, fun member hmember socket hsocket hlive => ?_⟩
    rcases tcp_insert hsocket with ⟨rfl, -⟩ | ⟨-, hkept⟩
    · exact (hother id' found hold hne hmember).elim
    · exact hmembersOld member hmember socket hkept hlive

end

namespace NativeStack

variable {s s' : NativeStack} {sockets : SocketSet} {handle : Nat} {socket : TcpSocket}
  {record : TcpRecord} {listener : ListenerRecord}

/-! ## What smoltcp and the stack do to a socket -/

theorem follows_same {listeners : ExtTreeMap Nat ListenerRecord} {after : SocketSet} {a b : TcpSocket}
    (h : a.SameConnection b) : Follows listeners after handle a b := by
  by_cases hclosed : a.state = .closed
  · exact .ended (h.state.trans hclosed)
  · refine .kept hclosed (h.tuple hclosed) h.listenEndpoint (fun hlisten => ?_) fun hactive => ?_
    · rw [← h.state]
      exact hlisten
    · rw [← h.state]
      exact hactive

theorem Moves.follows {after : SocketSet} {a b : TcpSocket} (h : s.Moves handle a b) :
    Follows s.tcpListeners after handle a b := by
  cases h with
  | keeps h => exact follows_same h
  | expires h =>
      cases h with
      | keeps h => exact follows_same h
      | timesOut _ hclosed _ _ _ => exact .ended hclosed
      | lapses _ hclosed _ _ => exact .ended hclosed
  | shuts _ _ _ h =>
      by_cases hclosed : b.state = .closed
      · exact .ended hclosed
      · have hlive : a.close.1.state ≠ .closed := h.state ▸ hclosed
        have hclose : a.state ≠ .closed ∧ a.close.1.tuple = a.tuple ∧
            a.close.1.listenEndpoint = a.listenEndpoint ∧ a.close.1.state ≠ .listen ∧
            a.close.1.state ≠ .synSent ∧ a.close.1.state ≠ .synReceived := by
          cases hstate : a.state <;>
            simp [TcpSocket.close, hstate, TcpSocket.setState, TcpSocket.wakeAll] at hlive ⊢
        obtain ⟨hliveA, htuple, hendpoint, hlisten, hsent, hreceived⟩ := hclose
        refine .kept hliveA ((h.tuple hlive).trans htuple) (h.listenEndpoint.trans hendpoint) (fun hb => ?_)
          fun hb => ?_
        · exact (hlisten (h.state ▸ hb)).elim
        · rw [h.state] at hb
          exact (hb.elim hsent hreceived).elim
  | aborts _ _ _ hclosed => exact .ended hclosed
  | @retargets id listener endpoint addr hlistener hpool hlisten hport haddr hfamily h =>
      refine .retargets hlistener hpool h.state h.tuple ?_
      rw [h.listenEndpoint]
      exact ⟨hport, addr, haddr, hfamily⟩

theorem receives_follows {listeners : ExtTreeMap Nat ListenerRecord} {packet : Packet}
    {before after : SocketSet} (hapart : before.OpensApart after) {a b : TcpSocket}
    (ha : before[handle]? = some (.tcp a)) (hb : after[handle]? = some (.tcp b)) (h : a.Receives packet b) :
    Follows listeners after handle a b := by
  cases h with
  | keeps h => exact follows_same h
  | opens hlisten hstate htuple hport haddr h =>
      have hleft : b.state ≠ .listen := by rw [hstate]; decide
      exact .opens hlisten hleft htuple hport haddr h.listenEndpoint (hapart handle a b ha hb hlisten hleft)
  | relistens hstate hport hlisten htuple h => exact .relistens hstate hport hlisten htuple h.listenEndpoint
  | advances hstate htuple h =>
      have hstates : a.state ≠ .closed ∧ b.state ≠ .listen ∧
          (b.state = .synSent ∨ b.state = .synReceived → a.state = .synSent ∨ a.state = .synReceived) := by
        revert hstate
        cases a.state <;> cases b.state <;> decide
      exact .kept hstates.1 htuple h.listenEndpoint (fun hb => (hstates.2.1 hb).elim) hstates.2.2
  | finishes hstate htuple _ hlisten _ _ =>
      have hstates : a.state ≠ .closed ∧ b.state ≠ .listen ∧
          (b.state = .synSent ∨ b.state = .synReceived → a.state = .synSent ∨ a.state = .synReceived) := by
        revert hstate
        cases a.state <;> cases b.state <;> decide
      exact .kept hstates.1 htuple hlisten (fun hb => (hstates.2.1 hb).elim) hstates.2.2
  | acknowledged _ hclosed _ => exact .ended hclosed
  | resets _ _ _ _ hclosed _ _ => exact .ended hclosed

/-- A TCP socket of a reshaped set was one before. -/
theorem Reshapes.before (h : s.Reshapes sockets) {b : TcpSocket} (hb : sockets[handle]? = some (.tcp b)) :
    ∃ a, s.sockets[handle]? = some (.tcp a) := by
  have hshape := h.shape handle
  rw [hb] at hshape
  cases hsocket : s.sockets[handle]? with
  | none =>
      rw [hsocket] at hshape
      cases hshape
  | some found =>
      cases found with
      | tcp a => exact ⟨a, rfl⟩
      | udp a =>
          rw [hsocket] at hshape
          cases hshape with
          | some hsame => exact hsame.elim

/-! ## Steps -/

structure Tupled (s : NativeStack) : Prop where
  sockets : s.sockets.Apart
  records : RecordsLinked s.sockets s.tcpRecords
  pools : PoolsLinked s.sockets s.tcpListeners

theorem Tupled.undisturbed (h : s.Tupled) (hsame : Undisturbed s s') : s'.Tupled := by
  constructor
  · rw [hsame.sockets]
    exact h.sockets
  · rw [hsame.sockets, hsame.tcpRecords]
    exact h.records
  · rw [hsame.sockets, hsame.tcpListeners]
    exact h.pools

/-- The step connects with no four-tuple that a live promoted connection has. -/
def ConnectsFree (s : NativeStack) : StepLabel → Prop
  | .connects _ localEndpoint remote => ∀ (id : Nat) (record : TcpRecord) (socket : TcpSocket),
      s.tcpRecords[id]? = some record → record.accepted = true →
      record.localEndpoint = some localEndpoint → record.remote = some remote →
      s.sockets[record.handle]? = some (.tcp socket) → socket.state = .closed
  | _ => True

theorem Gentle.connectsFree {label : StepLabel} (h : Gentle s label) : ConnectsFree s label := by
  cases label with
  | connects identity localEndpoint remote => exact h
  | _ => trivial

theorem Sound.record_not_pooled (hs : s.Sound) {id id' : Nat} (hrecord : s.tcpRecords[id]? = some record)
    (hlistener : s.tcpListeners[id']? = some listener) : record.handle ∉ listener.pool := by
  intro hpool
  have howner := hs.unique (owns_tcp hrecord) (owns_listener hlistener hpool)
  cases howner

theorem Sound.pools_apart (hs : s.Sound) {id id' handle : Nat} {listener listener' : ListenerRecord}
    (hlistener : s.tcpListeners[id]? = some listener) (hlistener' : s.tcpListeners[id']? = some listener')
    (hpool : handle ∈ listener.pool) (hpool' : handle ∈ listener'.pool) : id = id' := by
  have howner := hs.unique (owns_listener hlistener hpool) (owns_listener hlistener' hpool')
  cases howner
  rfl

theorem Sound.pooled_mem (hs : s.Sound) {id handle : Nat} (hlistener : s.tcpListeners[id]? = some listener)
    (hpool : handle ∈ listener.pool) : handle ∈ s.sockets :=
  hs.mem_sockets.2 ⟨_, owns_listener hlistener hpool⟩

theorem Tupled.follow (h : s.Tupled) (hs : s.Sound) (hfollow : s.sockets.Follow s.tcpListeners sockets) :
    sockets.Apart ∧ RecordsLinked sockets s.tcpRecords ∧ PoolsLinked sockets s.tcpListeners :=
  ⟨h.sockets.follow hfollow,
    h.records.follow h.sockets hfollow fun _ _ _ _ hrecord hlistener => hs.record_not_pooled hrecord hlistener,
    h.pools.follow hfollow fun _ _ _ _ _ => hs.pools_apart⟩

theorem Tupled.native (h : s.Tupled) (hs : s.Sound) (hshape : s.Reshapes sockets) (hmoved : s.Moved sockets) :
    Tupled { s with sockets := sockets } := by
  have hfollow : s.sockets.Follow s.tcpListeners sockets := by
    intro handle b hb
    obtain ⟨a, ha⟩ := hshape.before hb
    exact ⟨a, ha, (hmoved handle a b ha hb).follows⟩
  obtain ⟨hsockets, hrecords, hpools⟩ := h.follow hs hfollow
  exact ⟨hsockets, hrecords, hpools⟩

theorem Tupled.ingest (h : s.Tupled) (hs : s.Sound) {packet : Packet} {records : ExtTreeMap Nat TcpRecord}
    (hshape : s.Reshapes sockets) (hreceives : s.sockets.Receives packet sockets)
    (hapart : s.sockets.OpensApart sockets) (hreset : s.ResetRecords packet sockets records) :
    Tupled { s with sockets := sockets, tcpRecords := records } := by
  have hfollow : s.sockets.Follow s.tcpListeners sockets := by
    intro handle b hb
    obtain ⟨a, ha⟩ := hshape.before hb
    exact ⟨a, ha, receives_follows hapart ha hb (hreceives handle a b ha hb)⟩
  obtain ⟨hsockets, hrecords, hpools⟩ := h.follow hs hfollow
  cases hreset with
  | unnamed _ => exact ⟨hsockets, hrecords, hpools⟩
  | standing _ _ _ => exact ⟨hsockets, hrecords, hpools⟩
  | failed htarget _ _ =>
      obtain ⟨-, -, -, -, hok, -⟩ := resetTarget_eq_some htarget
      exact ⟨hsockets, hrecords.amend (tcpRecord?_eq_ok hok).1 rfl rfl rfl, hpools⟩

/-- Records, pools and sockets go. -/
theorem Tupled.shrink (h : s.Tupled)
    (hsockets : ∀ (handle : Nat) (socket : TcpSocket), s'.sockets[handle]? = some (.tcp socket) →
      s.sockets[handle]? = some (.tcp socket))
    (hrecords : RecordsLinked s.sockets s'.tcpRecords) (hpools : PoolsLinked s.sockets s'.tcpListeners) :
    s'.Tupled :=
  ⟨h.sockets.sub hsockets, hrecords.sub hsockets, hpools.sub hsockets⟩

theorem tcp_of_erase {handle other : Nat} (h : (sockets.erase handle)[other]? = some (.tcp socket)) :
    sockets[other]? = some (.tcp socket) :=
  (getElem?_erase_eq_some.1 h).2

theorem Tupled.dropRecord (h : s.Tupled) (record : TcpRecord) : (s.dropRecord record).Tupled :=
  h.shrink (fun _ _ => tcp_of_erase) (All.erase h.records _) h.pools

/-- A fresh pool member has no four-tuple. -/
theorem apart_fresh (h : sockets.Apart) (handle : Nat) (listener : ListenerRecord) :
    SocketSet.Apart (sockets.insert handle (.tcp (freshMember listener))) := by
  refine h.insert (fun _ => rfl) fun _ other found tuple _ _ _ _ htuple => ?_
  cases htuple

theorem Tupled.promote (h : s.Tupled) (hs : s.Sound) (child : SocketIdentity)
    {localEndpoint remote : IpEndpoint} (hlistener : s.tcpListeners[listener.identity.id]? = some listener)
    (hpool : handle ∈ listener.pool) (hsocket : s.sockets[handle]? = some (.tcp socket))
    (hstate : socket.state = .established ∨ socket.state = .closeWait)
    (htuple : socket.tuple = some (localEndpoint, remote)) :
    (s.promoted listener handle child localEndpoint remote).Tupled := by
  have hfree := s.sockets.freeHandle_not_mem
  refine ⟨apart_fresh h.sockets _ listener, ?_, h.pools.refill hlistener rfl rfl rfl fun id other hother _ hin => ?_⟩
  · have hold : RecordsLinked (s.sockets.insert s.sockets.freeHandle (.tcp (freshMember listener)))
        s.tcpRecords := by
      refine h.records.insert fun id record hrecord hhandle _ => (hfree ?_).elim
      rw [← hhandle]
      exact hs.mem_sockets.2 ⟨_, owns_tcp hrecord⟩
    refine All.insert hold fun found hfound _ => ?_
    rcases tcp_insert hfound with ⟨hsame, -⟩ | ⟨-, hkept⟩
    · exact (hfree (hsame ▸ hs.pooled_mem hlistener hpool)).elim
    · have hkept : s.sockets[handle]? = some (.tcp found) := hkept
      rw [hsocket] at hkept
      cases hkept
      refine ⟨⟨localEndpoint, remote, rfl, rfl, htuple⟩, fun hactive => ?_⟩
      rcases hstate with hstate | hstate <;> rw [hstate] at hactive <;> simp at hactive
  · exact hfree (hs.pooled_mem hother hin)

theorem Tupled.recycle (h : s.Tupled) (hs : s.Sound)
    (hlistener : s.tcpListeners[listener.identity.id]? = some listener) (hpool : handle ∈ listener.pool) :
    (s.recycled listener handle).Tupled := by
  have hfree := SocketSet.freeHandle_not_mem (s.sockets.erase handle)
  have hpools : PoolsLinked (s.sockets.erase handle) s.tcpListeners := h.pools.sub fun _ _ => tcp_of_erase
  have hrecords : RecordsLinked (s.sockets.erase handle) s.tcpRecords := h.records.sub fun _ _ => tcp_of_erase
  have hin : ∀ other, other ∈ s.sockets → other ≠ handle → other ∈ s.sockets.erase handle := by
    intro other hother hne
    rw [ExtTreeMap.mem_erase]
    exact ⟨fun hsame => hne (Std.compare_eq_iff_eq.1 hsame).symm, hother⟩
  refine ⟨apart_fresh (h.sockets.sub fun _ _ => tcp_of_erase) _ listener, ?_,
    hpools.refill hlistener rfl rfl rfl fun id other hother hne hmember => ?_⟩
  · refine hrecords.insert fun id record hrecord hhandle _ => (hfree ?_).elim
    rw [← hhandle]
    refine hin _ (hs.mem_sockets.2 ⟨_, owns_tcp hrecord⟩) ?_
    rintro rfl
    exact hs.record_not_pooled hrecord hlistener hpool
  · refine hfree (hin _ (hs.pooled_mem hother hmember) fun hsame => hne ?_)
    rw [hsame] at hmember
    exact hs.pools_apart hother hlistener hmember hpool

theorem Tupled.driveStep (h : s.Tupled) (hs : s.Sound) {label : StepLabel} (hstep : DriveStep s label s')
    (hworld : s.world.Faithful ∧ s.world.Exclusive) : s'.Tupled := by
  cases hstep with
  | wake key => exact h.undisturbed (s.undisturbed_wake key)
  | native hshape hmoved => exact h.native hs hshape (hmoved hworld.1)
  | ingest packet hshape hreceives hapart hrecords =>
      exact h.ingest hs hshape (hreceives hworld.1) (hapart hworld.2) hrecords
  | @amend record changed hrecord hchanged _ _ =>
      have hrecord' : s.tcpRecords[changed.identity.id]? = some record := by
        rw [hchanged.identity]
        exact hrecord
      exact ⟨h.sockets, h.records.amend hrecord' hchanged.handle hchanged.localEndpoint hchanged.remote, h.pools⟩
  | expire hrecord _ _ _ _ => exact ⟨h.sockets, h.records.amend hrecord rfl rfl rfl, h.pools⟩
  | @reap record _ _ _ _ _ _ =>
      have hdropped := h.dropRecord record
      exact ⟨hdropped.sockets, hdropped.records, hdropped.pools⟩
  | @promote _ _ child _ _ _ hlistener hpool hsocket hstate htuple _ _ _ _ _ =>
      exact (h.promote hs child hlistener hpool hsocket hstate htuple).undisturbed
        (undisturbed_markListenerReady _ _)
  | recycle hlistener hpool => exact h.recycle hs hlistener hpool
  | _ => exact ⟨h.sockets, h.records, h.pools⟩

/-- No live socket but its own has the four-tuple with which a socket connects: not a record's that holds
another port, not a promoted connection's by the condition, and not a pool member's. -/
theorem Tupled.connect_free (h : s.Tupled) (hs : s.Sound) (hported : s.Ported) {selected remote : IpEndpoint}
    (hrecord : s.tcpRecords[record.identity.id]? = some record)
    (hfamily : record.family.includes selected.addr = true)
    (hfree : s.portInUse selected.port record.family (some record.identity) = false)
    (hok : s.ConnectsFree (.connects record.identity selected remote)) {other : Nat} {found : TcpSocket}
    (hne : other ≠ record.handle) (hfound : s.sockets[other]? = some (.tcp found))
    (hlive : found.state ≠ .closed) : found.tuple ≠ some (selected, remote) := by
  intro htuple
  have hbusy : ∀ id, id ≠ record.identity.id → ¬ s.HoldsPort id record.family selected.port .tcp := by
    intro id hid hholds
    have hused : s.portInUse selected.port record.family (some record.identity) = true :=
      hholds.inUse hs (Ne.symm hid)
    rw [hfree] at hused
    cases hused
  have hof : AddressFamily.of selected.addr = record.family := (beq_iff_eq.1 hfamily).symm
  obtain ⟨owner, howner⟩ := hs.mem_sockets.1 (mem_of_getElem? hfound)
  cases owner with
  | tcp id =>
      obtain ⟨holder, hholder, rfl⟩ := howner
      obtain ⟨localEndpoint, remote', hlocal, hremote, hlinked⟩ :=
        (h.records id holder hholder found hfound hlive).tuple
      rw [htuple] at hlinked
      obtain ⟨rfl, rfl⟩ := Prod.mk.inj (Option.some.inj hlinked)
      cases haccepted : holder.accepted with
      | true => exact hlive (hok id holder found hholder haccepted hlocal hremote hfound)
      | false =>
          have hholds : s.HoldsPort id record.family selected.port .tcp := by
            refine .record hholder haccepted ?_ hlocal rfl
            rw [← (hported.placed id holder hholder).family selected hlocal]
            exact hof
          refine hbusy id ?_ hholds
          rintro rfl
          obtain rfl := Option.some.inj (hholder.symm.trans hrecord)
          exact hne rfl
  | listener id =>
      obtain ⟨listener, hlistener, hpool⟩ := howner
      have hlinked := ((h.pools id listener hlistener).2 other hpool found hfound hlive).tuple _ _ htuple
      refine hbusy id ?_ (.listener hlistener (hlinked.2.symm.trans hof) hlinked.1.symm)
      rintro rfl
      exact (hs.rostered.tcp_apart _ (mem_of_getElem? hrecord)).1 (mem_of_getElem? hlistener)
  | udp id =>
      obtain ⟨holder, hholder, hhandle⟩ := howner
      obtain ⟨socket, hsocket⟩ := hs.typed.udp id holder hholder other hhandle
      rw [hfound] at hsocket
      cases hsocket

theorem Tupled.connect (h : s.Tupled) (hs : s.Sound) (hported : s.Ported) (started : TcpRecord)
    {changed : TcpSocket} {selected remote : IpEndpoint}
    (hrecord : s.tcpRecords[record.identity.id]? = some record) (hstate : changed.state = .synSent)
    (htuple : changed.tuple = some (selected, remote)) (hlisten : changed.listenEndpoint = TcpSocket.unbound)
    (hfamily : record.family.includes selected.addr = true)
    (hfree : s.portInUse selected.port record.family (some record.identity) = false)
    (hok : s.ConnectsFree (.connects record.identity selected remote))
    (hhandle : started.handle = record.handle) (hlocal : started.localEndpoint = some selected)
    (hremote : started.remote = some remote) :
    SocketSet.Apart (s.sockets.insert record.handle (.tcp changed)) ∧
      RecordsLinked (s.sockets.insert record.handle (.tcp changed))
        (s.tcpRecords.insert record.identity.id started) ∧
      PoolsLinked (s.sockets.insert record.handle (.tcp changed)) s.tcpListeners := by
  refine ⟨h.sockets.insert (fun hlistens => ?_) fun _ other found tuple hne hfound hlive hother hsame => ?_, ?_,
    h.pools.insert fun id listener hlistener hpool _ => (hs.record_not_pooled hrecord hlistener hpool).elim⟩
  · rw [hstate] at hlistens
    cases hlistens
  · rw [htuple] at hsame
    rw [← hsame] at hother
    exact h.connect_free hs hported hrecord hfamily hfree hok hne hfound hlive hother
  · intro id found hfound socket hsocket hlive
    rcases getElem?_insert_eq_some.1 hfound with ⟨-, rfl⟩ | ⟨hne, hold⟩
    · rw [hhandle] at hsocket
      rcases tcp_insert hsocket with ⟨-, rfl⟩ | ⟨hapart, -⟩
      · exact ⟨⟨selected, remote, hlocal, hremote, htuple⟩, fun _ => by rw [hlisten]; rfl⟩
      · exact (hapart rfl).elim
    · rcases tcp_insert hsocket with ⟨hsame, -⟩ | ⟨-, hkept⟩
      · have howner := hs.unique (owns_tcp hold) (hsame ▸ owns_tcp hrecord)
        cases howner
        exact (hne rfl).elim
      · exact h.records id found hold socket hkept hlive

theorem Tupled.listen (h : s.Tupled) (hs : s.Sound) {added : List Nat}
    (hrecord : s.tcpRecords[record.identity.id]? = some record) (hextends : s.Extends sockets added)
    (hkept : ∀ handle, handle ∈ s.sockets → handle ≠ record.handle → sockets[handle]? = s.sockets[handle]?)
    (hpool : ∀ handle, handle ∈ listener.pool ↔ handle = record.handle ∨ handle ∈ added)
    (htcp : ∀ handle ∈ listener.pool, ∃ socket, sockets[handle]? = some (.tcp socket) ∧
      socket.Listens listener.listenEndpoint)
    (hoffers : listener.Offers listener.listenEndpoint) :
    sockets.Apart ∧ RecordsLinked sockets (s.tcpRecords.erase record.identity.id) ∧
      PoolsLinked sockets (s.tcpListeners.insert listener.identity.id listener) := by
  -- A TCP socket listens in the pool, or is as it was.
  have hcases : ∀ (handle : Nat) (socket : TcpSocket), sockets[handle]? = some (.tcp socket) →
      handle ∈ listener.pool ∧ socket.Listens listener.listenEndpoint ∨
        handle ∉ listener.pool ∧ s.sockets[handle]? = some (.tcp socket) := by
    intro handle socket hsocket
    by_cases hin : handle ∈ listener.pool
    · obtain ⟨member, hmember, hlistens⟩ := htcp handle hin
      rw [hsocket] at hmember
      cases hmember
      exact .inl ⟨hin, hlistens⟩
    · refine .inr ⟨hin, ?_⟩
      rw [hpool, not_or] at hin
      have hmem := (hextends.mem handle).1 (mem_of_getElem? hsocket)
      rw [← hkept handle (hmem.resolve_right hin.2) hin.1]
      exact hsocket
  have hmember : ∀ handle, handle ∈ s.sockets → handle ∈ listener.pool → handle = record.handle := by
    intro handle hin hmember
    rcases (hpool handle).1 hmember with hsame | hadded
    · exact hsame
    · exact (hextends.fresh handle hadded hin).elim
  refine ⟨⟨fun handle socket hsocket hlisten => ?_, fun handle other a b tuple ha hb hlive hlive' htuple htuple' => ?_⟩,
    fun id found hfound socket hsocket hlive => ?_, fun id found hfound => ?_⟩
  · rcases hcases handle socket hsocket with ⟨-, hlistens⟩ | ⟨-, hold⟩
    · exact hlistens.tuple
    · exact h.sockets.listens handle socket hold hlisten
  · rcases hcases handle a ha with ⟨-, hlistens⟩ | ⟨-, hold⟩
    · rw [hlistens.tuple] at htuple
      cases htuple
    · rcases hcases other b hb with ⟨-, hlistens⟩ | ⟨-, hold'⟩
      · rw [hlistens.tuple] at htuple'
        cases htuple'
      · exact h.sockets.apart handle other a b tuple hold hold' hlive hlive' htuple htuple'
  · obtain ⟨hne, hold⟩ := getElem?_erase_eq_some.1 hfound
    rcases hcases _ socket hsocket with ⟨hin, -⟩ | ⟨-, hkept'⟩
    · have hsame := hmember _ (hs.mem_sockets.2 ⟨_, owns_tcp hold⟩) hin
      have howner := hs.unique (owns_tcp hold) (hsame ▸ owns_tcp hrecord)
      cases howner
      exact (hne rfl).elim
    · exact h.records id found hold socket hkept' hlive
  · rcases getElem?_insert_eq_some.1 hfound with ⟨-, rfl⟩ | ⟨-, hold⟩
    · refine ⟨hoffers, fun handle hhandle socket hsocket _ => ?_⟩
      rcases hcases handle socket hsocket with ⟨-, hlistens⟩ | ⟨hout, -⟩
      · refine ⟨by rw [hlistens.listenEndpoint]; exact hoffers, fun localEndpoint remote htuple => ?_⟩
        rw [hlistens.tuple] at htuple
        cases htuple
      · exact (hout hhandle).elim
    · obtain ⟨hoffersOld, hmembers⟩ := h.pools id found hold
      refine ⟨hoffersOld, fun handle hhandle socket hsocket hlive => ?_⟩
      rcases hcases handle socket hsocket with ⟨hin, -⟩ | ⟨-, hkept'⟩
      · have hsame := hmember handle (hs.pooled_mem hold hhandle) hin
        exact (hs.record_not_pooled hrecord hold (hsame ▸ hhandle)).elim
      · exact hmembers handle hhandle socket hkept' hlive

/-! ## The polls to come -/

theorem continues_wake (s : NativeStack) (key : ReadyKey) : s.world.Continues (s.wake key).world := by
  unfold wake
  dsimp only
  split <;> exact .of_polls rfl rfl

theorem ReadinessPath.continues (h : ReadinessPath s s') : s.world.Continues s'.world := by
  induction h with
  | refl => exact .of_polls rfl rfl
  | tail _ hstep ih =>
      refine ih.trans ?_
      cases hstep with
      | quiet h => exact h.world
      | send _ => exact .of_polls rfl rfl
      | deliver key _ =>
          unfold deliverReady
          split <;> exact .of_polls rfl rfl

theorem Step.continues {label : StepLabel} (h : Step s label s') : s.world.Continues s'.world := by
  cases h with
  | drive h =>
      cases h with
      | tick t _ hworld => exact hworld
      | wake key => exact s.continues_wake key
      | @promote listener handle child _ localEndpoint remote _ _ _ _ _ _ _ _ _ _ =>
          unfold markListenerReady
          split
          · exact continues_wake (s.promoted listener handle child localEndpoint remote) _
          · exact .of_polls rfl rfl
      | _ => exact .of_polls rfl rfl
  | @finish result effects aborts _ => exact (ReadinessPath.finish result effects aborts s).continues
  | _ => exact .of_polls rfl rfl

/-! ## Every state that is reached -/

theorem Tupled.step (h : s.Tupled) (hs : s.Sound) (hported : s.Ported) {label : StepLabel}
    (hstep : Step s label s') (hworld : s.world.Faithful ∧ s.world.Exclusive) (hok : s.ConnectsFree label) :
    s'.Tupled := by
  cases hstep with
  | drive hstep => exact h.driveStep hs hstep hworld
  | @finish result effects aborts _ =>
      have hqueued : (s.queueAborts aborts).Tupled := ⟨h.sockets, h.records, h.pools⟩
      exact hqueued.undisturbed (undisturbed_finish result effects aborts s)
  | @openTcp identity family rcvbuf sndbuf hid _ _ _ _ _ =>
      have hclosed : (TcpSocket.new rcvbuf sndbuf).state = .closed := rfl
      have hapart : SocketSet.Apart (s.sockets.insert s.sockets.freeHandle (.tcp (.new rcvbuf sndbuf))) :=
        h.sockets.insert (fun hlisten => by cases hlisten) fun hlive => (hlive hclosed).elim
      have hrecords : RecordsLinked (s.sockets.insert s.sockets.freeHandle (.tcp (.new rcvbuf sndbuf)))
          s.tcpRecords := h.records.insert fun _ _ _ _ hlive => (hlive hclosed).elim
      refine ⟨hapart, All.insert hrecords fun socket hsocket hlive => ?_,
        h.pools.insert fun _ _ _ _ hlive => (hlive hclosed).elim⟩
      rcases tcp_insert hsocket with ⟨-, rfl⟩ | ⟨hne, -⟩
      · exact (hlive hclosed).elim
      · exact (hne rfl).elim
  | openUdp _ _ _ _ =>
      refine h.shrink (fun handle socket hsocket => ?_) h.records h.pools
      rcases getElem?_insert_eq_some.1 hsocket with ⟨-, hudp⟩ | ⟨-, hold⟩
      · cases hudp
      · exact hold
  | @bind record endpoint scopeId _ hrecord hphase _ _ _ _ =>
      refine ⟨h.sockets, All.insert h.records fun socket hsocket hlive => ?_, h.pools⟩
      -- The native socket of a record that is not connected yet is closed.
      obtain ⟨found, hfound, hidle⟩ := hs.typed.tcp _ _ hrecord
      have hsame : s.sockets[record.handle]? = some (.tcp socket) := hsocket
      rw [hfound] at hsame
      cases hsame
      exact (hlive (hidle (by rw [hphase]; rfl))).elim
  | @connect record _ _ selected remote scopeId hrecord _ _ _ hstate htuple hlisten _ hfamily hfree _ _ =>
      obtain ⟨hsockets, hrecords, hpools⟩ := h.connect hs hported
        { record with
          phase := .connecting, localEndpoint := some selected, remote := some remote
          remoteScopeId := scopeId } hrecord hstate htuple hlisten hfamily hfree hok rfl rfl rfl
      exact ⟨hsockets, hrecords, hpools⟩
  | listen hrecord _ hextends hkept hpool htcp _ _ _ _ _ _ hport haddr _ _ _ _ _ =>
      obtain ⟨hsockets, hrecords, hpools⟩ := h.listen hs hrecord hextends hkept hpool htcp ⟨hport, haddr⟩
      exact ⟨hsockets, hrecords, hpools⟩
  | @amendListener listener changed hlistener hchanged =>
      refine ⟨h.sockets, h.records, h.pools.amend ?_ hchanged.pool hchanged.listenEndpoint
        hchanged.localEndpoint⟩
      rw [hchanged.identity]
      exact hlistener
  | accept hlistener _ => exact ⟨h.sockets, h.records, h.pools.amend hlistener rfl rfl rfl⟩
  | startClose deadline hrecord _ _ _ _ => exact ⟨h.sockets, h.records.amend hrecord rfl rfl rfl, h.pools⟩
  | @dropRecord record _ _ => exact h.dropRecord record
  | dropListener _ _ =>
      refine h.shrink (fun handle socket hsocket => ?_) h.records (All.erase h.pools _)
      change (eraseAll _ _)[handle]? = some _ at hsocket
      rw [getElem?_eraseAll] at hsocket
      split at hsocket
      · cases hsocket
      · exact hsocket
  | dropUdp _ _ =>
      refine h.shrink (fun handle socket hsocket => ?_) h.records h.pools
      change (eraseAll _ _)[handle]? = some _ at hsocket
      rw [getElem?_eraseAll] at hsocket
      split at hsocket
      · cases hsocket
      · exact hsocket
  | @extendUdp _ _ sockets added _ _ _ hextends hkept hudp _ _ _ _ _ _ _ _ _ =>
      refine h.shrink (fun handle socket hsocket => ?_) h.records h.pools
      have hfound : sockets[handle]? = some (.tcp socket) := hsocket
      rcases (hextends.mem handle).1 (mem_of_getElem? hfound) with hold | hadded
      · rw [← hkept handle hold]
        exact hfound
      · obtain ⟨other, hother⟩ := hudp handle hadded
        rw [hfound] at hother
        cases hother
  | _ => exact ⟨h.sockets, h.records, h.pools⟩

/-- smoltcp's polls of the call are faithful and exclusive, and the call connects no socket that is bound
to a port to a peer with which a live promoted connection of that port is connected. -/
def ConnectsApart (s : NativeStack) (call : Call) (world : World) : Prop :=
  world.Faithful ∧ world.Exclusive ∧
    ∀ (identity : SocketIdentity) (endpoint : TcpEndpoint) (pid reference : Nat) (now : Int),
      call = .tcpConnect identity endpoint pid reference now →
      ∀ (record : TcpRecord) (bound : IpEndpoint) (remote : ValidatedEndpoint),
        s.tcpRecord? identity = .ok record → record.localEndpoint = some bound →
        endpoint.remoteEndpoint = .ok remote →
        ∀ (id : Nat) (other : TcpRecord) (taken : IpEndpoint) (socket : TcpSocket),
          s.tcpRecords[id]? = some other → other.accepted = true → other.family = record.family →
          other.localEndpoint = some taken → taken.port = bound.port →
          other.remote = some remote.ipEndpoint → s.sockets[other.handle]? = some (.tcp socket) →
          socket.state = .closed

/-- The port of every record of a family is used. -/
theorem mem_usedTcpPorts {id : Nat} {endpoint : IpEndpoint} (hrecord : s.tcpRecords[id]? = some record)
    (hlocal : record.localEndpoint = some endpoint) : endpoint.port ∈ s.usedTcpPorts record.family := by
  have hin : (id, record) ∈ s.tcpRecords.toList := ExtTreeMap.mem_toList_iff_getElem?_eq_some.2 hrecord
  unfold usedTcpPorts
  refine List.mem_append_left _ (List.mem_filterMap.2 ⟨_, hin, ?_⟩)
  simp [hlocal]

theorem ConnectsApart.allowed (hported : s.Ported) {call : Call} {world : World}
    (h : ConnectsApart s call world) : call.Allowed ConnectsFree (s.beginCall world) := by
  cases call with
  | tcpConnect identity endpoint pid reference now =>
      intro t record remote selected hsame hrecord hremote hselects id other socket hother haccepted hlocal
        hotherRemote hsocket
      rw [hsame.tcpRecords] at hother
      rw [hsame.sockets] at hsocket
      have hfamily : other.family = record.family := by
        rw [← (hported.placed id other hother).family selected hlocal]
        exact (beq_iff_eq.1 hselects.family).symm
      cases hbound : record.localEndpoint with
      | some bound =>
          exact h.2.2 identity endpoint pid reference now rfl record bound remote hrecord hbound hremote id other
            selected socket hother haccepted hfamily hlocal (hselects.bound bound hbound) hotherRemote hsocket
      | none =>
          refine ((hselects.unused hbound).2 ?_).elim
          rw [← hfamily]
          exact mem_usedTcpPorts hother hlocal
  | tcpClose identity now => exact ⟨trivial, fun _ _ _ _ => trivial, fun _ _ _ _ => trivial⟩
  | _ => simp [Call.Allowed, ConnectsFree]

theorem tupled_new {limits : Limits} {config : StackConfig} {id generation : Nat}
    (h : NativeStack.new limits config id generation = .ok s) :
    s.Tupled ∧ s.world.Faithful ∧ s.world.Exclusive := by
  unfold NativeStack.new at h
  split at h
  · simp at h
  · split at h
    · simp at h
    · obtain rfl := Except.ok.inj h
      refine ⟨⟨⟨fun handle socket hsocket => ?_, fun handle other a b tuple ha => ?_⟩, all_empty _, all_empty _⟩,
        ⟨fun poll hpoll => ?_, fun poll hpoll => ?_⟩, fun poll hpoll => ?_⟩
      · simp at hsocket
      · simp at ha
      · cases hpoll
      · cases hpoll
      · cases hpoll

theorem ReachableBy.tupled (h : ReachableBy ConnectsApart s) : s.Tupled := by
  refine (h.keeps ConnectsFree (P := fun s => s.Ported ∧ s.Tupled ∧ s.world.Faithful ∧ s.world.Exclusive)
    (fun _ _ => Gentle.connectsFree) (fun _ _ _ hreached => ConnectsApart.allowed hreached.ported)
    (fun hnew => ⟨ported_new hnew, tupled_new hnew⟩) (fun t call world hcall ht => ?_) (fun t ht => ?_)
    fun u label u' hregular hu hstep hok => ?_).2.1
  · exact ⟨ht.1.of_same rfl rfl rfl rfl rfl rfl rfl, ⟨ht.2.1.sockets, ht.2.1.records, ht.2.1.pools⟩,
      hcall.1, hcall.2.1⟩
  · exact ⟨ht.1.of_same rfl rfl rfl rfl rfl rfl rfl, ⟨ht.2.1.sockets, ht.2.1.records, ht.2.1.pools⟩, ht.2.2⟩
  · obtain ⟨hported, htupled, hworld⟩ := hu
    have hlater := hstep.continues
    exact ⟨hported.step hregular.sound hstep, htupled.step hregular.sound hported hstep hworld hok,
      hworld.1.continues hlater, hworld.2.continues hlater⟩

/-- No two live connections share a four-tuple, if no call of the run connects a socket that is bound to a
port to the peer of a live promoted connection of that port. -/
theorem connections_apart (h : ReachableBy ConnectsApart s) {id other : Nat} {a b : TcpRecord}
    {x y : TcpSocket} {localEndpoint remote localEndpoint' remote' : IpEndpoint} (hne : id ≠ other)
    (ha : s.tcpRecords[id]? = some a) (hb : s.tcpRecords[other]? = some b)
    (hx : s.sockets[a.handle]? = some (.tcp x)) (hy : s.sockets[b.handle]? = some (.tcp y))
    (hlive : x.state ≠ .closed) (hlive' : y.state ≠ .closed)
    (hlocal : a.localEndpoint = some localEndpoint) (hremote : a.remote = some remote)
    (hlocal' : b.localEndpoint = some localEndpoint') (hremote' : b.remote = some remote') :
    (localEndpoint, remote) ≠ (localEndpoint', remote') := by
  intro heq
  obtain ⟨rfl, rfl⟩ := Prod.mk.inj heq
  have htupled := h.tupled
  have hsound := h.reachable.regular.1.sound
  -- Both native sockets have the four-tuple of their records, so they are one socket.
  have htuple : ∀ {i : Nat} {record : TcpRecord} {socket : TcpSocket}, s.tcpRecords[i]? = some record →
      s.sockets[record.handle]? = some (.tcp socket) → socket.state ≠ .closed →
      record.localEndpoint = some localEndpoint → record.remote = some remote →
      socket.tuple = some (localEndpoint, remote) := by
    intro i record socket hrecord hsocket hopen hl hr
    obtain ⟨l, r, hl', hr', htuple⟩ := (htupled.records i record hrecord socket hsocket hopen).tuple
    rw [hl] at hl'
    rw [hr] at hr'
    obtain rfl := Option.some.inj hl'
    obtain rfl := Option.some.inj hr'
    exact htuple
  have hhandle := htupled.sockets.apart a.handle b.handle x y _ hx hy hlive hlive'
    (htuple ha hx hlive hlocal hremote) (htuple hb hy hlive' hlocal' hremote')
  have howner := hsound.unique (owns_tcp ha) (hhandle ▸ owns_tcp hb)
  cases howner
  exact hne rfl

end NativeStack

/-! ## Two runs -/

namespace Script

/-- The worlds of a script are faithful and exclusive. -/
def Faithfully (calls : List (Call × World)) : Prop :=
  ∀ first ∈ calls, first.2.Faithful ∧ first.2.Exclusive

theorem faithful_quiet : World.Faithful {} ∧ World.Exclusive {} :=
  ⟨⟨fun _ hpoll => (by cases hpoll), fun _ hpoll => (by cases hpoll)⟩, fun _ hpoll => (by cases hpoll)⟩

theorem faithful_receives (source destination : Nat) (flags : UInt8) (handle : Nat) (motion : Motion) :
    (receives source destination flags handle motion).2.Faithful ∧
      (receives source destination flags handle motion).2.Exclusive := by
  refine ⟨⟨fun poll hpoll => ?_, fun poll hpoll => ?_⟩, fun poll hpoll => ?_⟩
  · obtain rfl := List.mem_singleton.1 hpoll
    exact IngressPoll.scripted_faithful _ _ _ _
  · cases hpoll
  · obtain rfl := List.mem_singleton.1 hpoll
    exact IngressPoll.scripted_exclusive _ _ _ _

theorem faithfully_listen : Faithfully listen := by
  simp [Faithfully, listen, faithful_quiet]

theorem faithfully_handshake (source destination handle : Nat) :
    Faithfully (handshake source destination handle) := by
  simp [Faithfully, handshake, faithful_receives]

end Script

namespace NativeStack

variable {s : NativeStack}

/-- The peer has connected from two ports. -/
def twoPeers : NativeStack :=
  (Script.stack.run (Script.listen ++ Script.handshake 5000 80 0 ++ Script.handshake 5001 80 1)).2

theorem reachableBy_twoPeers : ReachableBy ConnectsApart twoPeers := by
  refine (ReachableBy.new Script.stack_new).run fun first hfirst t => ?_
  have hworlds : first.2.Faithful ∧ first.2.Exclusive := by
    rcases List.mem_append.1 hfirst with hfirst | hfirst
    · rcases List.mem_append.1 hfirst with hfirst | hfirst
      · exact Script.faithfully_listen first hfirst
      · exact Script.faithfully_handshake 5000 80 0 first hfirst
    · exact Script.faithfully_handshake 5001 80 1 first hfirst
  refine ⟨hworlds.1, hworlds.2, fun identity endpoint pid reference now hcall => ?_⟩
  simp [Script.listen, Script.handshake, Script.receives] at hfirst
  rcases hfirst with rfl | rfl | rfl | rfl | rfl | rfl | rfl <;> cases hcall

theorem exists_socket {handle : Nat} {state : TcpState}
    (h : (s.sockets.tcp? handle).map TcpSocket.state = some state) :
    ∃ socket, s.sockets[handle]? = some (.tcp socket) ∧ socket.state = state := by
  obtain ⟨socket, hsocket, hstate⟩ := Option.map_eq_some_iff.1 h
  exact ⟨socket, SocketSet.tcp?_eq_some.1 hsocket, hstate⟩

/-- The record of a connection of the peer to port 80. -/
def fromPeer (id handle source : Nat) : TcpRecord :=
  .ofAccepted ⟨id, id⟩ handle (Script.endpoint Script.host 80) (Script.endpoint Script.peer source) 0 1024 1024

theorem connections_apart_twoPeers :
    ReachableBy ConnectsApart twoPeers ∧ twoPeers.tcpRecords[2]? = some (fromPeer 2 0 5000) ∧
      twoPeers.tcpRecords[3]? = some (fromPeer 3 1 5001) ∧
      (Script.endpoint Script.host 80, Script.endpoint Script.peer 5000) ≠
        (Script.endpoint Script.host 80, Script.endpoint Script.peer 5001) := by
  have hfirst : twoPeers.tcpRecords[2]? = some (fromPeer 2 0 5000) := by decide +kernel
  have hsecond : twoPeers.tcpRecords[3]? = some (fromPeer 3 1 5001) := by decide +kernel
  have hstate : (twoPeers.sockets.tcp? 0).map TcpSocket.state = some .established := by decide +kernel
  have hstate' : (twoPeers.sockets.tcp? 1).map TcpSocket.state = some .established := by decide +kernel
  obtain ⟨x, hx, hlive⟩ := exists_socket hstate
  obtain ⟨y, hy, hlive'⟩ := exists_socket hstate'
  exact ⟨reachableBy_twoPeers, hfirst, hsecond, connections_apart reachableBy_twoPeers (by decide) hfirst hsecond hx hy
    (by rw [hlive]; decide) (by rw [hlive']; decide) rfl rfl rfl rfl⟩

/-- The listener is closed once its connection has been accepted, and another socket is bound to its port
and connects to the peer of that connection. -/
def crossed : NativeStack :=
  (Script.waiting.run
    [(.tcpAccept ⟨1, 1⟩ 7 1, {}), (.tcpClose ⟨1, 1⟩ 0, {}), (.tcpOpen .inet6 1024 1024, {}),
      (.tcpBind ⟨3, 3⟩ ⟨Script.host, 80, 0⟩, {}), (.tcpConnect ⟨3, 3⟩ ⟨Script.peer, 5000, 0⟩ 7 2 0, {})]).2

theorem crossed_shares :
    ReachableBy (fun _ _ world => world.Faithful ∧ world.Exclusive) crossed ∧ crossed.lifecycle = .running ∧
      crossed.tcpRecords[2]? = some (fromPeer 2 0 5000) ∧
      (crossed.sockets.tcp? 0).map TcpSocket.state = some .established ∧
      ∃ record, crossed.tcpRecords[3]? = some record ∧
        record.localEndpoint = (fromPeer 2 0 5000).localEndpoint ∧
        record.remote = (fromPeer 2 0 5000).remote ∧
        (crossed.sockets.tcp? record.handle).map TcpSocket.state = some .synSent := by
  have hreached : ReachableBy (fun _ _ world => world.Faithful ∧ world.Exclusive) Script.waiting := by
    refine (ReachableBy.new Script.stack_new).run fun first hfirst _ => ?_
    rcases List.mem_append.1 hfirst with hfirst | hfirst
    · exact Script.faithfully_listen first hfirst
    · exact Script.faithfully_handshake 5000 80 0 first hfirst
  have hsome : crossed.tcpRecords[3]?.isSome = true := by decide +kernel
  obtain ⟨record, hrecord⟩ := Option.isSome_iff_exists.1 hsome
  have hends : crossed.tcpRecords[3]?.map (fun record => (record.localEndpoint, record.remote)) =
      some ((fromPeer 2 0 5000).localEndpoint, (fromPeer 2 0 5000).remote) := by decide +kernel
  have hstate : (crossed.tcpRecords[3]?.bind fun record =>
      (crossed.sockets.tcp? record.handle).map TcpSocket.state) = some .synSent := by decide +kernel
  rw [hrecord, Option.map_some] at hends
  rw [hrecord, Option.bind_some] at hstate
  obtain ⟨hlocal, hremote⟩ := Prod.mk.inj (Option.some.inj hends)
  refine ⟨hreached.run fun first hfirst _ => ?_, by decide +kernel, by decide +kernel, by decide +kernel,
    record, hrecord, hlocal, hremote, hstate⟩
  simp only [List.mem_cons, List.not_mem_nil, or_false] at hfirst
  rcases hfirst with rfl | rfl | rfl | rfl | rfl <;> exact Script.faithful_quiet

end NativeStack

end SmolNet
