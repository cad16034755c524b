import SmolNet.Frames

/-!
# Who owns a native socket

Every native socket belongs to one TCP record, one listener's pool or one UDP record, and every
open entry of the socket table has its record.  Each part of that is stated over the maps it speaks
of, so that a step which leaves them alone keeps it as it is.
-/

namespace SmolNet

open Std TreeMap

structure TcpRecord.Valid (record : TcpRecord) : Prop where
  rcvbuf : validBufferBytes record.rcvbuf = true
  sndbuf : validBufferBytes record.sndbuf = true
  idle : record.phase.idle = true → record.remote = none
  bound : record.phase = .bound → ∃ endpoint, record.localEndpoint = some endpoint ∧ endpoint.port ≠ 0

structure ListenerRecord.Valid (listener : ListenerRecord) : Prop where
  rcvbuf : validBufferBytes listener.rcvbuf = true
  sndbuf : validBufferBytes listener.sndbuf = true
  listenPort : listener.listenEndpoint.port ≠ 0
  localPort : listener.localEndpoint.port ≠ 0
  endpoint : listener.endpoint.address = listener.localEndpoint.addr

/-- A UDP record has a native socket, and one only until it is bound. -/
structure UdpRecord.Valid (record : UdpRecord) : Prop where
  handles : record.handles ≠ []
  unbound : record.localEndpoint = none → record.handles.length = 1

/-- The owners a native socket can have. -/
inductive Owner where
  | tcp (id : Nat)
  | listener (id : Nat)
  | udp (id : Nat)

namespace Ownership

section

variable (tcpRecords : ExtTreeMap Nat TcpRecord) (tcpListeners : ExtTreeMap Nat ListenerRecord)
  (udpRecords : ExtTreeMap Nat UdpRecord) (sockets : SocketSet)

/-- Records stand under their own ids and are well formed. -/
structure Filed : Prop where
  tcp : All (fun id record => record.identity.id = id ∧ record.Valid) tcpRecords
  listener : All (fun id listener => listener.identity.id = id ∧ listener.Valid) tcpListeners
  udp : All (fun id (record : UdpRecord) => record.identity.id = id ∧ record.Valid) udpRecords

/-! ## Handles -/

def tcpHandles : Multiset Nat := (vals tcpRecords).bind fun record => {record.handle}

def poolHandles : Multiset Nat := (vals tcpListeners).bind fun listener => elems listener.pool

def udpHandles : Multiset Nat :=
  (vals udpRecords).bind fun record => (record.handles : Multiset Nat)

/-- Every handle a record or a pool holds, with its multiplicity. -/
def handles : Multiset Nat :=
  tcpHandles tcpRecords + poolHandles tcpListeners + udpHandles udpRecords

/-- A record's native sockets are of its kind, and those not connected yet are closed. -/
structure Typed : Prop where
  tcp : All (fun _ record => ∃ socket, sockets[record.handle]? = some (.tcp socket) ∧
    (record.phase.idle = true → socket.state = .closed)) tcpRecords
  listener : All (fun _ listener => ∀ handle ∈ listener.pool,
    ∃ socket, sockets[handle]? = some (.tcp socket)) tcpListeners
  udp : All (fun _ (record : UdpRecord) => ∀ handle ∈ record.handles,
    ∃ socket, sockets[handle]? = some (.udp socket)) udpRecords

def Owns : Owner → Nat → Prop
  | .tcp id, handle => ∃ record, tcpRecords[id]? = some record ∧ record.handle = handle
  | .listener id, handle => ∃ listener, tcpListeners[id]? = some listener ∧ handle ∈ listener.pool
  | .udp id, handle => ∃ record, udpRecords[id]? = some record ∧ handle ∈ record.handles

/-! ## Identities -/

/-- The record, listener or UDP record of an identity exists. -/
def Holds (identity : SocketIdentity) : SocketKind → Prop
  | .tcp => (∃ record, tcpRecords[identity.id]? = some record ∧ record.identity = identity) ∨
      ∃ listener, tcpListeners[identity.id]? = some listener ∧ listener.identity = identity
  | .udp => ∃ record, udpRecords[identity.id]? = some record ∧ record.identity = identity
  | .synthetic => False

variable (roster : Nat → Option (Nat × SocketKind × SocketLifecycle)) (closingTcp : ExtTreeSet Nat)
  (nextSocketId : Nat)

/-- Every open entry has its record, no id has two records, ids to come are unused, and a socket
being closed is no longer open. -/
structure Rostered : Prop where
  entry : ∀ (id generation : Nat) (kind : SocketKind) (lifecycle : SocketLifecycle),
    roster id = some (generation, kind, lifecycle) →
      lifecycle = .open ∧ Holds tcpRecords tcpListeners udpRecords ⟨id, generation⟩ kind
  tcp_apart : ∀ id, id ∈ tcpRecords → id ∉ tcpListeners ∧ id ∉ udpRecords
  listener_apart : ∀ id, id ∈ tcpListeners → id ∉ udpRecords
  fresh : ∀ id, nextSocketId ≤ id → id ∉ tcpRecords ∧ id ∉ tcpListeners ∧ id ∉ udpRecords ∧
    roster id = none ∧ id ∉ closingTcp
  closing : ∀ id, id ∈ closingTcp → roster id = none

/-! ## Accept queues -/

/-- The connections that wait in the listeners' accept queues. -/
def queued : Multiset SocketIdentity :=
  (vals tcpListeners).bind fun listener => (listener.accepted : Multiset SocketIdentity)

/-- A queued connection waits in one queue, and is neither a listener nor unconnected. -/
structure QueuedOnce : Prop where
  nodup : (queued tcpListeners).Nodup
  child : ∀ child ∈ queued tcpListeners, child.id < nextSocketId ∧ child.id ∉ tcpListeners ∧
    child.id ∉ udpRecords ∧
    ∀ record, tcpRecords[child.id]? = some record → record.phase.idle = false

end

/-! ## Consequences -/

section

variable {tcpRecords : ExtTreeMap Nat TcpRecord} {tcpListeners : ExtTreeMap Nat ListenerRecord}
  {udpRecords : ExtTreeMap Nat UdpRecord} {id handle : Nat}

theorem mem_tcpHandles :
    handle ∈ tcpHandles tcpRecords ↔
      ∃ (id : Nat) (record : TcpRecord), tcpRecords[id]? = some record ∧ record.handle = handle := by
  simp only [tcpHandles, Multiset.mem_bind, mem_vals, Multiset.mem_singleton]
  constructor
  · rintro ⟨record, ⟨id, hid⟩, h⟩
    exact ⟨id, record, hid, h.symm⟩
  · rintro ⟨id, record, hid, h⟩
    exact ⟨record, ⟨id, hid⟩, h.symm⟩

theorem mem_poolHandles :
    handle ∈ poolHandles tcpListeners ↔
      ∃ (id : Nat) (listener : ListenerRecord),
        tcpListeners[id]? = some listener ∧ handle ∈ listener.pool := by
  simp only [poolHandles, Multiset.mem_bind, mem_vals, mem_elems]
  constructor
  · rintro ⟨listener, ⟨id, hid⟩, h⟩
    exact ⟨id, listener, hid, h⟩
  · rintro ⟨id, listener, hid, h⟩
    exact ⟨listener, ⟨id, hid⟩, h⟩

theorem mem_udpHandles :
    handle ∈ udpHandles udpRecords ↔
      ∃ (id : Nat) (record : UdpRecord), udpRecords[id]? = some record ∧ handle ∈ record.handles := by
  simp only [udpHandles, Multiset.mem_bind, mem_vals, Multiset.mem_coe]
  constructor
  · rintro ⟨record, ⟨id, hid⟩, h⟩
    exact ⟨id, record, hid, h⟩
  · rintro ⟨id, record, hid, h⟩
    exact ⟨record, ⟨id, hid⟩, h⟩

theorem mem_handles :
    handle ∈ handles tcpRecords tcpListeners udpRecords ↔
      ∃ owner, Owns tcpRecords tcpListeners udpRecords owner handle := by
  rw [handles, Multiset.mem_add, Multiset.mem_add, mem_tcpHandles, mem_poolHandles, mem_udpHandles]
  constructor
  · rintro ((⟨id, h⟩ | ⟨id, h⟩) | ⟨id, h⟩)
    · exact ⟨.tcp id, h⟩
    · exact ⟨.listener id, h⟩
    · exact ⟨.udp id, h⟩
  · rintro ⟨owner, h⟩
    cases owner with
    | tcp id => exact .inl (.inl ⟨id, h⟩)
    | listener id => exact .inl (.inr ⟨id, h⟩)
    | udp id => exact .inr ⟨id, h⟩

theorem Rostered.mono {roster : Nat → Option (Nat × SocketKind × SocketLifecycle)}
    {closingTcp : ExtTreeSet Nat} {next next' : Nat}
    (h : Rostered tcpRecords tcpListeners udpRecords roster closingTcp next) (hnext : next ≤ next') :
    Rostered tcpRecords tcpListeners udpRecords roster closingTcp next' :=
  { h with fresh := fun id hid => h.fresh id (hnext.trans hid) }

theorem QueuedOnce.mono {next next' : Nat}
    (h : QueuedOnce tcpRecords tcpListeners udpRecords next) (hnext : next ≤ next') :
    QueuedOnce tcpRecords tcpListeners udpRecords next' :=
  { h with
    child := fun child hchild =>
      ⟨(h.child child hchild).1.trans_le hnext, (h.child child hchild).2⟩ }

/-- In a duplicate-free union over a map's values, an element comes from one key. -/
theorem eq_of_mem_bind {β : Type} {m : ExtTreeMap Nat β} {id' : Nat} {v v' : β}
    {f : β → Multiset Nat} (hnodup : ((vals m).bind f).Nodup)
    (h : m[id]? = some v) (h' : m[id']? = some v') (hv : handle ∈ f v) (hv' : handle ∈ f v') :
    id = id' := by
  by_contra hne
  have herase : (m.erase id)[id']? = some v' := by
    rw [ExtTreeMap.getElem?_erase]
    simp [hne, h']
  rw [vals_eq_cons_erase h, Multiset.cons_bind, Multiset.nodup_add] at hnodup
  have hrest : handle ∈ (vals (m.erase id)).bind f :=
    Multiset.mem_bind.2 ⟨v', mem_vals.2 ⟨id', herase⟩, hv'⟩
  exact Multiset.disjoint_left.1 hnodup.2.2 hv hrest

/-- Where no handle is held twice, a handle has one owner. -/
theorem Owns.unique (hnodup : (handles tcpRecords tcpListeners udpRecords).Nodup)
    {owner owner' : Owner} (ho : Owns tcpRecords tcpListeners udpRecords owner handle)
    (ho' : Owns tcpRecords tcpListeners udpRecords owner' handle) : owner = owner' := by
  rw [handles, Multiset.nodup_add, Multiset.nodup_add, Multiset.disjoint_left,
    Multiset.disjoint_left] at hnodup
  obtain ⟨⟨htcp, hlistener, htl⟩, hudp, htlu⟩ := hnodup
  cases owner with
  | tcp id =>
      have hmem := mem_tcpHandles.2 ⟨id, ho⟩
      cases owner' with
      | tcp id' =>
          obtain ⟨x, hx, hx'⟩ := ho
          obtain ⟨y, hy, hy'⟩ := ho'
          rw [eq_of_mem_bind htcp hx hy (by simpa using hx'.symm) (by simpa using hy'.symm)]
      | listener id' => exact (htl hmem (mem_poolHandles.2 ⟨id', ho'⟩)).elim
      | udp id' =>
          exact (htlu (Multiset.mem_add.2 (.inl hmem)) (mem_udpHandles.2 ⟨id', ho'⟩)).elim
  | listener id =>
      have hmem := mem_poolHandles.2 ⟨id, ho⟩
      cases owner' with
      | tcp id' => exact (htl (mem_tcpHandles.2 ⟨id', ho'⟩) hmem).elim
      | listener id' =>
          obtain ⟨x, hx, hx'⟩ := ho
          obtain ⟨y, hy, hy'⟩ := ho'
          rw [eq_of_mem_bind hlistener hx hy (mem_elems.2 hx') (mem_elems.2 hy')]
      | udp id' =>
          exact (htlu (Multiset.mem_add.2 (.inr hmem)) (mem_udpHandles.2 ⟨id', ho'⟩)).elim
  | udp id =>
      have hmem := mem_udpHandles.2 ⟨id, ho⟩
      cases owner' with
      | tcp id' =>
          exact (htlu (Multiset.mem_add.2 (.inl (mem_tcpHandles.2 ⟨id', ho'⟩))) hmem).elim
      | listener id' =>
          exact (htlu (Multiset.mem_add.2 (.inr (mem_poolHandles.2 ⟨id', ho'⟩))) hmem).elim
      | udp id' =>
          obtain ⟨x, hx, hx'⟩ := ho
          obtain ⟨y, hy, hy'⟩ := ho'
          rw [eq_of_mem_bind hudp hx hy hx' hy']

end

end Ownership

open Ownership

namespace NativeStack

/-- The ownership invariant of a stack. -/
structure Sound (s : NativeStack) : Prop where
  filed : Filed s.tcpRecords s.tcpListeners s.udpRecords
  handles : handles s.tcpRecords s.tcpListeners s.udpRecords = keySet s.sockets
  typed : Typed s.tcpRecords s.tcpListeners s.udpRecords s.sockets
  rostered : Rostered s.tcpRecords s.tcpListeners s.udpRecords s.socketTable.roster s.closingTcp
    s.nextSocketId
  queues : QueuedOnce s.tcpRecords s.tcpListeners s.udpRecords s.nextSocketId

abbrev Owns (s : NativeStack) : Owner → Nat → Prop :=
  Ownership.Owns s.tcpRecords s.tcpListeners s.udpRecords

theorem owns_tcp {s : NativeStack} {id : Nat} {record : TcpRecord}
    (h : s.tcpRecords[id]? = some record) : s.Owns (.tcp id) record.handle := ⟨record, h, rfl⟩

theorem owns_listener {s : NativeStack} {id handle : Nat} {listener : ListenerRecord}
    (h : s.tcpListeners[id]? = some listener) (hhandle : handle ∈ listener.pool) :
    s.Owns (.listener id) handle := ⟨listener, h, hhandle⟩

theorem owns_udp {s : NativeStack} {id handle : Nat} {record : UdpRecord}
    (h : s.udpRecords[id]? = some record) (hhandle : handle ∈ record.handles) :
    s.Owns (.udp id) handle := ⟨record, h, hhandle⟩

namespace Sound

variable {s : NativeStack} (h : s.Sound)
include h

theorem mem_sockets {handle : Nat} : handle ∈ s.sockets ↔ ∃ owner, s.Owns owner handle := by
  rw [← mem_keySet (m := s.sockets), ← h.handles, mem_handles]

theorem unique {owner owner' : Owner} {handle : Nat} (ho : s.Owns owner handle)
    (ho' : s.Owns owner' handle) : owner = owner' := by
  refine Ownership.Owns.unique ?_ ho ho'
  rw [h.handles]
  exact nodup_keySet s.sockets

end Sound

end NativeStack

end SmolNet
