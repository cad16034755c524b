import SmolNet.Calls

/-!
# The steps of a stack

A transition system for the native stack.  Each step is one of the changes the calls make to the
stack's structures, with what the call has checked before it; the programs are shown elsewhere to be
sequences of these steps, so an invariant has to be checked against the steps only.  A label says
what a step does that some invariants depend on.
-/

namespace SmolNet

open Std

inductive StepLabel where
  | silent
  /-- An open socket's entry leaves the table. -/
  | closes (identity : SocketIdentity)
  /-- The record of a socket that has been closed is dropped, and not by the close sweep. -/
  | drops (identity : SocketIdentity)
  /-- The waiter of a key is cancelled. -/
  | cancels (key : ReadyKey)
  /-- A socket starts to connect. -/
  | connects (identity : SocketIdentity) (localEndpoint remote : IpEndpoint)

def ConnectPhase.idle : ConnectPhase → Bool
  | .open | .bound => true
  | _ => false

/-- The kind and the buffers of a native socket stay. -/
def NativeSocket.SameShape : NativeSocket → NativeSocket → Prop
  | .tcp a, .tcp b => b.rx.capacity = a.rx.capacity ∧ b.tx.capacity = a.tx.capacity
  | .udp _, .udp _ => True
  | _, _ => False

namespace NativeStack

/-! ## The states steps lead to -/

/-- `s` with the schedule of `t`: the fields that say what runs when and how it is counted, and
the identity counters. -/
def retimed (s t : NativeStack) : NativeStack :=
  { s with
    closingSweepCursor := t.closingSweepCursor
    closingCleanupPending := t.closingCleanupPending
    closingCleanupResweep := t.closingCleanupResweep
    maintenanceCleanupTurn := t.maintenanceCleanupTurn
    scheduledPollAt := t.scheduledPollAt
    listenerScanCursor := t.listenerScanCursor
    listenerScanPending := t.listenerScanPending
    listenerScanResweep := t.listenerScanResweep
    listenerMaintenanceTurn := t.listenerMaintenanceTurn
    counters := t.counters
    callBudget := t.callBudget
    nextSocketId := t.nextSocketId
    nextGeneration := t.nextGeneration
    world := t.world }

/-- The connection that a reset segment in `packet` is about to end, and how that will be reported. -/
def resetTarget (s : NativeStack) (packet : Packet) : Option (TcpRecord × ConnectFailure) :=
  match (Wire.resetKey packet).bind fun key => s.tcpConnections[key]? with
  | none => none
  | some identity =>
      match s.tcpRecord? identity with
      | .error _ => none
      | .ok record =>
          match (s.sockets.tcp? record.handle).map TcpSocket.state with
          | some .established => some (record, .reset)
          | some .synSent | some .synReceived => some (record, .refused)
          | _ => none

/-- The records after smoltcp has processed a packet and left `sockets`: a reset that closed its
socket is recorded as the failure of the connection. -/
inductive ResetRecords (s : NativeStack) (packet : Packet) (sockets : SocketSet) :
    ExtTreeMap Nat TcpRecord → Prop
  | unnamed (h : s.resetTarget packet = none) : ResetRecords s packet sockets s.tcpRecords
  | standing {record : TcpRecord} {failure : ConnectFailure} {socket : TcpSocket}
      (h : s.resetTarget packet = some (record, failure))
      (hsocket : sockets[record.handle]? = some (.tcp socket)) (hstate : socket.state ≠ .closed) :
      ResetRecords s packet sockets s.tcpRecords
  | failed {record : TcpRecord} {failure : ConnectFailure} {socket : TcpSocket}
      (h : s.resetTarget packet = some (record, failure))
      (hsocket : sockets[record.handle]? = some (.tcp socket)) (hstate : socket.state = .closed) :
      ResetRecords s packet sockets
        (s.tcpRecords.insert record.identity.id { record with phase := .failed failure })

/-- What the stack and smoltcp's timers do to a TCP socket: its connection stays, a timer ends it,
its sending side is shut down, it is aborted once its socket has been closed, or it is a listener's
and listens elsewhere. -/
inductive Moves (s : NativeStack) (handle : Nat) (a b : TcpSocket) : Prop
  | keeps (h : a.SameConnection b)
  | expires (h : a.Expires b)
  | shuts {id : Nat} {record : TcpRecord} (hrecord : s.tcpRecords[id]? = some record)
      (hhandle : record.handle = handle) (hphase : record.phase = .connected)
      (h : a.close.1.SameConnection b)
  | aborts {id : Nat} {record : TcpRecord} (hrecord : s.tcpRecords[id]? = some record)
      (hhandle : record.handle = handle) (hgone : s.socketTable.entries[id]? = none)
      (hclosed : b.state = .closed)
  | retargets {id : Nat} {listener : ListenerRecord} {endpoint : IpListenEndpoint} {addr : IpAddress}
      (hlistener : s.tcpListeners[id]? = some listener) (hpool : handle ∈ listener.pool)
      (hlisten : a.state = .listen) (hport : endpoint.port = listener.localEndpoint.port)
      (haddr : endpoint.addr = some addr)
      (hfamily : AddressFamily.of addr = AddressFamily.of listener.localEndpoint.addr)
      (h : b.Listens endpoint)

/-- Every TCP socket moves in one of these ways. -/
def Moved (s : NativeStack) (sockets : SocketSet) : Prop :=
  ∀ (handle : Nat) (a b : TcpSocket), s.sockets[handle]? = some (.tcp a) →
    sockets[handle]? = some (.tcp b) → s.Moves handle a b

/-- A change of the native sockets that keeps the set of handles and each socket's shape; sockets
of records that are not connected yet stay closed. -/
structure Reshapes (s : NativeStack) (sockets : SocketSet) : Prop where
  shape : ∀ handle : Nat, Option.Rel NativeSocket.SameShape s.sockets[handle]? sockets[handle]?
  idle : ∀ (id : Nat) (record : TcpRecord) (socket : TcpSocket), s.tcpRecords[id]? = some record →
    record.phase.idle = true → sockets[record.handle]? = some (.tcp socket) → socket.state = .closed

/-- Removes a record with its native socket. -/
def dropRecord (s : NativeStack) (record : TcpRecord) : NativeStack :=
  { s.removeTcpRecord record with sockets := s.sockets.erase record.handle }

/-- Takes a record out of the indexes of sockets being closed. -/
def unclose (s : NativeStack) (record : TcpRecord) : NativeStack :=
  { s with
    closingTcp := s.closingTcp.erase record.identity.id
    closingDeadlines := record.closeDeadline.elim s.closingDeadlines fun deadline =>
      s.closingDeadlines.erase (deadline, record.identity.id) }

def eraseAll (sockets : SocketSet) (handles : List Nat) : SocketSet :=
  handles.foldl (fun sockets handle => sockets.erase handle) sockets

def dropListener (s : NativeStack) (listener : ListenerRecord) : NativeStack :=
  { s with
    tcpListeners := s.tcpListeners.erase listener.identity.id
    sockets := eraseAll s.sockets listener.pool.toList }

def dropUdp (s : NativeStack) (record : UdpRecord) : NativeStack :=
  { s with
    udpRecords := s.udpRecords.erase record.identity.id
    sockets := eraseAll s.sockets record.handles }

/-- A new entry in the table. -/
def enroll (s : NativeStack) (identity : SocketIdentity) (kind : SocketKind) : NativeStack :=
  { s with
    socketTable := s.socketTable.insertEntry identity kind
    nextSocketId := identity.id + 1 }

/-- A pool member as a listener makes it. -/
def freshMember (listener : ListenerRecord) : TcpSocket :=
  { TcpSocket.new listener.rcvbuf listener.sndbuf with
    timeout := some connectTimeoutMillis
    listenEndpoint := listener.listenEndpoint
    state := .listen }

/-- A listener's pool after `handle` has left it and the next free handle has joined. -/
def refilled (sockets : SocketSet) (listener : ListenerRecord) (handle : Nat) : ListenerRecord :=
  { listener with pool := (listener.pool.erase handle).insert sockets.freeHandle }

/-- A pool member leaves the pool as the connection `child`, and a fresh one takes its place. -/
def promoted (s : NativeStack) (listener : ListenerRecord) (handle : Nat) (child : SocketIdentity)
    (localEndpoint remote : IpEndpoint) : NativeStack :=
  { s.enroll child .tcp with
    history :=
      ((s.logTuple child (.ofEndpoints localEndpoint remote)).logPromotion listener.identity child).history
    sockets := (s.sockets.add (.tcp (freshMember listener))).2
    tcpConnections := s.tcpConnections.insert (.ofEndpoints localEndpoint remote) child
    tcpRecords := s.tcpRecords.insert child.id
      (.ofAccepted child handle localEndpoint remote listener.endpoint.scopeId listener.rcvbuf
        listener.sndbuf)
    tcpListeners := s.tcpListeners.insert listener.identity.id
      { refilled s.sockets listener handle with accepted := listener.accepted ++ [child] } }

/-- A spent pool member is replaced. -/
def recycled (s : NativeStack) (listener : ListenerRecord) (handle : Nat) : NativeStack :=
  { s with
    sockets := (SocketSet.add (s.sockets.erase handle) (.tcp (freshMember listener))).2
    tcpListeners := s.tcpListeners.insert listener.identity.id
      (refilled (s.sockets.erase handle) listener handle) }

def putRecord (s : NativeStack) (record : TcpRecord) : NativeStack :=
  { s with tcpRecords := s.tcpRecords.insert record.identity.id record }

def putListener (s : NativeStack) (listener : ListenerRecord) : NativeStack :=
  { s with tcpListeners := s.tcpListeners.insert listener.identity.id listener }

def putUdpRecord (s : NativeStack) (record : UdpRecord) : NativeStack :=
  { s with udpRecords := s.udpRecords.insert record.identity.id record }

/-- What most changes of a record keep. -/
structure Amends (record changed : TcpRecord) : Prop where
  identity : changed.identity = record.identity
  handle : changed.handle = record.handle
  rcvbuf : changed.rcvbuf = record.rcvbuf
  sndbuf : changed.sndbuf = record.sndbuf
  family : changed.family = record.family
  accepted : changed.accepted = record.accepted
  localEndpoint : changed.localEndpoint = record.localEndpoint
  remote : changed.remote = record.remote
  idle : changed.phase.idle = true → record.phase.idle = true
  bound : changed.phase = .bound → record.phase = .bound
  opened : changed.phase = .open → record.phase = .open

theorem Amends.key {record changed : TcpRecord} (h : Amends record changed) :
    changed.connectionKey = record.connectionKey := by
  unfold TcpRecord.connectionKey
  rw [h.localEndpoint, h.remote]

/-- A record changes to a phase in which it is not idle. -/
theorem amends_phase (record : TcpRecord) (phase : ConnectPhase) (hphase : phase.idle = false) :
    Amends record { record with phase := phase } := by
  refine ⟨rfl, rfl, rfl, rfl, rfl, rfl, rfl, rfl, fun h => ?_, fun h => ?_, fun h => ?_⟩
  · exact (Bool.false_ne_true (hphase.symm.trans h)).elim
  · rw [show phase = .bound from h] at hphase
    cases hphase
  · rw [show phase = .open from h] at hphase
    cases hphase

/-- A change of a record keeps its phase, or a connect is over: the handshake is complete, or the native
socket has closed. -/
inductive PhaseChange (s : NativeStack) (record changed : TcpRecord) : Prop
  | same (h : changed.phase = record.phase)
  | connected {socket : TcpSocket} (hphase : record.phase = .connecting)
      (hsocket : s.sockets[record.handle]? = some (.tcp socket)) (hstate : socket.state = .established)
      (h : changed.phase = .connected)
  | timedOut {socket : TcpSocket} (hphase : record.phase = .connecting)
      (hsocket : s.sockets[record.handle]? = some (.tcp socket)) (hstate : socket.state = .closed)
      (h : changed.phase = .failed .timedOut)

/-- What a change of a listener keeps. -/
structure AmendsListener (listener changed : ListenerRecord) : Prop where
  identity : changed.identity = listener.identity
  pool : changed.pool = listener.pool
  accepted : changed.accepted = listener.accepted
  backlog : changed.backlog = listener.backlog
  poolTarget : changed.poolTarget = listener.poolTarget
  rcvbuf : changed.rcvbuf = listener.rcvbuf
  sndbuf : changed.sndbuf = listener.sndbuf
  endpoint : changed.endpoint = listener.endpoint
  listenEndpoint : changed.listenEndpoint = listener.listenEndpoint
  localEndpoint : changed.localEndpoint = listener.localEndpoint

/-- Handles that join the set, and the sockets they get. -/
structure Extends (s : NativeStack) (sockets : SocketSet) (handles : List Nat) : Prop where
  nodup : handles.Nodup
  fresh : ∀ handle ∈ handles, handle ∉ s.sockets
  mem : ∀ handle, handle ∈ sockets ↔ handle ∈ s.sockets ∨ handle ∈ handles

/-! ## Steps inside a drive -/

inductive DriveStep : NativeStack → StepLabel → NativeStack → Prop
  | tick {s : NativeStack} (t : NativeStack) (hid : s.nextSocketId ≤ t.nextSocketId)
      (hworld : s.world.Continues t.world) : DriveStep s .silent (s.retimed t)
  | wake {s : NativeStack} (key : ReadyKey) : DriveStep s .silent (s.wake key)
  | native {s : NativeStack} {sockets : SocketSet} (h : s.Reshapes sockets)
      (hmoved : s.world.Faithful → s.Moved sockets) : DriveStep s .silent { s with sockets := sockets }
  | ingest {s : NativeStack} {sockets : SocketSet} {records : ExtTreeMap Nat TcpRecord}
      (packet : Packet) (h : s.Reshapes sockets)
      (hreceives : s.world.Faithful → s.sockets.Receives packet sockets)
      (hapart : s.world.Exclusive → s.sockets.OpensApart sockets)
      (hrecords : s.ResetRecords packet sockets records) :
      DriveStep s .silent { s with sockets := sockets, tcpRecords := records }
  | device {s : NativeStack} (device : BeamDevice) : DriveStep s .silent { s with device := device }
  | amend {s : NativeStack} {record changed : TcpRecord}
      (h : s.tcpRecords[record.identity.id]? = some record) (hchanged : Amends record changed)
      (hdeadline : changed.closeDeadline = record.closeDeadline) (hphase : s.PhaseChange record changed) :
      DriveStep s .silent (s.putRecord changed)
  | expire {s : NativeStack} {record : TcpRecord} {deadline : Instant} {socket : TcpSocket}
      (h : s.tcpRecords[record.identity.id]? = some record)
      (hclosing : record.identity.id ∈ s.closingTcp)
      (hdeadline : record.closeDeadline = some deadline)
      (hsocket : s.sockets[record.handle]? = some (.tcp socket)) (hstate : socket.state = .closed) :
      DriveStep s .silent
        { s.putRecord { record with closeDeadline := none } with
          closingDeadlines := s.closingDeadlines.erase (deadline, record.identity.id) }
  | reap {s : NativeStack} {record : TcpRecord} {socket : TcpSocket}
      (h : s.tcpRecords[record.identity.id]? = some record)
      (hclosing : record.identity.id ∈ s.closingTcp)
      (hsocket : s.sockets[record.handle]? = some (.tcp socket)) (hstate : socket.state = .closed)
      (hunbound : socket.localEndpoint = none) :
      DriveStep s .silent ((s.dropRecord record).unclose record)
  | forget {s : NativeStack} {id : Nat} (h : s.tcpRecords[id]? = none) :
      DriveStep s .silent { s with closingTcp := s.closingTcp.erase id }
  | promote {s : NativeStack} {listener : ListenerRecord} {handle : Nat} {child : SocketIdentity}
      {socket : TcpSocket} {localEndpoint remote : IpEndpoint}
      (h : s.tcpListeners[listener.identity.id]? = some listener) (hpool : handle ∈ listener.pool)
      (hsocket : s.sockets[handle]? = some (.tcp socket))
      (hstate : socket.state = .established ∨ socket.state = .closeWait)
      (htuple : socket.tuple = some (localEndpoint, remote))
      (hbacklog : listener.accepted.length < listener.backlog)
      (hid : s.nextSocketId ≤ child.id)
      (hlogical : s.socketTable.len + s.closingTcp.size < s.limits.sockets)
      (hnative : s.sockets.size + 1 ≤ s.limits.sockets)
      (hbuffers : s.socketBufferBytes + (listener.rcvbuf + listener.sndbuf) ≤ maxSocketBufferBytes) :
      DriveStep s .silent
        ((s.promoted listener handle child localEndpoint remote).markListenerReady listener.identity)
  | recycle {s : NativeStack} {listener : ListenerRecord} {handle : Nat}
      (h : s.tcpListeners[listener.identity.id]? = some listener) (hpool : handle ∈ listener.pool) :
      DriveStep s .silent (s.recycled listener handle)

/-! ## Steps of the calls -/

inductive Step : NativeStack → StepLabel → NativeStack → Prop
  | drive {s s' : NativeStack} {label : StepLabel} (h : DriveStep s label s') : Step s label s'
  | finish {s : NativeStack} (result : Reply) (effects : Effects) {aborts : List PendingNotification}
      (h : aborts = s.history.inHand) : Step s .silent (finish result effects aborts s).2
  | install {s : NativeStack} {registration : WaiterRegistration} {table : SocketTable}
      (h : s.socketTable.installWaiter registration = .ok (.armed, table))
      (hactive : ∀ record, s.tcpRecords[registration.identity.id]? = some record →
        record.phase.idle = false)
      (hqueue : ∀ listener, s.tcpListeners[registration.identity.id]? = some listener →
        listener.accepted = []) :
      Step s .silent
        ({ s with socketTable := table }.logEvent (.armed registration.key registration.waiter))
  | abort {s : NativeStack} {identity : SocketIdentity} {direction : Direction} {waiter : Waiter}
      {table : SocketTable}
      (h : s.socketTable.takeWaiter identity .tcp direction = .ok (some waiter, table)) :
      Step s .silent
        ({ s with
          socketTable := table
          history := { s.history with
            inHand := s.history.inHand ++ [(⟨identity, direction, waiter⟩ : PendingNotification)] } }.logEvent
              (.aborted ⟨identity, direction⟩ waiter))
  | cancel {s : NativeStack} {identity : SocketIdentity} {operation : Operation} {reference : Nat}
      {table : SocketTable} {entry : SocketEntry} {waiter : Waiter}
      (h : s.socketTable.cancel identity operation reference = .ok (.cancelled, table))
      (hentry : s.socketTable.lookup identity = some entry)
      (hwaiter : entry.waiter operation.direction = some waiter) :
      Step s (.cancels ⟨identity, operation.direction⟩)
        ({ s with socketTable := table }.logEvent
          (.cancelled ⟨identity, operation.direction⟩ waiter))
  | close {s : NativeStack} {identity : SocketIdentity} {waiters : List (Direction × Waiter)}
      {table : SocketTable} (h : s.socketTable.close identity = .ok (waiters, table)) :
      Step s (.closes identity)
        ({ s with
          socketTable := table
          history := { s.history with
            inHand := s.history.inHand ++ notifications identity waiters } }.logAborts
              (notifications identity waiters))
  | openTcp {s : NativeStack} {identity : SocketIdentity} {family : AddressFamily}
      {rcvbuf sndbuf : Nat} (hid : s.nextSocketId ≤ identity.id)
      (hrcvbuf : validBufferBytes rcvbuf = true) (hsndbuf : validBufferBytes sndbuf = true)
      (hlogical : s.socketTable.len + s.closingTcp.size < s.limits.sockets)
      (hnative : s.sockets.size + 1 ≤ s.limits.sockets)
      (hbuffers : s.socketBufferBytes + (rcvbuf + sndbuf) ≤ maxSocketBufferBytes) :
      Step s .silent
        { s.enroll identity .tcp with
          sockets := (s.sockets.add (.tcp (.new rcvbuf sndbuf))).2
          tcpRecords := s.tcpRecords.insert identity.id
            (.new identity s.sockets.freeHandle family rcvbuf sndbuf) }
  | openUdp {s : NativeStack} {identity : SocketIdentity} {family : AddressFamily}
      (hid : s.nextSocketId ≤ identity.id)
      (hlogical : s.socketTable.len + s.closingTcp.size < s.limits.sockets)
      (hnative : s.sockets.size + 1 ≤ s.limits.sockets)
      (hbuffers : s.socketBufferBytes + udpBufferBytes ≤ maxSocketBufferBytes) :
      Step s .silent
        { s.enroll identity .udp with
          sockets := (s.sockets.add (.udp .new)).2
          udpRecords := s.udpRecords.insert identity.id (.new identity s.sockets.freeHandle family) }
  | allocate {s : NativeStack} {port : Nat} (hfirst : ephemeralPortFirst ≤ port)
      (hlast : port ≤ ephemeralPortLast) :
      Step s .silent { s with nextEphemeralPort := nextEphemeral port }
  | allocateUdp {s : NativeStack} {port : Nat} (hfirst : ephemeralPortFirst ≤ port)
      (hlast : port ≤ ephemeralPortLast) :
      Step s .silent { s with nextUdpEphemeralPort := nextEphemeral port }
  | bind {s : NativeStack} {record : TcpRecord} (endpoint : IpEndpoint) (scopeId : Nat)
      (ephemeral : Bool) (h : s.tcpRecords[record.identity.id]? = some record)
      (hphase : record.phase = .open) (hport : endpoint.port ≠ 0)
      (hfamily : record.family.includes endpoint.addr = true)
      (hfree : s.portInUse endpoint.port record.family (some record.identity) = false)
      (hunused : ephemeral = true →
        Ephemeral endpoint.port ∧ endpoint.port ∉ s.usedTcpPorts record.family) :
      Step s .silent
        { s.putRecord { record with
            phase := .bound
            localEndpoint := some endpoint
            localScopeId := scopeId } with
          history := (s.logPort ephemeral
            ⟨.tcp, record.identity, endpoint.port, s.usedTcpPorts record.family⟩).history }
  | connect {s : NativeStack} {record : TcpRecord} {socket changed : TcpSocket}
      {selected remote : IpEndpoint} (scopeId : Nat)
      (h : s.tcpRecords[record.identity.id]? = some record) (hidle : record.phase.idle = true)
      (hsocket : s.sockets[record.handle]? = some (.tcp socket))
      (hshape : (NativeSocket.tcp socket).SameShape (.tcp changed))
      (hstate : changed.state = .synSent) (htuple : changed.tuple = some (selected, remote))
      (hlisten : changed.listenEndpoint = TcpSocket.unbound) (hunended : changed.Unended)
      (hfamily : record.family.includes selected.addr = true)
      (hfree : s.portInUse selected.port record.family (some record.identity) = false)
      (hbound : ∀ bound, record.localEndpoint = some bound → selected.port = bound.port)
      (hunused : record.localEndpoint = none →
        Ephemeral selected.port ∧ selected.port ∉ s.usedTcpPorts record.family) :
      Step s (.connects record.identity selected remote)
        { s.putRecord { record with
            phase := .connecting
            localEndpoint := some selected
            remote := some remote
            remoteScopeId := scopeId } with
          history := ((s.logTuple record.identity (.ofEndpoints selected remote)).logPort
            record.localEndpoint.isNone
            ⟨.tcp, record.identity, selected.port, s.usedTcpPorts record.family⟩).history
          sockets := s.sockets.insert record.handle (.tcp changed)
          tcpConnections := s.tcpConnections.insert (.ofEndpoints selected remote) record.identity }
  | listen {s : NativeStack} {record : TcpRecord} {listener : ListenerRecord} {sockets : SocketSet}
      {added : List Nat}
      (h : s.tcpRecords[record.identity.id]? = some record) (hphase : record.phase = .bound)
      (hextends : s.Extends sockets added)
      (hkept : ∀ handle, handle ∈ s.sockets → handle ≠ record.handle →
        sockets[handle]? = s.sockets[handle]?)
      (hpool : ∀ handle, handle ∈ listener.pool ↔ handle = record.handle ∨ handle ∈ added)
      (htcp : ∀ handle ∈ listener.pool, ∃ socket, sockets[handle]? = some (.tcp socket) ∧
        socket.Listens listener.listenEndpoint)
      (hidentity : listener.identity = record.identity) (haccepted : listener.accepted = [])
      (hrcvbuf : listener.rcvbuf = record.rcvbuf) (hsndbuf : listener.sndbuf = record.sndbuf)
      (hlocal : record.localEndpoint = some listener.localEndpoint)
      (hendpoint : listener.endpoint.address = listener.localEndpoint.addr)
      (hport : listener.listenEndpoint.port = listener.localEndpoint.port)
      (haddr : ∃ addr, listener.listenEndpoint.addr = some addr ∧
        AddressFamily.of addr = AddressFamily.of listener.localEndpoint.addr)
      (hbacklog : 1 ≤ listener.backlog) (htarget : listener.poolTarget = min listener.backlog listenerPoolMax)
      (hsize : added.length + 1 = listener.poolTarget)
      (hnative : s.sockets.size + added.length ≤ s.limits.sockets)
      (hbuffers : s.socketBufferBytes + added.length * (record.rcvbuf + record.sndbuf) ≤
        maxSocketBufferBytes) :
      Step s .silent
        { (s.removeTcpRecord record).putListener listener with sockets := sockets }
  | amendListener {s : NativeStack} {listener changed : ListenerRecord}
      (h : s.tcpListeners[listener.identity.id]? = some listener)
      (hchanged : AmendsListener listener changed) : Step s .silent (s.putListener changed)
  | accept {s : NativeStack} {listener : ListenerRecord} {child : SocketIdentity}
      {rest : List SocketIdentity} (h : s.tcpListeners[listener.identity.id]? = some listener)
      (haccepted : listener.accepted = child :: rest) :
      Step s .silent
        ((s.putListener { listener with accepted := rest }).logAccept listener.identity child)
  | startClose {s : NativeStack} {record : TcpRecord} (deadline : Instant)
      (h : s.tcpRecords[record.identity.id]? = some record) (hidle : record.phase.idle = false)
      (hclosed : s.socketTable.entries[record.identity.id]? = none)
      (hnew : record.identity.id ∉ s.closingTcp)
      (hlogical : s.socketTable.len + s.closingTcp.size < s.limits.sockets) :
      Step s .silent
        { s.putRecord { record with closeDeadline := some deadline } with
          closingTcp := s.closingTcp.insert record.identity.id
          closingDeadlines := s.closingDeadlines.insert (deadline, record.identity.id) }
  | dropRecord {s : NativeStack} {record : TcpRecord}
      (h : s.tcpRecords[record.identity.id]? = some record)
      (hclosed : s.socketTable.entries[record.identity.id]? = none) :
      Step s (.drops record.identity) (s.dropRecord record)
  | unclose {s : NativeStack} (record : TcpRecord)
      (h : s.tcpRecords[record.identity.id]? = none) : Step s .silent (s.unclose record)
  | dropListener {s : NativeStack} {listener : ListenerRecord}
      (h : s.tcpListeners[listener.identity.id]? = some listener)
      (hclosed : s.socketTable.entries[listener.identity.id]? = none) :
      Step s .silent (s.dropListener listener)
  | dropUdp {s : NativeStack} {record : UdpRecord}
      (h : s.udpRecords[record.identity.id]? = some record)
      (hclosed : s.socketTable.entries[record.identity.id]? = none) :
      Step s .silent (s.dropUdp record)
  | amendUdp {s : NativeStack} {record changed : UdpRecord}
      (h : s.udpRecords[record.identity.id]? = some record)
      (hidentity : changed.identity = record.identity) (hhandles : changed.handles = record.handles)
      (hfamily : changed.family = record.family)
      (hlocal : changed.localEndpoint = record.localEndpoint) :
      Step s .silent (s.putUdpRecord changed)
  | extendUdp {s : NativeStack} {record changed : UdpRecord} {sockets : SocketSet} {added : List Nat}
      {endpoint : ValidatedEndpoint} (ephemeral : Bool)
      (h : s.udpRecords[record.identity.id]? = some record)
      (hextends : s.Extends sockets added)
      (hkept : ∀ handle, handle ∈ s.sockets → sockets[handle]? = s.sockets[handle]?)
      (hudp : ∀ handle ∈ added, ∃ socket, sockets[handle]? = some (.udp socket))
      (hidentity : changed.identity = record.identity)
      (hhandles : changed.handles = record.handles ++ added)
      (hfamily : changed.family = record.family)
      (hopen : record.localEndpoint = none) (hlocal : changed.localEndpoint = some endpoint)
      (hfree : s.udpPortInUse endpoint.port record.family (some record.identity) = false)
      (hunused : ephemeral = true →
        Ephemeral endpoint.port ∧ endpoint.port ∉ s.usedUdpPorts record.family)
      (hnative : s.sockets.size + added.length ≤ s.limits.sockets)
      (hbuffers : s.socketBufferBytes + added.length * udpBufferBytes ≤ maxSocketBufferBytes) :
      Step s .silent
        { s.putUdpRecord changed with
          sockets := sockets
          history := (s.logPort ephemeral
            ⟨.udp, record.identity, endpoint.port, s.usedUdpPorts record.family⟩).history }
  | beginShutdown {s : NativeStack} (reason : AbortReason) :
      Step s .silent
        { s with
          shutdownReason := reason
          lifecycle := .shuttingDown
          readySweep := false
          readySweepCursor := none
          readySweepResweep := false
          readySweepPending := [] }
  | closeNext {s : NativeStack} {identity : SocketIdentity} {entry : SocketEntry}
      (hdown : s.lifecycle ≠ .running) (hin : s.history.inHand = [])
      (h : s.socketTable.lookup identity = some entry) :
      Step s (.closes identity) (s.closeNext identity entry)
  | dropConnection {s : NativeStack} (key : ConnectionKey) (hdown : s.lifecycle ≠ .running) :
      Step s .silent { s with tcpConnections := s.tcpConnections.erase key }
  | dropDeadline {s : NativeStack} (deadline : Instant × Nat) (hdown : s.lifecycle ≠ .running) :
      Step s .silent { s with closingDeadlines := s.closingDeadlines.erase deadline }
  | endShutdown {s : NativeStack} (hdown : s.lifecycle ≠ .running) :
      Step s .silent
        { s with
          lifecycle := .shutdown
          readySweep := false
          readySweepCursor := none
          readySweepResweep := false
          readySweepPending := [] }

end NativeStack

end SmolNet
