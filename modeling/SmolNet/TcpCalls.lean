import SmolNet.Drive
import SmolNet.FinishCall

/-!
# TCP calls

The operations on TCP sockets and listeners.
-/

namespace SmolNet.NativeStack

open Std Program

/-! ## Opening, binding and listening -/

def tcpOpen (family : AddressFamily) (rcvbuf sndbuf : Nat) : Op SocketError Envelope := do
  ensureRunning
  ensureLogicalSocketCapacity
  ensureNativeSocketCapacity 1
  require (validBufferBytes rcvbuf = true ∧ validBufferBytes sndbuf = true) .invalidOptions
  ensureSocketBufferCapacity (rcvbuf + sndbuf)
  let socket ← ofExcept (tcpSocket rcvbuf sndbuf)
  let s ← get
  let handle := s.sockets.freeHandle
  set { s with sockets := (s.sockets.add (.tcp socket)).2 }
  match ← attempt (insertSocket .tcp) with
  | .error e =>
      removeSocket handle
      fail e
  | .ok identity =>
      modify fun s => s.putTcpRecord (.new identity handle family rcvbuf sndbuf)
      finishCall (.opened identity) {} []

def socketValidate (identity : SocketIdentity) : Op SocketError Envelope := do
  ensureRunning
  let s ← get
  let entry ← ofExcept (s.socketTable.validateAny identity)
  finishCall (.kind entry.kind) {} []

def tcpBind (identity : SocketIdentity) (endpoint : TcpEndpoint) : Op SocketError Envelope := do
  ensureRunning
  let _ ← validate identity .tcp
  let endpoint ← ofExcept endpoint.bindEndpoint
  let record ← tcpRecord identity
  require (record.phase = .open) .invalidState
  require (record.family.includes endpoint.address = true) .invalidAddress
  let s ← get
  require (endpoint.address.isUnspecified = true ∨ s.hasIpAddress endpoint.address = true)
    .addressNotAvailable
  let port ←
    if endpoint.port = 0 then allocateEphemeralPort record.family
    else do
      require (s.portInUse endpoint.port record.family (some identity) = false) .addressInUse
      pure endpoint.port
  modify fun s =>
    s.logPort (endpoint.port == 0) ⟨.tcp, identity, port, s.usedTcpPorts record.family⟩
  updateTcpRecord identity fun record =>
    { record with
      phase := .bound
      localEndpoint := some ⟨endpoint.address, port⟩
      localScopeId := endpoint.scopeId }
  finishCall .ok {} []

/-- Adds `count` fresh sockets to the set. -/
def addSockets (rcvbuf sndbuf : Nat) : Nat → Op SocketError (List Nat)
  | 0 => return []
  | count + 1 => do
      let socket ← ofExcept (tcpSocket rcvbuf sndbuf)
      let s ← get
      set { s with sockets := (s.sockets.add (.tcp socket)).2 }
      let handles ← addSockets rcvbuf sndbuf count
      return s.sockets.freeHandle :: handles

/-- Makes one socket of a new listener's pool listen. -/
def listenMember (endpoint : IpListenEndpoint) (handle : Nat) : Op SocketError Unit := do
  updateTcp handle fun socket => ({ socket with timeout := some connectTimeoutMillis }, [])
  let socket ← getTcp handle
  match socket.listen endpoint with
  | .error .invalidState => fail .invalidState
  | .error .unaddressable => fail .invalidAddress
  | .ok (socket, wakes) => modify fun s => (s.putSocket handle (.tcp socket)).wakeAll wakes

def tcpListen (identity : SocketIdentity) (backlog : Nat) (now : Instant) :
    Op SocketError Envelope := do
  ensureRunning
  let _ ← validate identity .tcp
  require (1 ≤ backlog ∧ backlog ≤ listenerBacklogMax) .invalidBacklog
  let s ← get
  require (s.tcpListeners[identity.id]? = none) .invalidState
  let record ← tcpRecord identity
  require (record.phase = .bound) .notBound
  let localEndpoint ← orFail record.localEndpoint .notBound
  let endpoint : ValidatedEndpoint := ⟨localEndpoint.addr, localEndpoint.port, record.localScopeId⟩
  let listenEndpoint ← ofExcept (s.concreteListenerEndpoint endpoint)
  let poolTarget := min backlog listenerPoolMax
  ensureNativeSocketCapacity (poolTarget - 1)
  ensureSocketBufferCapacity ((poolTarget - 1) * (record.rcvbuf + record.sndbuf))
  let added ← addSockets record.rcvbuf record.sndbuf (poolTarget - 1)
  each (listenMember listenEndpoint) (record.handle :: added)
  let first ← getTcp record.handle
  let listener : ListenerRecord :=
    { identity := identity
      endpoint := endpoint
      listenEndpoint := listenEndpoint
      localEndpoint := localEndpoint
      backlog := backlog
      poolTarget := poolTarget
      pool := ExtTreeSet.ofList (record.handle :: added)
      accepted := []
      rcvbuf := record.rcvbuf
      sndbuf := record.sndbuf
      nodelay := !first.nagle
      keepalive := first.keepAlive.isSome }
  modify fun s => s.removeTcpRecord record
  modify fun s => { s with tcpListeners := s.tcpListeners.insert identity.id listener }
  modify requestListenerScan
  let effects ← drive now 0
  finishCall .ok effects []

/-! ## Accepting and connecting -/

/-- Takes the first connection off a listener's queue. -/
def popAccepted {ε : Type} (identity : SocketIdentity) : Op ε (Option SocketIdentity) := do
  let s ← get
  match s.tcpListeners[identity.id]? with
  | none => return none
  | some listener =>
      match listener.accepted with
      | [] => return none
      | child :: rest =>
          set ({ s with
            tcpListeners := s.tcpListeners.insert identity.id { listener with accepted := rest } }.logAccept
              listener.identity child)
          return some child

def tcpAccept (identity : SocketIdentity) (pid reference : Nat) : Op SocketError Envelope := do
  ensureRunning
  let entry ← validate identity .tcp
  let s ← get
  if (s.listener? identity).isNone then
    if s.tcpRecords.contains identity.id then fail .invalidState else fail .invalidSocket
  else
    require (entry.waiter .read = none) .busy
    modify requestListenerScan
    let (scanWork, scanMore) ← refreshListeners s.limits.maintenanceWork
    let result ← do
      match ← popAccepted identity with
      | some child =>
          let record ← tcpRecord child
          let s ← get
          let options := (s.tcpListeners[identity.id]?).elim (false, false) fun listener =>
            (listener.nodelay, listener.keepalive)
          updateTcp record.handle fun socket =>
            ({ socket with nagle := !options.1, keepAlive := s.tcpTimers.keepAlive options.2 }, [])
          pure (.accepted child record.family)
      | none =>
          armListenerWaiter identity pid reference
          pure (.select .accept reference)
    let effects ← currentEffects
    finishCall result { effects with more := effects.more || scanMore, maintenanceWork := scanWork } []

def finalizeOrArmConnect (identity : SocketIdentity) (pid reference : Nat) (now : Instant) :
    Op SocketError Envelope := do
  let record ← tcpRecord identity
  let socket ← getTcp record.handle
  match socket.state with
  | .established =>
      let s ← get
      updateTcp record.handle fun socket => ({ socket with timeout := some s.tcpTimers.userTimeout }, [])
      updateTcpRecord identity fun record => { record with phase := .connected }
      let effects ← currentEffects
      finishCall .ok effects []
  | .synSent | .synReceived =>
      armConnect identity record.handle pid reference
      let effects ← drive now 0
      finishCall (.select .connect reference) effects []
  | .closed =>
      let failure := match record.phase with
        | .failed failure => failure
        | _ => .timedOut
      updateTcpRecord identity fun record => { record with phase := .failed failure }
      fail failure.socketError
  | _ => fail .invalidState

/-- The native side of a connect: the local endpoint smoltcp selects. -/
def connectSocket (handle : Nat) (remote : IpEndpoint) (localListen : IpListenEndpoint) :
    Op SocketError IpEndpoint := do
  updateTcp handle fun socket => ({ socket with timeout := some connectTimeoutMillis }, [])
  let socket ← getTcp handle
  let s ← get
  match socket.connect s.world.sourceAddress remote localListen with
  | .error .invalidState => fail .invalidState
  | .error .unaddressable => fail .networkUnreachable
  | .ok (socket, wakes) =>
      modify fun s => (s.putSocket handle (.tcp socket)).wakeAll wakes
      orPanic socket.localEndpoint

/-- Starts the connection of a socket that has none. -/
def startConnect (identity : SocketIdentity) (record : TcpRecord) (remote : ValidatedEndpoint)
    (pid reference : Nat) (now : Instant) : Op SocketError Envelope := do
  let s ← get
  require (s.reachable remote.address = true) .networkUnreachable
  let localEndpoint ←
    match record.localEndpoint with
    | some localEndpoint => pure localEndpoint
    | none => do
        let port ← allocateEphemeralPort record.family
        pure ⟨record.family.unspecified, port⟩
  require (s.portInUse localEndpoint.port record.family (some identity) = false) .addressInUse
  let validated : ValidatedEndpoint := ⟨localEndpoint.addr, localEndpoint.port, record.localScopeId⟩
  let selected ← connectSocket record.handle remote.ipEndpoint validated.listenEndpoint
  modify fun s =>
    (s.logTuple identity (.ofEndpoints selected remote.ipEndpoint)).logPort record.localEndpoint.isNone
      ⟨.tcp, identity, selected.port, s.usedTcpPorts record.family⟩
  updateTcpRecord identity fun record =>
    { record with
      phase := .connecting
      localEndpoint := some selected
      remote := some remote.ipEndpoint
      remoteScopeId := remote.scopeId }
  modify fun s =>
    { s with
      tcpConnections := s.tcpConnections.insert (.ofEndpoints selected remote.ipEndpoint) identity }
  armConnect identity record.handle pid reference
  let effects ← drive now 0
  finishCall (.select .connect reference) effects []

def tcpConnect (identity : SocketIdentity) (endpoint : TcpEndpoint) (pid reference : Nat)
    (now : Instant) : Op SocketError Envelope := do
  ensureRunning
  let _ ← validate identity .tcp
  let remote ← ofExcept endpoint.remoteEndpoint
  let record ← tcpRecord identity
  require (record.family.includes remote.address = true) .invalidAddress
  match record.phase with
  | .connected => fail .alreadyConnected
  | .failed failure => fail failure.socketError
  | .connecting =>
      require (record.remote = some remote.ipEndpoint ∧ record.remoteScopeId = remote.scopeId)
        .invalidState
      finalizeOrArmConnect identity pid reference now
  | .open | .bound => startConnect identity record remote pid reference now

end SmolNet.NativeStack
