import SmolNet.TcpStream

/-!
# UDP calls

The operations on UDP sockets.  A socket bound to the wildcard address has one native socket for
each address of its family.
-/

namespace SmolNet.NativeStack

open Std Program

def udpOpen (family : AddressFamily) : Op SocketError Envelope := do
  ensureRunning
  ensureLogicalSocketCapacity
  ensureNativeSocketCapacity 1
  ensureSocketBufferCapacity udpBufferBytes
  let s ← get
  let handle := s.sockets.freeHandle
  set { s with sockets := (s.sockets.add (.udp .new)).2 }
  match ← attempt (insertSocket .udp) with
  | .error e =>
      removeSocket handle
      fail e
  | .ok identity =>
      modify fun s =>
        { s with udpRecords := s.udpRecords.insert identity.id (.new identity handle family) }
      finishCall (.opened identity) {} []

/-- `socket.bind`, with the caller's errors. -/
def bindUdp (socket : UdpSocket) (endpoint : IpListenEndpoint) :
    Except SocketError (UdpSocket × List ReadyKey) :=
  match socket.bind endpoint with
  | .ok bound => .ok bound
  | .error .invalidState => .error .invalidState
  | .error .unaddressable => .error .invalidAddress

/-- The bound sockets for the addresses after the first. -/
def bindAdditional (port : Nat) : List IpAddress → Except SocketError (List UdpSocket)
  | [] => .ok []
  | address :: rest =>
      match bindUdp .new ⟨some address, port⟩ with
      | .error e => .error e
      | .ok (socket, _) =>
          match bindAdditional port rest with
          | .error e => .error e
          | .ok sockets => .ok (socket :: sockets)

def addUdpSockets {ε : Type} : List UdpSocket → Op ε (List Nat)
  | [] => return []
  | socket :: rest => do
      let s ← get
      set { s with sockets := (s.sockets.add (.udp socket)).2 }
      let handles ← addUdpSockets rest
      return s.sockets.freeHandle :: handles

def udpBind (identity : SocketIdentity) (endpoint : TcpEndpoint) : Op SocketError Envelope := do
  ensureRunning
  let _ ← validate identity .udp
  let endpoint ← ofExcept endpoint.bindEndpoint
  let record ← udpRecord identity
  require (record.localEndpoint = none) .invalidState
  require (record.family.includes endpoint.address = true) .invalidAddress
  let s ← get
  require (endpoint.address.isUnspecified = true ∨ s.hasIpAddress endpoint.address = true)
    .addressNotAvailable
  let port ←
    if endpoint.port = 0 then allocateUdpEphemeralPort record.family
    else do
      require (s.udpPortInUse endpoint.port record.family (some identity) = false) .addressInUse
      pure endpoint.port
  let addresses :=
    if endpoint.address.isUnspecified then s.familyAddresses record.family else [endpoint.address]
  match addresses with
  | [] => fail .addressNotAvailable
  | primaryAddress :: additionalAddresses =>
      let primaryHandle ← orPanic record.handles.head?
      ensureNativeSocketCapacity additionalAddresses.length
      ensureSocketBufferCapacity (additionalAddresses.length * udpBufferBytes)
      let additional ← ofExcept (bindAdditional port additionalAddresses)
      let primary ← getUdp primaryHandle
      let (primary, wakes) ← ofExcept (bindUdp primary ⟨some primaryAddress, port⟩)
      modify fun s => (s.putSocket primaryHandle (.udp primary)).wakeAll wakes
      let handles ← addUdpSockets additional
      modify fun s =>
        s.logPort (endpoint.port == 0) ⟨.udp, identity, port, s.usedUdpPorts record.family⟩
      updateUdpRecord identity fun record =>
        { record with
          handles := primaryHandle :: handles
          localEndpoint := some { endpoint with port := port }
          receiveCursor := 0 }
      finishCall .ok {} []

def udpConnect (identity : SocketIdentity) (endpoint : TcpEndpoint) : Op SocketError Envelope := do
  ensureRunning
  let _ ← validate identity .udp
  let remote ← ofExcept endpoint.remoteEndpoint
  let record ← udpRecord identity
  require (record.localEndpoint.isSome = true) .notBound
  require (record.family.includes remote.address = true) .invalidAddress
  let s ← get
  require (s.reachable remote.address = true) .networkUnreachable
  updateUdpRecord identity fun record => { record with peer := some remote }
  finishCall .ok {} []

/-- The source address a datagram leaves with. -/
def udpSource (s : NativeStack) (record : UdpRecord) (localEndpoint remote : ValidatedEndpoint) :
    Option IpAddress :=
  if localEndpoint.address.isUnspecified then
    (s.world.sourceAddress remote.address).filter record.family.includes
  else some localEndpoint.address

def udpSendto (identity : SocketIdentity) (endpoint : TcpEndpoint) (data : List UInt8)
    (pid reference : Nat) (now : Instant) : Op SocketError Envelope := do
  ensureRunning
  let entry ← validate identity .udp
  require (entry.waiter .write = none) .busy
  let remote ← ofExcept endpoint.remoteEndpoint
  let record ← udpRecord identity
  let localEndpoint ← orFail record.localEndpoint .notBound
  require (record.family.includes remote.address = true) .invalidAddress
  require (record.peer.all fun peer => peer == remote) .invalidState
  let s ← get
  require (s.reachable remote.address = true) .networkUnreachable
  require (data.length ≤ maxDatagramBytes s.mtu record.family) .messageTooLarge
  let source ← orFail (s.udpSource record localEndpoint remote) .networkUnreachable
  let handle ← orPanic record.handles.head?
  let socket ← getUdp handle
  let sent := socket.sendSlice ⟨data, remote.ipEndpoint, some source⟩
  putUdp handle sent.2
  match sent.1 with
  | .ok () =>
      let effects ← drive now data.length
      finishCall .ok effects []
  | .error .bufferFull =>
      armUdpWaiter identity [handle] .write .sendto pid reference false
      let effects ← drive now 0
      finishCall (.select .sendto reference) effects []
  | .error .unaddressable => fail .invalidAddress

/-- Whether a received datagram is for this socket. -/
def acceptsDatagram (record : UdpRecord) (localEndpoint : ValidatedEndpoint) (datagram : Datagram) :
    Bool :=
  record.family.includes datagram.endpoint.addr &&
    record.family.includes (datagram.localAddress.getD localEndpoint.address) &&
    record.peer.all fun peer => peer.ipEndpoint == datagram.endpoint

/-- Takes datagrams from one native socket until one is for this socket, within a quota; also
returns what is left of the quota. -/
def recvMatching {ε : Type} (accepts : Datagram → Bool) (handle : Nat) :
    Nat → Op ε (Option Datagram × Nat)
  | 0 => return (none, 0)
  | quota + 1 => do
      let socket ← getUdp handle
      putUdp handle socket.recv.2
      match socket.recv.1 with
      | none => return (none, quota + 1)
      | some datagram =>
          if accepts datagram then return (some datagram, quota)
          else recvMatching accepts handle quota

/-- Visits the native sockets in turn; also returns where the next receive starts. -/
def recvRotation {ε : Type} (accepts : Datagram → Bool) (count start : Nat) :
    List (Nat × Nat) → Nat → Op ε (Option Datagram × Nat)
  | [], _ => return (none, start)
  | (index, handle) :: rest, quota => do
      let (found, left) ← recvMatching accepts handle quota
      if found.isSome ∨ left = 0 then return (found, (index + 1) % count)
      else recvRotation accepts count start rest left

def udpRecvfrom (identity : SocketIdentity) (length pid reference : Nat) (now : Instant) :
    Op SocketError Envelope := do
  ensureRunning
  let entry ← validate identity .udp
  require (entry.waiter .read = none) .busy
  let record ← udpRecord identity
  let localEndpoint ← orFail record.localEndpoint .notBound
  let count := record.handles.length
  if count = 0 then panics
  else
    let start := record.receiveCursor % count
    let indexed := (List.range count).zip record.handles
    let rotation := indexed.drop start ++ indexed.take start
    let (received, cursor) ← recvRotation (acceptsDatagram record localEndpoint) count start rotation
      udpPacketCapacity
    updateUdpRecord identity fun record => { record with receiveCursor := cursor }
    match received with
    | some datagram =>
        let copied := if length = 0 then datagram.payload.length else min length datagram.payload.length
        let destination : IpEndpoint :=
          ⟨datagram.localAddress.getD localEndpoint.address, localEndpoint.port⟩
        let effects ← drive now copied
        finishCall
          (.datagram (.ofEndpoint datagram.endpoint localEndpoint.scopeId)
            (.ofEndpoint destination localEndpoint.scopeId) (datagram.payload.take copied)
            (decide (copied < datagram.payload.length))) effects []
    | none =>
        let s ← get
        let immediatelyReady := record.handles.any fun handle =>
          (s.sockets.udp? handle).any UdpSocket.canRecv
        armUdpWaiter identity record.handles .read .recvfrom pid reference immediatelyReady
        let effects ← drive now 0
        finishCall (.select .recvfrom reference) effects []

/-- The shape of the two name queries. -/
def udpName (identity : SocketIdentity) (name : UdpRecord → Option ValidatedEndpoint)
    (missing : SocketError) : Op SocketError Envelope := do
  ensureRunning
  let _ ← validate identity .udp
  let record ← udpRecord identity
  let endpoint ← orFail (name record) missing
  finishCall (.endpoint (.ofEndpoint endpoint.ipEndpoint endpoint.scopeId)) {} []

def udpSockname (identity : SocketIdentity) : Op SocketError Envelope :=
  udpName identity (·.localEndpoint) .notBound

def udpPeername (identity : SocketIdentity) : Op SocketError Envelope :=
  udpName identity (·.peer) .notConnected

def udpClose (identity : SocketIdentity) (now : Instant) : Op SocketError Envelope := do
  ensureRunning
  let _ ← validate identity .udp
  let record ← udpRecord identity
  let aborts ← closeEntry identity
  each removeSocket record.handles
  modify fun s => { s with udpRecords := s.udpRecords.erase identity.id }
  let effects ← drive now 0
  finishCall .ok effects aborts

end SmolNet.NativeStack
