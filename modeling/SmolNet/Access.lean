import SmolNet.Stack

/-!
# Programs the calls share

Budget checkpoints, access to native sockets and records, new identities and ports, and the arming
of waiters.
-/

namespace SmolNet.NativeStack

open Std Program

variable {ε : Type}

def withinBudget : Op ε Bool := do
  let s ← get
  set { s with callBudget := s.callBudget.checkpoint.2 }
  return s.callBudget.checkpoint.1

/-- Runs a program and keeps its error as a value. -/
def attempt {α : Type} (m : Op SocketError α) : Op ε (Except SocketError α) := fun s =>
  match m s with
  | .ok a s' => .ok (.ok a) s'
  | .error (.error e) s' => .ok (.error e) s'
  | .error .panic s' => .error .panic s'

@[simp] theorem wp_attempt {α : Type} {m : Op SocketError α} {Q : Except SocketError α → NativeStack → Prop}
    {E : ε → NativeStack → Prop} {s : NativeStack} :
    wp (attempt m : Op ε (Except SocketError α)) Q E s ↔
      wp m (fun a s' => Q (.ok a) s') (fun e s' => Q (.error e) s') s := by
  unfold wp attempt
  cases m s with
  | ok a s' => rfl
  | error e s' => cases e <;> rfl

/-! ## Native sockets -/

def getTcp (handle : Nat) : Op ε TcpSocket := do
  let s ← get
  orPanic (s.sockets.tcp? handle)

def getUdp (handle : Nat) : Op ε UdpSocket := do
  let s ← get
  orPanic (s.sockets.udp? handle)

def putSocket (s : NativeStack) (handle : Nat) (socket : NativeSocket) : NativeStack :=
  { s with sockets := s.sockets.insert handle socket }

/-- Changes a TCP socket in place and fires the wakers the change returns. -/
def updateTcp (handle : Nat) (change : TcpSocket → TcpSocket × List ReadyKey) : Op ε Unit := do
  let socket ← getTcp handle
  modify fun s => (s.putSocket handle (.tcp (change socket).1)).wakeAll (change socket).2

def putUdp (handle : Nat) (socket : UdpSocket) : Op ε Unit :=
  modify fun s => s.putSocket handle (.udp socket)

def removeSocket (handle : Nat) : Op ε Unit := do
  let s ← get
  match s.sockets[handle]? with
  | some _ => set { s with sockets := s.sockets.erase handle }
  | none => panics

/-- `tcp_support::socket`. -/
def tcpSocket (rcvbuf sndbuf : Nat) : Except SocketError TcpSocket :=
  if validBufferBytes rcvbuf && validBufferBytes sndbuf then .ok (.new rcvbuf sndbuf)
  else .error .invalidOptions

/-! ## Checks -/

def ensureRunning : Op SocketError Unit := do
  let s ← get
  require (s.lifecycle = .running) .closed

def validate (identity : SocketIdentity) (kind : SocketKind) : Op SocketError SocketEntry := do
  let s ← get
  ofExcept (s.socketTable.validate identity kind)

def ensureLogicalSocketCapacity : Op SocketError Unit := do
  let s ← get
  require (s.socketTable.len + s.closingTcp.size < s.limits.sockets) .systemLimit

def ensureNativeSocketCapacity (added : Nat) : Op SocketError Unit := do
  let s ← get
  require (s.sockets.size + added ≤ s.limits.sockets) .systemLimit

def ensureSocketBufferCapacity (added : Nat) : Op SocketError Unit := do
  let s ← get
  require (s.socketBufferBytes + added ≤ maxSocketBufferBytes) .systemLimit

def ensureWaiterCapacity : Op SocketError Unit := do
  let s ← get
  require (s.socketTable.waiterCount < s.socketTable.maxWaiters) .systemLimit

/-! ## Identities and ports -/

/-- `next_identity` on the id counter, after what the other stacks have drawn from it. -/
def drawId : Op SocketError Nat := do
  let s ← get
  let current := s.nextSocketId + s.world.skippedIds.headD 0
  set { s with nextSocketId := current, world := { s.world with skippedIds := s.world.skippedIds.tail } }
  require (current ≤ maxSocketId) .systemLimit
  modify fun s => { s with nextSocketId := current + 1 }
  return current

def drawGeneration : Op SocketError Nat := do
  let s ← get
  let current := s.nextGeneration + s.world.skippedIds.headD 0
  set { s with nextGeneration := current, world := { s.world with skippedIds := s.world.skippedIds.tail } }
  require (current ≤ maxSocketId) .systemLimit
  modify fun s => { s with nextGeneration := current + 1 }
  return current

/-- `SocketTable::insert`. -/
def insertSocket (kind : SocketKind) : Op SocketError SocketIdentity := do
  let s ← get
  require (s.socketTable.len < s.socketTable.maxEntries) .systemLimit
  let id ← drawId
  let generation ← drawGeneration
  modify fun s => { s with socketTable := s.socketTable.insertEntry ⟨id, generation⟩ kind }
  return ⟨id, generation⟩

def allocateEphemeralPort (family : AddressFamily) : Op SocketError Nat := do
  let s ← get
  let port ← orFail
    (allocateEphemeral (s.usedTcpPorts family) s.nextEphemeralPort ephemeralPortFirst ephemeralPortLast)
    .ephemeralPortsExhausted
  set { s with nextEphemeralPort := nextEphemeral port }
  return port

def allocateUdpEphemeralPort (family : AddressFamily) : Op SocketError Nat := do
  let s ← get
  let port ← orFail
    (allocateEphemeral (s.usedUdpPorts family) s.nextUdpEphemeralPort ephemeralPortFirst
      ephemeralPortLast) .ephemeralPortsExhausted
  set { s with nextUdpEphemeralPort := nextEphemeral port }
  return port

/-! ## Records -/

/-- The listener of an identity. -/
def listener? (s : NativeStack) (identity : SocketIdentity) : Option ListenerRecord :=
  s.tcpListeners[identity.id]?.filter fun listener => listener.identity = identity

def tcpRecord? (s : NativeStack) (identity : SocketIdentity) : Except SocketError TcpRecord :=
  if (s.listener? identity).isSome then .error .invalidState
  else
    match s.tcpRecords[identity.id]? with
    | some record => if record.identity = identity then .ok record else .error .invalidSocket
    | none => .error .invalidSocket

def tcpRecord (identity : SocketIdentity) : Op SocketError TcpRecord := do
  let s ← get
  ofExcept (s.tcpRecord? identity)

def putTcpRecord (s : NativeStack) (record : TcpRecord) : NativeStack :=
  { s with tcpRecords := s.tcpRecords.insert record.identity.id record }

/-- A change through `tcp_record_mut`. -/
def updateTcpRecord (identity : SocketIdentity) (change : TcpRecord → TcpRecord) :
    Op SocketError Unit := do
  let record ← tcpRecord identity
  modify fun s => { s with tcpRecords := s.tcpRecords.insert identity.id (change record) }

def udpRecord? (s : NativeStack) (identity : SocketIdentity) : Except SocketError UdpRecord :=
  match s.udpRecords[identity.id]? with
  | some record => if record.identity = identity then .ok record else .error .invalidSocket
  | none => .error .invalidSocket

def udpRecord (identity : SocketIdentity) : Op SocketError UdpRecord := do
  let s ← get
  ofExcept (s.udpRecord? identity)

def updateUdpRecord (identity : SocketIdentity) (change : UdpRecord → UdpRecord) :
    Op SocketError Unit := do
  let record ← udpRecord identity
  modify fun s => { s with udpRecords := s.udpRecords.insert identity.id (change record) }

def removeTcpRecord (s : NativeStack) (record : TcpRecord) : NativeStack :=
  { s with
    tcpConnections := record.connectionKey.elim s.tcpConnections s.tcpConnections.erase
    tcpRecords := s.tcpRecords.erase record.identity.id }

def removeTcpSocket (record : TcpRecord) : Op ε Unit := do
  removeSocket record.handle
  modify fun s =>
    { s with
      closingTcp := s.closingTcp.erase record.identity.id
      closingDeadlines := record.closeDeadline.elim s.closingDeadlines fun deadline =>
        s.closingDeadlines.erase (deadline, record.identity.id) }
  modify fun s => (s.removeTcpRecord record).requestListenerScan

/-! ## Arming waiters -/

def installWaiter (registration : WaiterRegistration) : Op SocketError Unit := do
  let s ← get
  let installed ← ofExcept (s.socketTable.installWaiter registration)
  let s' := { s with socketTable := installed.2 }
  set (if installed.1 = .armed then s'.logEvent (.armed registration.key registration.waiter) else s')

def armTcpWaiter (identity : SocketIdentity) (handle : Nat) (direction : Direction)
    (operation : Operation) (pid reference : Nat) (immediatelyReady : Bool) :
    Op SocketError Unit := do
  let key : ReadyKey := ⟨identity, direction⟩
  installWaiter ⟨identity, .tcp, direction, pid, operation, reference⟩
  updateTcp handle fun socket => (socket.registerWaker direction key, [])
  if immediatelyReady then modify fun s => s.wake key

def armConnect (identity : SocketIdentity) (handle pid reference : Nat) : Op SocketError Unit :=
  armTcpWaiter identity handle .write .connect pid reference false

def armUdpWaiter (identity : SocketIdentity) (handles : List Nat) (direction : Direction)
    (operation : Operation) (pid reference : Nat) (immediatelyReady : Bool) :
    Op SocketError Unit := do
  let key : ReadyKey := ⟨identity, direction⟩
  installWaiter ⟨identity, .udp, direction, pid, operation, reference⟩
  each (fun handle => do
    let socket ← getUdp handle
    putUdp handle (socket.registerWaker direction key)) handles
  if immediatelyReady then modify fun s => s.wake key

/-- Whether a pool member holds a connection to promote. -/
def anyPromotable (s : NativeStack) (handles : List Nat) : Bool :=
  handles.any fun handle =>
    (s.sockets.tcp? handle).any fun socket =>
      socket.state == .established || socket.state == .closeWait

def armListenerWaiter (identity : SocketIdentity) (pid reference : Nat) : Op SocketError Unit := do
  let s ← get
  let listener ← orFail (s.listener? identity) .invalidSocket
  let handles := listener.pool.toList
  let key : ReadyKey := ⟨identity, .read⟩
  let immediatelyReady := !listener.accepted.isEmpty || s.anyPromotable handles
  installWaiter ⟨identity, .tcp, .read, pid, .accept, reference⟩
  each (fun handle => updateTcp handle fun socket => (socket.registerWaker .read key, [])) handles
  if immediatelyReady then modify fun s => s.wake key

end SmolNet.NativeStack
