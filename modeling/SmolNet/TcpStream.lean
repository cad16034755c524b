import SmolNet.TcpCalls

/-!
# TCP streams

Names and options of TCP sockets, stream input and output, and the ways a socket is closed.
-/

namespace SmolNet.NativeStack

open Std Program

/-! ## Names and options -/

def tcpSockname (identity : SocketIdentity) : Op SocketError Envelope := do
  ensureRunning
  let _ ← validate identity .tcp
  let s ← get
  match s.listener? identity with
  | some listener =>
      finishCall (.endpoint (.ofEndpoint listener.localEndpoint listener.endpoint.scopeId)) {} []
  | none =>
      let record ← tcpRecord identity
      let localEndpoint ← orFail record.localEndpoint .notBound
      finishCall (.endpoint (.ofEndpoint localEndpoint record.localScopeId)) {} []

def tcpPeername (identity : SocketIdentity) : Op SocketError Envelope := do
  ensureRunning
  let _ ← validate identity .tcp
  let s ← get
  require ((s.listener? identity).isNone = true) .notConnected
  let record ← tcpRecord identity
  require (record.phase = .connecting ∨ record.phase = .connected) .notConnected
  let remote ← orFail record.remote .notConnected
  finishCall (.endpoint (.ofEndpoint remote record.remoteScopeId)) {} []

/-- The shape of the two option calls: set it on the listener, or on the native socket, and drive
so that the caller's next poll accounts for it. -/
def tcpSetOption (identity : SocketIdentity) (now : Instant)
    (onListener : ListenerRecord → ListenerRecord) (onSocket : NativeStack → TcpSocket → TcpSocket) :
    Op SocketError Envelope := do
  ensureRunning
  let _ ← validate identity .tcp
  let s ← get
  match s.listener? identity with
  | some listener =>
      set { s with tcpListeners := s.tcpListeners.insert identity.id (onListener listener) }
  | none =>
      let record ← tcpRecord identity
      updateTcp record.handle fun socket => (onSocket s socket, [])
  let effects ← drive now 0
  finishCall .ok effects []

def tcpSetNodelay (identity : SocketIdentity) (nodelay : Bool) (now : Instant) :
    Op SocketError Envelope :=
  tcpSetOption identity now (fun listener => { listener with nodelay := nodelay })
    fun _ socket => { socket with nagle := !nodelay }

def tcpSetKeepalive (identity : SocketIdentity) (keepalive : Bool) (now : Instant) :
    Op SocketError Envelope :=
  tcpSetOption identity now (fun listener => { listener with keepalive := keepalive })
    fun s socket =>
      if socket.keepAlive.isSome = keepalive then socket
      else { socket with keepAlive := s.tcpTimers.keepAlive keepalive }

/-- The shape of the two option queries. -/
def tcpOption (identity : SocketIdentity) (ofListener : ListenerRecord → Bool)
    (ofSocket : TcpSocket → Bool) : Op SocketError Envelope := do
  ensureRunning
  let _ ← validate identity .tcp
  let s ← get
  match s.listener? identity with
  | some listener => finishCall (.flag (ofListener listener)) {} []
  | none =>
      let record ← tcpRecord identity
      let socket ← getTcp record.handle
      finishCall (.flag (ofSocket socket)) {} []

def tcpNodelay (identity : SocketIdentity) : Op SocketError Envelope :=
  tcpOption identity (·.nodelay) fun socket => !socket.nagle

def tcpKeepalive (identity : SocketIdentity) : Op SocketError Envelope :=
  tcpOption identity (·.keepalive) fun socket => socket.keepAlive.isSome

/-! ## Stream input and output -/

def ensureConnected (record : TcpRecord) : Op SocketError Unit := do
  match record.phase with
  | .connected =>
      let socket ← getTcp record.handle
      require (socket.timeoutAbort = false) .connectionTimeout
  | .failed failure => fail failure.socketError
  | .open | .bound | .connecting => fail .notConnected

def tcpSend (identity : SocketIdentity) (data : List UInt8) (pid reference : Nat) (now : Instant) :
    Op SocketError Envelope := do
  ensureRunning
  let entry ← validate identity .tcp
  let record ← tcpRecord identity
  require (entry.waiter .write = none) .busy
  ensureConnected record
  require (record.writeShutdown = false) .closed
  let s ← get
  let copyLimit := min data.length s.limits.bytesCopied
  let socket ← getTcp record.handle
  require (socket.maySend = true) .closed
  if min copyLimit socket.tx.window < data.length then ensureWaiterCapacity
  let (accepted, socket) ← orFail (socket.sendSlice (data.take copyLimit)) .closed
  modify fun s => s.putSocket record.handle (.tcp socket)
  let result ←
    if accepted = data.length then pure .ok
    else do
      armTcpWaiter identity record.handle .write .send pid reference socket.canSend
      pure (.selectSent reference accepted)
  let effects ← drive now accepted
  finishCall result effects []

/-- Whether a receive of `length` bytes, or of any number when it is zero, is complete. -/
def receiveComplete (length copied : Nat) (receiveOpen : Bool) : Bool :=
  if length = 0 then 0 < copied else copied == length || (!receiveOpen && 0 < copied)

def tcpRecv (identity : SocketIdentity) (length pid reference : Nat) (now : Instant) :
    Op SocketError Envelope := do
  ensureRunning
  let entry ← validate identity .tcp
  let record ← tcpRecord identity
  require (entry.waiter .read = none) .busy
  ensureConnected record
  require (record.readShutdown = false) .closed
  let s ← get
  let requested := if length = 0 then s.limits.bytesCopied else min length s.limits.bytesCopied
  let socket ← getTcp record.handle
  let queued := socket.rx.contents.length
  let readLength := min requested queued
  let receiveOpen := socket.state == .established || socket.state == .finWait1 ||
    socket.state == .finWait2 || decide (0 < queued - readLength)
  if receiveComplete length readLength receiveOpen = false ∧ receiveOpen = true then
    ensureWaiterCapacity
  let (data, socket) ←
    if 0 < readLength then orFail (socket.recvSlice readLength) .closed else pure ([], socket)
  modify fun s => s.putSocket record.handle (.tcp socket)
  let result ←
    if receiveComplete length data.length socket.mayRecv then pure (.received data)
    else if socket.mayRecv = false then fail .endOfStream
    else do
      armTcpWaiter identity record.handle .read .recv pid reference socket.canRecv
      pure (if data = [] then .select .recv reference else .selectReceived reference data)
  let effects ← drive now data.length
  finishCall result effects []

/-! ## Shutting down and closing -/

/-- Takes a waiter for the call to abort, and returns its notification. -/
def abortWaiter (identity : SocketIdentity) (direction : Direction) :
    Op SocketError (List PendingNotification) := do
  let s ← get
  let taken ← ofExcept (s.socketTable.takeWaiter identity .tcp direction)
  match taken.1 with
  | none => return []
  | some waiter =>
      let notification : PendingNotification := ⟨identity, direction, waiter⟩
      set ({ s with
        socketTable := taken.2
        history := { s.history with inHand := s.history.inHand ++ [notification] } }.logEvent
          (.aborted notification.key waiter))
      return [notification]

def abortIf (wanted : Bool) (identity : SocketIdentity) (direction : Direction) :
    Op SocketError (List PendingNotification) :=
  if wanted then abortWaiter identity direction else pure []

/-- Sends the FIN of a write half that is still open. -/
def closeWriteHalf (record : TcpRecord) (how : ShutdownHow) : Op SocketError Unit :=
  if how.includes .write && !record.writeShutdown then updateTcp record.handle TcpSocket.close
  else pure ()

def tcpShutdown (identity : SocketIdentity) (how : ShutdownHow) (now : Instant) :
    Op SocketError Envelope := do
  ensureRunning
  let _ ← validate identity .tcp
  let record ← tcpRecord identity
  ensureConnected record
  let readAborts ← abortIf (how.includes .read) identity .read
  let writeAborts ← abortIf (how.includes .write) identity .write
  closeWriteHalf record how
  updateTcpRecord identity fun record =>
    { record with
      readShutdown := record.readShutdown || how.includes .read
      writeShutdown := record.writeShutdown || how.includes .write }
  let effects ← drive now 0
  finishCall .ok effects (readAborts ++ writeAborts)

/-- The notifications of the waiters a closing socket had. -/
def notifications (identity : SocketIdentity) (waiters : List (Direction × Waiter)) :
    List PendingNotification :=
  waiters.map fun (direction, waiter) => ⟨identity, direction, waiter⟩

def logAborts (s : NativeStack) (aborts : List PendingNotification) : NativeStack :=
  { s with
    history := { s.history with
      events := s.history.events ++ aborts.map fun abort => .aborted abort.key abort.waiter } }

/-- Closes a socket's entry, and takes its waiters for the call to abort. -/
def closeEntry (identity : SocketIdentity) : Op SocketError (List PendingNotification) := do
  let s ← get
  let closed ← ofExcept (s.socketTable.close identity)
  let aborts := notifications identity closed.1
  set ({ s with
    socketTable := closed.2
    history := { s.history with inHand := s.history.inHand ++ aborts } }.logAborts aborts)
  return aborts

/-- Frees the record and the native socket of a queued connection. -/
def dropChild {ε : Type} (child : SocketIdentity) : Op ε Unit := do
  let s ← get
  match s.tcpRecord? child with
  | .error _ => pure ()
  | .ok record =>
      removeSocket record.handle
      modify fun s => s.removeTcpRecord record

/-- Closes the connections a closed listener had queued. -/
def closeChildren {ε : Type} : List SocketIdentity → Op ε (List PendingNotification)
  | [] => return []
  | child :: rest => do
      let aborts := match ← attempt (closeEntry child) with
        | .ok aborts => aborts
        | .error _ => []
      dropChild child
      let others ← closeChildren rest
      return aborts ++ others

def tcpListenerClose (identity : SocketIdentity) (now : Instant) : Op SocketError Envelope := do
  let s ← get
  set { s with tcpListeners := s.tcpListeners.erase identity.id }
  let listener ← orFail (s.listener? identity) .invalidSocket
  let aborts ← closeEntry identity
  each removeSocket listener.pool.toList
  let childAborts ← closeChildren listener.accepted
  modify fun s =>
    { s with
      listenerScanCursor := none
      listenerScanPending := !s.tcpListeners.isEmpty
      listenerScanResweep := false }
  let effects ← drive now 0
  finishCall .ok effects (aborts ++ childAborts)

/-- Starts the orderly close of a connection: its record stays until the peer agrees or the
deadline passes. -/
def startGracefulClose (identity : SocketIdentity) (handle : Nat) (now : Instant) :
    Op SocketError Unit := do
  updateTcp handle TcpSocket.close
  let deadline := now + 1000 * closeTimeoutMillis
  updateTcpRecord identity fun record => { record with closeDeadline := some deadline }
  modify fun s =>
    { s with
      closingTcp := s.closingTcp.insert identity.id
      closingDeadlines := s.closingDeadlines.insert (deadline, identity.id)
      closingSweepCursor := none }
  modify requestClosingCleanup
  modify fun s => { s with maintenanceCleanupTurn := false }

def tcpClose (identity : SocketIdentity) (now : Instant) : Op SocketError Envelope := do
  ensureRunning
  let _ ← validate identity .tcp
  let s ← get
  if (s.listener? identity).isSome then tcpListenerClose identity now
  else
    let record ← tcpRecord identity
    let aborts ← closeEntry identity
    if record.phase = .connected then
      startGracefulClose identity record.handle now
      let effects ← drive now 0
      finishCall .ok effects aborts
    else
      updateTcp record.handle TcpSocket.abort
      let effects ← drive now 0
      removeTcpSocket record
      finishCall .ok effects aborts

end SmolNet.NativeStack
