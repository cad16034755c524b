import SmolNet.Access

/-!
# Listener and close maintenance

The two resumable sweeps of a drive.  One visits the pool members of the listeners, promotes those
that hold a connection and replaces those that are spent; the other visits the sockets being closed
and frees those that are done or whose deadline has passed.
-/

namespace SmolNet.NativeStack

open Std Program

variable {ε : Type}

/-! ## Listeners -/

/-- `add_listener_member`: a fresh member that listens. -/
def addListenerMember (listener : ListenerRecord) : Op ε ListenerRecord := do
  match tcpSocket listener.rcvbuf listener.sndbuf with
  | .error _ => panics
  | .ok socket =>
      match { socket with timeout := some connectTimeoutMillis }.listen listener.listenEndpoint with
      | .error _ => panics
      | .ok (socket, wakes) => do
          let s ← get
          set ({ s with
            sockets := (s.sockets.add (.tcp socket)).2
            counters := { s.counters with
              listenerRefills := s.counters.listenerRefills + 1 } }.wakeAll wakes)
          return { listener with pool := listener.pool.insert s.sockets.freeHandle }

def recycleListenerMember (listener : ListenerRecord) (handle : Nat) : Op ε ListenerRecord := do
  removeSocket handle
  addListenerMember { listener with pool := listener.pool.erase handle }

def markListenerReady (s : NativeStack) (identity : SocketIdentity) : NativeStack :=
  match s.socketTable.validate identity .tcp with
  | .ok _ => s.wake ⟨identity, .read⟩
  | .error _ => s

/-- The identity of a promoted connection.  The listener is out of the map while it is refreshed,
so its pool is counted here with the member it gains. -/
def childIdentity (listener : ListenerRecord) : Op SocketError SocketIdentity := do
  ensureLogicalSocketCapacity
  ensureNativeSocketCapacity 1
  ensureSocketBufferCapacity ((listener.pool.size + 1) * (listener.rcvbuf + listener.sndbuf))
  insertSocket .tcp

/-- Makes a pool member's connection a socket of its own and refills the pool. -/
def promote (listener : ListenerRecord) (handle : Nat) (child : SocketIdentity)
    (localEndpoint remote : IpEndpoint) : Op ε ListenerRecord := do
  let s ← get
  updateTcp handle fun socket => ({ socket with timeout := some s.tcpTimers.userTimeout }, [])
  modify fun s => (s.logTuple child (.ofEndpoints localEndpoint remote)).logPromotion listener.identity child
  modify fun s =>
    { s with
      tcpConnections := s.tcpConnections.insert (.ofEndpoints localEndpoint remote) child
      tcpRecords := s.tcpRecords.insert child.id
        (.ofAccepted child handle localEndpoint remote listener.endpoint.scopeId listener.rcvbuf
          listener.sndbuf) }
  let listener ← addListenerMember
    { listener with
      accepted := listener.accepted ++ [child]
      pool := listener.pool.erase handle }
  modify fun s =>
    { s with counters := { s.counters with listenerPromotions := s.counters.listenerPromotions + 1 } }
  modify fun s => s.markListenerReady listener.identity
  return listener

def overflowDrop (listener : ListenerRecord) (handle : Nat) : Op ε ListenerRecord := do
  let listener ← recycleListenerMember listener handle
  modify fun s =>
    { s with
      counters := { s.counters with listenerOverflowDrops := s.counters.listenerOverflowDrops + 1 } }
  return listener

/-- What becomes of a listener when one of its pool members is visited. -/
def refreshMember (listener : ListenerRecord) (handle : Nat) : Op ε ListenerRecord := do
  let socket ← getTcp handle
  match socket.state, socket.tuple with
  | .established, some (localEndpoint, remote) | .closeWait, some (localEndpoint, remote) =>
      if listener.accepted.length < listener.backlog then
        match ← attempt (childIdentity listener) with
        | .ok child => promote listener handle child localEndpoint remote
        | .error .systemLimit => overflowDrop listener handle
        | .error _ => panics
      else overflowDrop listener handle
  | .listen, _ | .synReceived, _ => return listener
  | _, _ => recycleListenerMember listener handle

def refreshListenerMember (key : ListenerMemberKey) : Op ε Unit := do
  let s ← get
  match s.tcpListeners[key.listenerId]? with
  | none => pure ()
  | some listener =>
      if listener.pool.contains key.handle then
        set { s with tcpListeners := s.tcpListeners.erase key.listenerId }
        let listener ← refreshMember listener key.handle
        modify fun s => { s with tcpListeners := s.tcpListeners.insert key.listenerId listener }
      else pure ()

/-- The pool members after a cursor, listener by listener. -/
def memberKeys (s : NativeStack) (cursor : Option ListenerMemberKey) : List ListenerMemberKey :=
  (s.tcpListeners.toList.filter fun (id, _) => cursor.all fun key => key.listenerId ≤ id).flatMap
    fun (id, listener) =>
      (listener.pool.toList.filter fun handle =>
        cursor.all fun key => key.listenerId ≠ id || key.handle < handle).map fun handle => ⟨id, handle⟩

/-- Refreshes members until the budget ends: the work done, the last member visited, and whether
the budget cut it short. -/
def refreshLoop : List ListenerMemberKey → Nat → Option ListenerMemberKey →
    Op ε (Nat × Option ListenerMemberKey × Bool)
  | [], work, last => return (work, last, false)
  | key :: rest, work, last => do
      if ← withinBudget then
        refreshListenerMember key
        refreshLoop rest (work + 1) (some key)
      else return (work, last, true)

def refreshListeners (limit : Nat) : Op ε (Nat × Bool) := do
  let s ← get
  if s.tcpListeners.isEmpty then
    set { s with listenerScanCursor := none, listenerScanPending := false, listenerScanResweep := false }
    return (0, false)
  else if limit = 0 ∨ s.listenerScanPending = false then
    return (0, s.listenerScanPending)
  else
    let cursor := s.listenerScanCursor
    let keys := s.memberKeys cursor
    let (work, last, cut) ← refreshLoop (keys.take limit) 0 none
    let s ← get
    if limit < keys.length ∨ cut = true then
      set { s with listenerScanCursor := last.orElse fun _ => cursor }
      return (work, true)
    else if s.listenerScanResweep then
      set { s with listenerScanCursor := none, listenerScanResweep := false }
      return (work, true)
    else
      set { s with listenerScanCursor := none, listenerScanPending := false }
      return (work, false)

/-! ## Sockets being closed -/

/-- One socket of the close sweep. -/
def reapOne (now : Instant) (id : Nat) : Op ε Unit := do
  let s ← get
  match s.tcpRecords[id]? with
  | none => set { s with closingTcp := s.closingTcp.erase id }
  | some record =>
      let socket ← getTcp record.handle
      if socket.state = .closed ∧ socket.localEndpoint = none then removeTcpSocket record
      else
        match record.closeDeadline with
        | none => pure ()
        | some deadline =>
            if deadline ≤ now then
              if socket.state ≠ .closed then updateTcp record.handle TcpSocket.abort
              modify fun s =>
                { s with
                  closingDeadlines := s.closingDeadlines.erase (deadline, id)
                  tcpRecords := s.tcpRecords.insert id { record with closeDeadline := none } }
            else pure ()

def reapLoop (now : Instant) : List Nat → Nat → Option Nat → Op ε (Nat × Option Nat × Bool)
  | [], work, last => return (work, last, false)
  | id :: rest, work, last => do
      if ← withinBudget then
        reapOne now id
        reapLoop now rest (work + 1) (some id)
      else return (work, last, true)

def reapClosingTcp (now : Instant) (limit : Nat) : Op ε (Nat × Bool) := do
  let s ← get
  if s.closingTcp.isEmpty then
    set { s with
      closingSweepCursor := none, closingCleanupPending := false, closingCleanupResweep := false }
    return (0, false)
  else if limit = 0 ∨ s.closingCleanupPending = false then
    return (0, s.closingCleanupPending)
  else
    let ids := s.closingTcp.toList.filter fun id => s.closingSweepCursor.all fun cursor => cursor < id
    let (work, last, cut) ← reapLoop now (ids.take limit) 0 none
    let s ← get
    if s.closingTcp.isEmpty then
      set { s with
        closingSweepCursor := none, closingCleanupPending := false, closingCleanupResweep := false }
      return (work, false)
    else if limit < ids.length ∨ cut = true then
      set { s with closingSweepCursor := last.orElse fun _ => s.closingSweepCursor }
      return (work, true)
    else if s.closingCleanupResweep then
      set { s with closingSweepCursor := none, closingCleanupResweep := false }
      return (work, true)
    else
      set { s with closingSweepCursor := none, closingCleanupPending := false }
      return (work, false)

end SmolNet.NativeStack
