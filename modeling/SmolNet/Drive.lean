import SmolNet.Maintenance

/-!
# Driving the stack

`drive_batch`: one bounded slice of work.  It hands out queued packets, offers smoltcp the packets
held from earlier calls and then the call's own, runs the two sweeps and the egress loop, and says
whether work remains and when to poll next.
-/

namespace SmolNet.NativeStack

open Std Program

variable {ε : Type}

/-- `take_transmit` within the call's budget. -/
def takeOutput (packetLimit byteLimit : Nat) : Op ε (List Packet) := do
  let s ← get
  let taken := s.device.takeTransmit packetLimit byteLimit s.callBudget
  set { s with device := taken.2.1, callBudget := taken.2.2 }
  return taken.1

/-! ## Ingress -/

/-- Points one listening pool member at the endpoint an opening segment asks for. -/
def retargetMember (endpoint : IpListenEndpoint) (handle : Nat) : Op ε Unit := do
  let socket ← getTcp handle
  if socket.state = .listen ∧ socket.listenEndpoint ≠ endpoint then
    updateTcp handle TcpSocket.abort
    let socket ← getTcp handle
    match { socket with timeout := some connectTimeoutMillis }.listen endpoint with
    | .error _ => panics
    | .ok (socket, wakes) => modify fun s => (s.putSocket handle (.tcp socket)).wakeAll wakes
  else pure ()

/-- The pool members of the wildcard listeners on a port. -/
def wildcardMembers (s : NativeStack) (family : AddressFamily) (port : Nat) : List Nat :=
  (s.tcpListeners.toList.filter fun (_, listener) =>
    listener.endpoint.address.isUnspecified && family.includes listener.endpoint.address &&
      listener.localEndpoint.port == port).flatMap fun (_, listener) => listener.pool.toList

def retargetWildcardListener (packet : Packet) : Op ε Unit := do
  match Wire.tcpListenerTarget packet with
  | none => pure ()
  | some (destination, port) =>
      let s ← get
      each (retargetMember ⟨some destination, port⟩)
        (s.wildcardMembers (AddressFamily.of destination) port)

/-- The connection a reset segment is about to end, and how that will be reported. -/
def inboundReset (packet : Packet) : Op ε (Option (SocketIdentity × ConnectFailure)) := do
  let s ← get
  match (Wire.resetKey packet).bind fun key => s.tcpConnections[key]? with
  | none => return none
  | some identity =>
      match s.tcpRecord? identity with
      | .error _ => return none
      | .ok record =>
          let socket ← getTcp record.handle
          match socket.state with
          | .established => return some (identity, .reset)
          | .synSent | .synReceived => return some (identity, .refused)
          | _ => return none

def recordInboundReset (reset : Option (SocketIdentity × ConnectFailure)) : Op ε Unit := do
  match reset with
  | none => pure ()
  | some (identity, failure) =>
      let s ← get
      match s.tcpRecord? identity with
      | .error _ => pure ()
      | .ok record =>
          let socket ← getTcp record.handle
          if socket.state = .closed then
            modify fun s =>
              { s with
                tcpRecords := s.tcpRecords.insert identity.id { record with phase := .failed failure } }
          else pure ()

/-- `poll_ingress_single` on one offered packet: whether smoltcp took it. -/
def offerPacket (packet : Packet) : Op ε Bool := do
  let s ← get
  let outcome := (s.world.ingressPolls.headD .idle).respond packet s.sockets
  let world := { s.world with ingressPolls := s.world.ingressPolls.tail }
  if outcome.asks && s.device.canReceive then
    set ({ s with
      world := world
      sockets := outcome.sockets
      device := (s.device.noteTaken packet).emitAll outcome.reply }.wakeAll outcome.wakes)
    return true
  else
    set { s with world := world }
    return false

def ingestPacket (packet : Packet) : Op ε Bool := do
  retargetWildcardListener packet
  let reset ← inboundReset packet
  if ← offerPacket packet then
    recordInboundReset reset
    modify requestClosingCleanup
    modify requestListenerScan
    return true
  else return false

/-- The ingress loop, for at most the given number of packets: the packets of the batch left
unprocessed, the work done, and whether the budget cut it short. -/
def ingressLoop : Nat → List Packet → Nat → Op ε (List Packet × Nat × Bool)
  | 0, batch, work => return (batch, work, false)
  | n + 1, batch, work => do
      let s ← get
      if (s.device.receive = [] ∧ batch = []) ∨ s.device.canReceive = false then
        return (batch, work, false)
      else if ← withinBudget then
        let s ← get
        match s.device.receive, batch with
        | packet :: rest, batch =>
            -- Packets held from an earlier call go first, and go back if smoltcp does not ask.
            set { s with device := { s.device with receive := rest } }
            if ← ingestPacket packet then ingressLoop n batch (work + 1)
            else
              modify fun s => { s with device := { s.device with receive := packet :: s.device.receive } }
              return (batch, work, false)
        | [], packet :: rest =>
            if ← ingestPacket packet then ingressLoop n rest (work + 1)
            else return (packet :: rest, work, false)
        | [], [] => return ([], work, false)
      else return (batch, work, true)

/-- Keeps the packets of the batch that the call leaves unprocessed. -/
def enqueueUnprocessed (unprocessed : List Packet) : Op StackError Unit := do
  if unprocessed = [] then pure ()
  else
    let s ← get
    let device ← orFail (s.device.enqueueReceiveBatch unprocessed) .ownershipInvariantViolation
    set { s with device := device }

/-! ## Sweeps and egress -/

/-- What the two sweeps of a drive have done so far. -/
structure Sweeps where
  work : Nat
  cleanupMore : Bool
  cleanupRan : Bool
  listenerMore : Bool
  listenerRan : Bool

def cleanupSweep (now : Instant) (limit : Nat) (sweeps : Sweeps) : Op ε Sweeps := do
  let (work, more) ← reapClosingTcp now limit
  return { sweeps with
    work := sweeps.work + work
    cleanupMore := sweeps.cleanupMore || more
    cleanupRan := decide (0 < work) }

def listenerSweep (limit : Nat) (sweeps : Sweeps) : Op ε Sweeps := do
  let (work, more) ← refreshListeners limit
  return { sweeps with
    work := sweeps.work + work
    listenerMore := sweeps.listenerMore || more
    listenerRan := decide (0 < work) }

/-- The sweeps before egress: one socket of the close sweep if it is its turn, then half of what
remains for the listeners. -/
def sweepsBeforeEgress (now : Instant) : Op ε Sweeps := do
  let s ← get
  let sweeps ←
    if s.maintenanceCleanupTurn && s.closingCleanupPending then
      cleanupSweep now (min s.limits.maintenanceWork 1) ⟨0, false, false, false, false⟩
    else pure ⟨0, false, false, false, false⟩
  let s ← get
  let remaining := s.limits.maintenanceWork - sweeps.work
  if s.listenerScanPending = true ∧ 0 < remaining ∧
      (1 < remaining ∨ s.listenerMaintenanceTurn = true) then
    listenerSweep (if remaining = 1 then 1 else max (remaining / 2) 1) sweeps
  else pure sweeps

/-- The sweeps that have not run yet, after egress. -/
def sweepsAfterEgress (now : Instant) (sweeps : Sweeps) : Op ε Sweeps := do
  let s ← get
  let sweeps ←
    if sweeps.cleanupRan = false ∧ s.closingCleanupPending = true then
      cleanupSweep now (s.limits.maintenanceWork - sweeps.work) sweeps
    else pure sweeps
  let s ← get
  if sweeps.listenerRan = false ∧ s.listenerScanPending = true then
    listenerSweep (s.limits.maintenanceWork - sweeps.work) sweeps
  else pure sweeps

/-- `poll_egress`: whether a socket changed state. -/
def pollEgress : Op ε Bool := do
  let s ← get
  let result := (s.world.egressPolls.headD .idle).run s.device s.sockets
  set ({ s with
    world := { s.world with egressPolls := s.world.egressPolls.tail }
    device := result.1
    sockets := result.2.sockets }.wakeAll result.2.wakes)
  return result.2.changed

structure Egress where
  work : Nat
  mayRemain : Bool
  attempted : Bool
  deferred : Bool

/-- The egress loop, for at most the given number of polls. -/
def egressLoop : Nat → Egress → Op ε Egress
  | 0, egress => return egress
  | n + 1, egress => do
      let s ← get
      if s.device.transmit.length < s.limits.outputPackets ∧
          s.device.transmitCreditAvailable = true then
        if ← withinBudget then
          if ← pollEgress then
            modify requestClosingCleanup
            modify requestListenerScan
            egressLoop n { egress with work := egress.work + 1, mayRemain := true, attempted := true }
          else
            return { egress with work := egress.work + 1, mayRemain := false, attempted := true }
        else return { egress with deferred := true }
      else return egress

/-- `interface.poll_at`. -/
def interfacePollAt : Op ε (Option Instant) := do
  let s ← get
  set { s with world := { s.world with pollAts := s.world.pollAts.tail } }
  return s.world.pollAts.headD none

def earliest : Option Instant → Option Instant → Option Instant
  | some a, some b => some (min a b)
  | some a, none => some a
  | none, b => b

/-! ## The drive -/

/-- The end of a drive: whose turn the sweeps are, what remains, and when to poll next. -/
def finishDrive (now : Instant) (output : List Packet) (inputBytes ingressWork : Nat)
    (sweeps : Sweeps) (mayRemain deferred : Bool) : Op ε Effects := do
  modify fun s =>
    { s with
      maintenanceCleanupTurn := !sweeps.cleanupRan && s.closingCleanupPending
      listenerMaintenanceTurn := !sweeps.listenerRan && s.listenerScanPending }
  let s ← get
  -- Egress that waits for credit is not a continuation: the grant drives the stack.
  let egressOpen := s.device.transmitCreditAvailable
  let more := s.device.transmitReady || (s.device.hasReceive && s.device.canReceive) ||
    (mayRemain && egressOpen) || sweeps.cleanupMore || s.closingCleanupPending ||
    sweeps.listenerMore || s.listenerScanPending || deferred
  let pollAt ←
    if more then pure (some (totalMillis now))
    else do
      let next ← interfacePollAt
      pure ((earliest (next.filter fun instant => egressOpen || now < instant)
        s.nextCloseDeadline).map totalMillis)
  modify fun s =>
    { s with
      counters := { s.counters.observe {
          bytesCopied := max inputBytes (byteCount output)
          inputPackets := ingressWork
          outputPackets := output.length
          maintenanceWork := sweeps.work } with
        emittedPackets := s.counters.emittedPackets + output.length } }
  return ⟨output, pollAt, more, sweeps.work⟩

def driveBatch (now : Instant) (batch : List Packet) (copiedBytes : Nat) : Op StackError Effects := do
  modify fun s => { s with device := s.device.beginCall s.limits.outputPackets }
  let s ← get
  let limits := s.limits
  let output ← takeOutput limits.outputPackets limits.bytesCopied
  let (unprocessed, ingressWork, ingressDeferred) ← ingressLoop limits.inputPackets batch 0
  enqueueUnprocessed unprocessed
  -- smoltcp's own maintenance changes nothing the stack sees.
  let maintained ← withinBudget
  modify fun s =>
    if s.nextCloseDeadline.any fun deadline => deadline ≤ now then s.requestClosingCleanup else s
  let s ← get
  let scheduledDeadlineReached := !s.closingTcp.isEmpty &&
    s.scheduledPollAt.any fun deadline => deadline ≤ now
  let sweeps ← sweepsBeforeEgress now
  let egress ← egressLoop (limits.maintenanceWork - sweeps.work) ⟨sweeps.work, false, false, false⟩
  let mayRemain := egress.mayRemain ||
    (!egress.attempted && egress.work == limits.maintenanceWork)
  if scheduledDeadlineReached && egress.attempted then
    modify requestClosingCleanup
    if mayRemain then pure () else modify fun s => { s with scheduledPollAt := none }
  let additional ← takeOutput (limits.outputPackets - output.length)
    (limits.bytesCopied - byteCount output)
  let sweeps ← sweepsAfterEgress now { sweeps with work := egress.work }
  finishDrive now (output ++ additional) copiedBytes ingressWork sweeps mayRemain
    (ingressDeferred || !maintained || egress.deferred)

/-- A drive without ingress, which callers expect not to fail. -/
def drive (now : Instant) (copiedBytes : Nat) : Op ε Effects := expect (driveBatch now [] copiedBytes)

/-- `current_effects`: the next poll as the interface reports it, and no continuation. -/
def currentEffects : Op ε Effects := do
  let next ← interfacePollAt
  return { pollAt := next.map totalMillis }

end SmolNet.NativeStack
