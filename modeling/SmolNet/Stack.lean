import SmolNet.Program
import SmolNet.Records
import SmolNet.ScanReady
import SmolNet.Wire
import SmolNet.World

/-!
# The native stack

The state of one native stack and the helpers its calls share.  A helper that cannot fail is a
function on states; one that can fail or panic is a program.
-/

namespace SmolNet

open Std Program

/-- What happens to a waiter, for the history of a run. -/
inductive WaiterEvent where
  | armed (key : ReadyKey) (waiter : Waiter)
  | fired (key : ReadyKey)
  | selected (key : ReadyKey) (waiter : Waiter)
  | aborted (key : ReadyKey) (waiter : Waiter)
  | cancelled (key : ReadyKey) (waiter : Waiter)
  | notified (key : ReadyKey) (waiter : Waiter) (reason : AbortReason)
deriving DecidableEq, Repr

/-- A socket that got a port from the ephemeral range, and the ports that the sockets of its family
held at that moment. -/
structure Allocation where
  kind : SocketKind
  identity : SocketIdentity
  port : Nat
  held : List Nat
deriving DecidableEq, Repr

/-- History variables, which no function of the stack reads: the events so far, the aborted waiters
that the running call has yet to queue, the connections each listener has promoted and handed out,
the four-tuples that a connection took while the record of another one still had them, and the
ephemeral ports given out. -/
structure StackHistory where
  events : List WaiterEvent := []
  inHand : List PendingNotification := []
  promotions : List (SocketIdentity × SocketIdentity) := []
  accepts : List (SocketIdentity × SocketIdentity) := []
  reused : List ConnectionKey := []
  allocations : List Allocation := []
deriving DecidableEq, Repr

def instantCmp : Instant × Nat → Instant × Nat → Ordering :=
  compareLex (compareOn Prod.fst) (compareOn Prod.snd)

instance : TransCmp instantCmp := by
  unfold instantCmp
  infer_instance

instance : LawfulEqCmp instantCmp where
  eq_of_compare {a b} h := by
    obtain ⟨_, _⟩ := a
    obtain ⟨_, _⟩ := b
    simp only [instantCmp, compareLex_eq_eq, compareOn, Std.compare_eq_iff_eq] at h
    simp [h]

structure NativeStack where
  ipAddrs : List IpCidr
  sockets : SocketSet
  device : BeamDevice
  socketTable : SocketTable
  tcpRecords : ExtTreeMap Nat TcpRecord
  tcpListeners : ExtTreeMap Nat ListenerRecord
  tcpConnections : ExtTreeMap ConnectionKey SocketIdentity ConnectionKey.cmp
  udpRecords : ExtTreeMap Nat UdpRecord
  closingTcp : ExtTreeSet Nat
  closingDeadlines : ExtTreeSet (Instant × Nat) instantCmp
  closingSweepCursor : Option Nat
  closingCleanupPending : Bool
  closingCleanupResweep : Bool
  maintenanceCleanupTurn : Bool
  scheduledPollAt : Option Instant
  nextEphemeralPort : Nat
  nextUdpEphemeralPort : Nat
  listenerScanCursor : Option ListenerMemberKey
  listenerScanPending : Bool
  listenerScanResweep : Bool
  listenerMaintenanceTurn : Bool
  ready : ReadyQueue
  readySweep : Bool
  readySweepCursor : Option ReadyKey
  readySweepResweep : Bool
  readySweepPending : List ReadyKey
  counters : Counters
  lifecycle : Lifecycle
  limits : Limits
  mtu : Nat
  tcpTimers : TcpTimers
  routePrefixes : List IpCidr
  callBudget : CallBudget
  pendingNotifications : List PendingNotification
  shutdownReason : AbortReason
  nextSocketId : Nat
  nextGeneration : Nat
  world : World
  history : StackHistory

abbrev Op (ε α : Type) := Program NativeStack ε α

namespace NativeStack

/-- A stack as `NativeStack::new` makes it; the identity counters are shared by all stacks and may
stand anywhere. -/
def new (limits : Limits) (config : StackConfig) (nextSocketId nextGeneration : Nat) :
    Except StackError NativeStack :=
  if ¬ limits.Valid then .error .invalidLimits
  else if ¬ config.Valid limits then .error .invalidStackConfig
  else .ok {
    ipAddrs := config.addresses.filterMap AddressConfig.toCidr
    sockets := ∅
    device := .new config.mtu limits.inputPackets config.egressCredit
    socketTable := .new limits.sockets (limits.sockets * 2)
    tcpRecords := ∅
    tcpListeners := ∅
    tcpConnections := ∅
    udpRecords := ∅
    closingTcp := ∅
    closingDeadlines := ∅
    closingSweepCursor := none
    closingCleanupPending := false
    closingCleanupResweep := false
    maintenanceCleanupTurn := false
    scheduledPollAt := none
    nextEphemeralPort := ephemeralPortFirst
    nextUdpEphemeralPort := ephemeralPortFirst
    listenerScanCursor := none
    listenerScanPending := false
    listenerScanResweep := false
    listenerMaintenanceTurn := true
    ready := .new (max (limits.readyEvents / 2) 1)
    readySweep := false
    readySweepCursor := none
    readySweepResweep := false
    readySweepPending := []
    counters := {}
    lifecycle := .running
    limits := limits
    mtu := config.mtu
    tcpTimers := config.tcpTimers
    routePrefixes := config.routes.filterMap RouteConfig.toCidr
    callBudget := ⟨[], false⟩
    pendingNotifications := []
    shutdownReason := .closed
    nextSocketId := nextSocketId
    nextGeneration := nextGeneration
    world := {}
    history := {} }

/-- `begin_call`, with the world the call will run in. -/
def beginCall (s : NativeStack) (world : World) : NativeStack :=
  { s with world := world, callBudget := ⟨world.budget, false⟩ }

def observeCall (s : NativeStack) : NativeStack :=
  { s with
    counters := { s.counters with
      nativeCalls := s.counters.nativeCalls + 1
      deadlineYields := s.counters.deadlineYields + if s.callBudget.yielded then 1 else 0 } }

def logEvent (s : NativeStack) (event : WaiterEvent) : NativeStack :=
  { s with history := { s.history with events := s.history.events ++ [event] } }

/-- The log of a connection that takes a four-tuple. -/
def logTuple (s : NativeStack) (identity : SocketIdentity) (key : ConnectionKey) : NativeStack :=
  let taken := s.tcpRecords.toList.any fun (_, record) =>
    record.identity != identity && record.connectionKey == some key
  { s with
    history := { s.history with
      reused := if taken then s.history.reused ++ [key] else s.history.reused } }

/-- The log of a socket that gets a port; only ports from the ephemeral range are of interest. -/
def logPort (s : NativeStack) (ephemeral : Bool) (allocation : Allocation) : NativeStack :=
  { s with
    history := { s.history with
      allocations := if ephemeral then s.history.allocations ++ [allocation] else s.history.allocations } }

def logPromotion (s : NativeStack) (listener child : SocketIdentity) : NativeStack :=
  { s with history := { s.history with promotions := s.history.promotions ++ [(listener, child)] } }

def logAccept (s : NativeStack) (listener child : SocketIdentity) : NativeStack :=
  { s with history := { s.history with accepts := s.history.accepts ++ [(listener, child)] } }

/-! ## Readiness -/

/-- `ReadyWaker::mark_ready`. -/
def wake (s : NativeStack) (key : ReadyKey) : NativeStack :=
  let s := s.logEvent (.fired key)
  if s.socketTable.flag key then { s with ready := s.ready.coalesce }
  else
    { s with
      socketTable := s.socketTable.setFlag key
      ready := s.ready.enqueue key (s.world.locks.headD true)
      world := { s.world with locks := s.world.locks.tail } }

def wakeAll (s : NativeStack) (keys : List ReadyKey) : NativeStack := keys.foldl wake s

@[simp] theorem wakeAll_nil (s : NativeStack) : s.wakeAll [] = s := rfl

/-! ## Requests for maintenance -/

def requestListenerScan (s : NativeStack) : NativeStack :=
  if s.tcpListeners.isEmpty then s
  else if s.listenerScanPending then { s with listenerScanResweep := true }
  else { s with listenerScanPending := true, listenerScanCursor := none }

def requestClosingCleanup (s : NativeStack) : NativeStack :=
  if s.closingTcp.isEmpty then s
  else if s.closingCleanupPending then { s with closingCleanupResweep := true }
  else { s with closingCleanupPending := true, closingSweepCursor := none }

def nextCloseDeadline (s : NativeStack) : Option Instant :=
  s.closingDeadlines.toList.head?.map Prod.fst

/-! ## Addresses and ports -/

def hasIpAddress (s : NativeStack) (address : IpAddress) : Bool :=
  s.ipAddrs.any fun cidr => cidr.address == address

def reachable (s : NativeStack) (address : IpAddress) : Bool :=
  (s.ipAddrs ++ s.routePrefixes).any fun cidr => cidr.containsAddr address

/-- The interface's addresses of a family, without the unspecified one. -/
def familyAddresses (s : NativeStack) (family : AddressFamily) : List IpAddress :=
  (s.ipAddrs.map IpCidr.address).filter fun address =>
    family.includes address && !address.isUnspecified

def concreteListenerEndpoint (s : NativeStack) (endpoint : ValidatedEndpoint) :
    Except SocketError IpListenEndpoint :=
  if endpoint.address.isUnspecified then
    match s.familyAddresses (AddressFamily.of endpoint.address) with
    | address :: _ => .ok ⟨some address, endpoint.port⟩
    | [] => .error .addressNotAvailable
  else .ok endpoint.listenEndpoint

def portInUse (s : NativeStack) (port : Nat) (family : AddressFamily)
    (excluding : Option SocketIdentity) : Bool :=
  (s.tcpRecords.toList.any fun (_, record) =>
    some record.identity != excluding && record.family == family && !record.accepted &&
      record.localEndpoint.any (·.port == port)) ||
  s.tcpListeners.toList.any fun (_, listener) =>
    some listener.identity != excluding && family.includes listener.localEndpoint.addr &&
      listener.localEndpoint.port == port

def usedTcpPorts (s : NativeStack) (family : AddressFamily) : List Nat :=
  (s.tcpRecords.toList.filterMap fun (_, record) =>
    if record.family = family then record.localEndpoint.map IpEndpoint.port else none) ++
  s.tcpListeners.toList.filterMap fun (_, listener) =>
    if family.includes listener.localEndpoint.addr then some listener.localEndpoint.port else none

def udpPortInUse (s : NativeStack) (port : Nat) (family : AddressFamily)
    (excluding : Option SocketIdentity) : Bool :=
  s.udpRecords.toList.any fun (_, record) =>
    some record.identity != excluding && record.family == family &&
      record.localEndpoint.any (·.port == port)

def usedUdpPorts (s : NativeStack) (family : AddressFamily) : List Nat :=
  s.udpRecords.toList.filterMap fun (_, record) =>
    if record.family = family then record.localEndpoint.map ValidatedEndpoint.port else none

/-! ## Capacity -/

def socketBufferBytes (s : NativeStack) : Nat :=
  TreeMap.total (fun record : TcpRecord => record.rcvbuf + record.sndbuf) s.tcpRecords +
    TreeMap.total (fun listener : ListenerRecord =>
      listener.pool.size * (listener.rcvbuf + listener.sndbuf)) s.tcpListeners +
    TreeMap.total (fun record : UdpRecord => record.handles.length * udpBufferBytes) s.udpRecords

end NativeStack

end SmolNet
