import SmolNet.Endpoint
import SmolNet.Device

/-!
# Socket records and stack configuration

What the stack keeps about each TCP socket, listener and UDP socket beside its native handles, and
the configuration a stack is created with.
-/

namespace SmolNet

open Std

def minBufferBytes : Nat := 1024

def maxBufferBytes : Nat := 1024 * 1024

def maxSocketBufferBytes : Nat := 64 * 2 * maxBufferBytes

def connectTimeoutMillis : Nat := 30000

def closeTimeoutMillis : Nat := 30000

def ephemeralPortFirst : Nat := 49152

def ephemeralPortLast : Nat := 50175

def listenerPoolMax : Nat := 4

def listenerBacklogMax : Nat := 128

def udpBufferBytes : Nat := 2 * (16 * 1024)

def validBufferBytes (bytes : Nat) : Bool := minBufferBytes ≤ bytes && bytes ≤ maxBufferBytes

inductive ConnectFailure where
  | refused | reset | timedOut
deriving DecidableEq, Repr

def ConnectFailure.socketError : ConnectFailure → SocketError
  | .refused => .connectionRefused
  | .reset => .connectionReset
  | .timedOut => .connectionTimeout

inductive ConnectPhase where
  | open | bound | connecting | connected
  | failed (failure : ConnectFailure)
deriving DecidableEq, Repr

inductive ShutdownHow where
  | read | write | readWrite
deriving DecidableEq, Repr

def ShutdownHow.includes (how : ShutdownHow) : Direction → Bool
  | .read => how == .read || how == .readWrite
  | .write => how == .write || how == .readWrite

structure TcpRecord where
  identity : SocketIdentity
  handle : Nat
  family : AddressFamily
  phase : ConnectPhase
  localEndpoint : Option IpEndpoint
  localScopeId : Nat
  remote : Option IpEndpoint
  remoteScopeId : Nat
  readShutdown : Bool
  writeShutdown : Bool
  closeDeadline : Option Instant
  accepted : Bool
  rcvbuf : Nat
  sndbuf : Nat
deriving DecidableEq, Repr

namespace TcpRecord

def new (identity : SocketIdentity) (handle : Nat) (family : AddressFamily) (rcvbuf sndbuf : Nat) :
    TcpRecord where
  identity := identity
  handle := handle
  family := family
  phase := .open
  localEndpoint := none
  localScopeId := 0
  remote := none
  remoteScopeId := 0
  readShutdown := false
  writeShutdown := false
  closeDeadline := none
  accepted := false
  rcvbuf := rcvbuf
  sndbuf := sndbuf

/-- `TcpRecord::accepted`: the record of a connection a listener promotes. -/
def ofAccepted (identity : SocketIdentity) (handle : Nat) (localEndpoint remote : IpEndpoint)
    (scopeId rcvbuf sndbuf : Nat) : TcpRecord where
  identity := identity
  handle := handle
  family := AddressFamily.of localEndpoint.addr
  phase := .connected
  localEndpoint := some localEndpoint
  localScopeId := scopeId
  remote := some remote
  remoteScopeId := scopeId
  readShutdown := false
  writeShutdown := false
  closeDeadline := none
  accepted := true
  rcvbuf := rcvbuf
  sndbuf := sndbuf

/-- The key of a record with both endpoints. -/
def connectionKey (record : TcpRecord) : Option ConnectionKey :=
  match record.localEndpoint, record.remote with
  | some localEndpoint, some remote => some (.ofEndpoints localEndpoint remote)
  | _, _ => none

end TcpRecord

structure ListenerRecord where
  identity : SocketIdentity
  endpoint : ValidatedEndpoint
  listenEndpoint : IpListenEndpoint
  localEndpoint : IpEndpoint
  backlog : Nat
  poolTarget : Nat
  pool : ExtTreeSet Nat
  accepted : List SocketIdentity
  rcvbuf : Nat
  sndbuf : Nat
  nodelay : Bool
  keepalive : Bool

structure UdpRecord where
  identity : SocketIdentity
  handles : List Nat
  family : AddressFamily
  localEndpoint : Option ValidatedEndpoint
  peer : Option ValidatedEndpoint
  receiveCursor : Nat
deriving DecidableEq, Repr

def UdpRecord.new (identity : SocketIdentity) (handle : Nat) (family : AddressFamily) :
    UdpRecord where
  identity := identity
  handles := [handle]
  family := family
  localEndpoint := none
  peer := none
  receiveCursor := 0

def maxDatagramBytes (mtu : Nat) : AddressFamily → Nat
  | .inet => min (mtu - 28) (16 * 1024)
  | .inet6 => min (mtu - 48) (16 * 1024)

/-- The first free port from `start` on, wrapping round `first..last`. -/
@[irreducible] def allocateEphemeral (used : List Nat) (start first last : Nat) : Option Nat :=
  let count := last - first + 1
  let start := max first (min start last)
  ((List.range count).map fun offset => first + (start - first + offset) % count).find?
    fun candidate => !used.contains candidate

/-- A port of the ephemeral range. -/
def Ephemeral (port : Nat) : Prop := ephemeralPortFirst ≤ port ∧ port ≤ ephemeralPortLast

theorem Ephemeral.ne_zero {port : Nat} (h : Ephemeral port) : port ≠ 0 := by
  have hfirst : 0 < ephemeralPortFirst := by decide
  have := h.1
  omega

def nextEphemeral (port : Nat) : Nat :=
  if port = ephemeralPortLast then ephemeralPortFirst else port + 1

structure ListenerMemberKey where
  listenerId : Nat
  handle : Nat
deriving DecidableEq, Repr

structure PendingNotification where
  identity : SocketIdentity
  direction : Direction
  waiter : Waiter
deriving DecidableEq, Repr

def PendingNotification.key (notification : PendingNotification) : ReadyKey :=
  ⟨notification.identity, notification.direction⟩

/-! ## Configuration -/

structure AddressConfig where
  address : List UInt8
  prefixLength : Nat
deriving DecidableEq, Repr

structure RouteConfig where
  destination : List UInt8
  prefixLength : Nat
  gateway : List UInt8
deriving DecidableEq, Repr

/-- `ip_address`: four or sixteen octets, and no IPv4-mapped address. -/
def ipAddress (octets : List UInt8) : Option IpAddress := (TcpEndpoint.ipAddress octets).toOption

def prefixLimit : IpAddress → Nat
  | .ipv4 _ => 32
  | .ipv6 _ => 128

def AddressConfig.valid (config : AddressConfig) : Bool :=
  (ipAddress config.address).any fun address =>
    config.prefixLength ≤ prefixLimit address && (address.isUnspecified || address.isUnicast)

def AddressConfig.toCidr (config : AddressConfig) : Option IpCidr :=
  (ipAddress config.address).map fun address => ⟨address, config.prefixLength⟩

def RouteConfig.valid (config : RouteConfig) : Bool :=
  match ipAddress config.destination, ipAddress config.gateway with
  | some destination, some gateway =>
      AddressFamily.of destination == AddressFamily.of gateway &&
        config.prefixLength ≤ prefixLimit destination && !destination.isMulticast &&
        gateway.isUnicast
  | _, _ => false

def RouteConfig.toCidr (config : RouteConfig) : Option IpCidr :=
  (ipAddress config.destination).map fun address => ⟨address, config.prefixLength⟩

structure StackConfig where
  mtu : Nat
  addresses : List AddressConfig
  routes : List RouteConfig
  egressCredit : Option EgressCredit
  tcpTimers : TcpTimers
deriving DecidableEq, Repr

def StackConfig.Valid (config : StackConfig) (limits : Limits) : Prop :=
  (1280 ≤ config.mtu ∧ config.mtu ≤ 65575) ∧ config.mtu ≤ limits.bytesCopied ∧
    config.addresses.length ≤ 8 ∧ config.routes.length ≤ 4 ∧
    config.addresses.all AddressConfig.valid ∧ config.routes.all RouteConfig.valid ∧
    config.tcpTimers.Valid

instance (config : StackConfig) (limits : Limits) : Decidable (config.Valid limits) := by
  unfold StackConfig.Valid
  infer_instance

/-! ## Counters and call results -/

structure Counters where
  maxBytesCopied : Nat := 0
  maxInputPackets : Nat := 0
  maxOutputPackets : Nat := 0
  maxReadyEvents : Nat := 0
  maxMaintenanceWork : Nat := 0
  ingressPackets : Nat := 0
  rejectedPackets : Nat := 0
  emittedPackets : Nat := 0
  pollCalls : Nat := 0
  notificationsDelivered : Nat := 0
  notificationsDropped : Nat := 0
  readinessDropped : Nat := 0
  listenerPromotions : Nat := 0
  listenerRefills : Nat := 0
  listenerOverflowDrops : Nat := 0
  nativeCalls : Nat := 0
  deadlineYields : Nat := 0
deriving DecidableEq, Repr

def Counters.observe (counters : Counters) (work : Work) : Counters :=
  { counters with
    maxBytesCopied := max counters.maxBytesCopied work.bytesCopied
    maxInputPackets := max counters.maxInputPackets work.inputPackets
    maxOutputPackets := max counters.maxOutputPackets work.outputPackets
    maxReadyEvents := max counters.maxReadyEvents work.readyEvents
    maxMaintenanceWork := max counters.maxMaintenanceWork work.maintenanceWork }

/-- What a call reports beside its result: the packets it hands out, when to poll next, in
milliseconds, and whether work remains that a poll resumes. -/
structure Effects where
  output : List Packet := []
  pollAt : Option Int := none
  more : Bool := false
  maintenanceWork : Nat := 0
deriving DecidableEq, Repr

inductive Reply where
  | ok
  | count (packets : Nat)
  | opened (identity : SocketIdentity)
  | kind (kind : SocketKind)
  | accepted (child : SocketIdentity) (family : AddressFamily)
  | select (operation : Operation) (reference : Nat)
  | selectSent (reference accepted : Nat)
  | selectReceived (reference : Nat) (data : List UInt8)
  | received (data : List UInt8)
  | datagram (source destination : EncodedEndpoint) (data : List UInt8) (truncated : Bool)
  | endpoint (endpoint : EncodedEndpoint)
  | flag (value : Bool)
  | alreadySent
  | notFound
deriving DecidableEq, Repr

structure Envelope where
  result : Reply
  output : List Packet
  pollAt : Option Int
  more : Bool
deriving DecidableEq, Repr

def Envelope.empty (result : Reply) : Envelope := ⟨result, [], none, false⟩

end SmolNet
