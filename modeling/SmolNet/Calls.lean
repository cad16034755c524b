import SmolNet.Shutdown

/-!
# The calls of a stack

Every way the BEAM enters the native stack, what a call returns, and runs of calls.
-/

namespace SmolNet

open Program

namespace NativeStack

/-! ## Ingress, polls, grants and cancellation -/

def validatePacket (packet : Packet) : Op StackError Unit := do
  let s ← get
  match Wire.validateRawPacket packet s.mtu s.limits.bytesCopied with
  | .ok () => pure ()
  | .error e =>
      set { s with
        counters := { s.counters with rejectedPackets := s.counters.rejectedPackets + 1 } }
      fail e

/-- Validates the packets of a batch in turn and adds up their bytes. -/
def validateBatch : List Packet → Nat → Op StackError Nat
  | [], copied => return copied
  | packet :: rest, copied => do
      validatePacket packet
      let s ← get
      require (copied + packet.length ≤ s.limits.bytesCopied) .batchTooLarge
      validateBatch rest (copied + packet.length)

def ingressBatch (packets : List Packet) (now : Instant) : Op StackError Effects := do
  let s ← get
  require (s.lifecycle = .running) .closed
  require (packets.length ≤ s.limits.inputPackets) .batchTooLarge
  let copied ← validateBatch packets 0
  let s ← get
  require (s.device.receiveFits packets.length = true) .ownershipInvariantViolation
  set { s with
    counters := { s.counters with ingressPackets := s.counters.ingressPackets + packets.length } }
  driveBatch now packets copied

def ingress (packet : Packet) (now : Instant) : Op StackError Effects := ingressBatch [packet] now

def pollCall (now : Instant) : Op StackError Envelope := do
  let s ← get
  match s.lifecycle with
  | .running =>
      set { s with counters := { s.counters with pollCalls := s.counters.pollCalls + 1 } }
      let effects ← drive now 0
      finishCall .ok effects []
  | .shuttingDown => continueShutdown
  | .shutdown => return .empty .ok

def grantEgressCall (packets bytes : Nat) (now : Instant) : Op StackError Envelope := do
  let s ← get
  require (s.lifecycle = .running) .closed
  let device ← orFail (s.device.grantEgress packets bytes) .egressCreditDisabled
  set { s with device := device }
  let effects ← drive now 0
  finishCall .ok effects []

def CancelResult.reply : CancelResult → Reply
  | .cancelled => .ok
  | .alreadySent => .alreadySent
  | .notFound => .notFound

/-- The log of a cancellation names the waiter it takes. -/
def logCancelled (s : NativeStack) (key : ReadyKey) (waiter : Option Waiter) : NativeStack :=
  waiter.elim s fun waiter => s.logEvent (.cancelled key waiter)

def cancel (identity : SocketIdentity) (operation : Operation) (reference : Nat) :
    Op SocketError Envelope := do
  ensureRunning
  let s ← get
  let cancelled ← ofExcept (s.socketTable.cancel identity operation reference)
  let s' := { s with socketTable := cancelled.2 }
  set (if cancelled.1 = .cancelled then
      s'.logCancelled ⟨identity, operation.direction⟩
        ((s.socketTable.lookup identity).bind fun entry => entry.waiter operation.direction)
    else s')
  finishCall (CancelResult.reply cancelled.1) {} []

end NativeStack

/-! ## Calls -/

/-- A native call with its arguments; times are in milliseconds, as the BEAM passes them. -/
inductive Call where
  | ingress (packet : Packet) (now : Int)
  | ingressBatch (packets : List Packet) (now : Int)
  | poll (now : Int)
  | grantEgress (packets bytes : Nat) (now : Int)
  | shutdown (reason : AbortReason)
  | cancel (identity : SocketIdentity) (operation : Operation) (reference : Nat)
  | socketValidate (identity : SocketIdentity)
  | tcpOpen (family : AddressFamily) (rcvbuf sndbuf : Nat)
  | tcpBind (identity : SocketIdentity) (endpoint : TcpEndpoint)
  | tcpListen (identity : SocketIdentity) (backlog : Nat) (now : Int)
  | tcpAccept (identity : SocketIdentity) (pid reference : Nat)
  | tcpConnect (identity : SocketIdentity) (endpoint : TcpEndpoint) (pid reference : Nat) (now : Int)
  | tcpSend (identity : SocketIdentity) (data : List UInt8) (pid reference : Nat) (now : Int)
  | tcpRecv (identity : SocketIdentity) (length pid reference : Nat) (now : Int)
  | tcpShutdown (identity : SocketIdentity) (how : ShutdownHow) (now : Int)
  | tcpSockname (identity : SocketIdentity)
  | tcpPeername (identity : SocketIdentity)
  | tcpSetNodelay (identity : SocketIdentity) (nodelay : Bool) (now : Int)
  | tcpNodelay (identity : SocketIdentity)
  | tcpSetKeepalive (identity : SocketIdentity) (keepalive : Bool) (now : Int)
  | tcpKeepalive (identity : SocketIdentity)
  | tcpClose (identity : SocketIdentity) (now : Int)
  | udpOpen (family : AddressFamily)
  | udpBind (identity : SocketIdentity) (endpoint : TcpEndpoint)
  | udpConnect (identity : SocketIdentity) (endpoint : TcpEndpoint)
  | udpSendto (identity : SocketIdentity) (endpoint : TcpEndpoint) (data : List UInt8)
      (pid reference : Nat) (now : Int)
  | udpRecvfrom (identity : SocketIdentity) (length pid reference : Nat) (now : Int)
  | udpSockname (identity : SocketIdentity)
  | udpPeername (identity : SocketIdentity)
  | udpClose (identity : SocketIdentity) (now : Int)
deriving DecidableEq, Repr

inductive CallError where
  | stack (error : StackError)
  | socket (error : SocketError)
deriving DecidableEq, Repr

namespace Call

open NativeStack

def onStack (program : Op StackError Envelope) : Op CallError Envelope :=
  mapError .stack program

def onSocket (program : Op SocketError Envelope) : Op CallError Envelope :=
  mapError .socket program

def program : Call → Op CallError Envelope
  | .ingress packet now => onStack do
      let effects ← NativeStack.ingress packet (fromMillis now)
      finishCall .ok effects []
  | .ingressBatch packets now => onStack do
      let effects ← NativeStack.ingressBatch packets (fromMillis now)
      finishCall (.count packets.length) effects []
  | .poll now => onStack (pollCall (fromMillis now))
  | .grantEgress packets bytes now => onStack (grantEgressCall packets bytes (fromMillis now))
  | .shutdown reason => onStack (NativeStack.shutdown reason)
  | .cancel identity operation reference =>
      onSocket (NativeStack.cancel identity operation reference)
  | .socketValidate identity => onSocket (NativeStack.socketValidate identity)
  | .tcpOpen family rcvbuf sndbuf => onSocket (NativeStack.tcpOpen family rcvbuf sndbuf)
  | .tcpBind identity endpoint => onSocket (NativeStack.tcpBind identity endpoint)
  | .tcpListen identity backlog now =>
      onSocket (NativeStack.tcpListen identity backlog (fromMillis now))
  | .tcpAccept identity pid reference => onSocket (NativeStack.tcpAccept identity pid reference)
  | .tcpConnect identity endpoint pid reference now =>
      onSocket (NativeStack.tcpConnect identity endpoint pid reference (fromMillis now))
  | .tcpSend identity data pid reference now =>
      onSocket (NativeStack.tcpSend identity data pid reference (fromMillis now))
  | .tcpRecv identity length pid reference now =>
      onSocket (NativeStack.tcpRecv identity length pid reference (fromMillis now))
  | .tcpShutdown identity how now =>
      onSocket (NativeStack.tcpShutdown identity how (fromMillis now))
  | .tcpSockname identity => onSocket (NativeStack.tcpSockname identity)
  | .tcpPeername identity => onSocket (NativeStack.tcpPeername identity)
  | .tcpSetNodelay identity nodelay now =>
      onSocket (NativeStack.tcpSetNodelay identity nodelay (fromMillis now))
  | .tcpNodelay identity => onSocket (NativeStack.tcpNodelay identity)
  | .tcpSetKeepalive identity keepalive now =>
      onSocket (NativeStack.tcpSetKeepalive identity keepalive (fromMillis now))
  | .tcpKeepalive identity => onSocket (NativeStack.tcpKeepalive identity)
  | .tcpClose identity now => onSocket (NativeStack.tcpClose identity (fromMillis now))
  | .udpOpen family => onSocket (NativeStack.udpOpen family)
  | .udpBind identity endpoint => onSocket (NativeStack.udpBind identity endpoint)
  | .udpConnect identity endpoint => onSocket (NativeStack.udpConnect identity endpoint)
  | .udpSendto identity endpoint data pid reference now =>
      onSocket (NativeStack.udpSendto identity endpoint data pid reference (fromMillis now))
  | .udpRecvfrom identity length pid reference now =>
      onSocket (NativeStack.udpRecvfrom identity length pid reference (fromMillis now))
  | .udpSockname identity => onSocket (NativeStack.udpSockname identity)
  | .udpPeername identity => onSocket (NativeStack.udpPeername identity)
  | .udpClose identity now => onSocket (NativeStack.udpClose identity (fromMillis now))

end Call

/-! ## Runs -/

/-- What a call returns to the BEAM. -/
inductive Answer where
  | envelope (envelope : Envelope)
  | error (error : CallError)
  | nativePanic
deriving DecidableEq, Repr

namespace NativeStack

/-- One call on a stack, in the world it happens in. -/
def call (s : NativeStack) (call : Call) (world : World) : Answer × NativeStack :=
  match call.program (s.beginCall world) with
  | .ok envelope s' => (.envelope envelope, s'.observeCall)
  | .error (.error e) s' => (.error e, s'.observeCall)
  | .error .panic s' => (.nativePanic, s')

/-- A run of calls: what each returned, and the state they leave. -/
def run (s : NativeStack) : List (Call × World) → List (Call × Answer) × NativeStack
  | [] => ([], s)
  | (c, world) :: rest =>
      let first := s.call c world
      let later := first.2.run rest
      ((c, first.1) :: later.1, later.2)

/-- A state between calls of a stack with some valid limits and configuration. -/
inductive Reachable : NativeStack → Prop
  | new {limits : Limits} {config : StackConfig} {id generation : Nat} {s : NativeStack} :
      NativeStack.new limits config id generation = .ok s → Reachable s
  | call {s : NativeStack} (c : Call) (world : World) : Reachable s → Reachable (s.call c world).2

end NativeStack

end SmolNet
