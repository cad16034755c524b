import Mathlib

/-!
# Identities, operations and limits

The plain data of the stack: socket identities and the keys wakers mark ready, errors, work limits
and TCP timers.
-/

namespace SmolNet

open Std

inductive Direction where
  | read | write
deriving DecidableEq, Repr

inductive Operation where
  | recv | recvfrom | accept | send | sendto | connect
deriving DecidableEq, Repr

def Operation.direction : Operation → Direction
  | .recv | .recvfrom | .accept => .read
  | .send | .sendto | .connect => .write

structure SocketIdentity where
  id : Nat
  generation : Nat
deriving DecidableEq, Repr

structure ReadyKey where
  identity : SocketIdentity
  direction : Direction
deriving DecidableEq, Repr

/-- A process that waits for a socket; `pid` and `reference` are opaque. -/
structure Waiter where
  pid : Nat
  operation : Operation
  reference : Nat
deriving DecidableEq, Repr

def Waiter.matches (waiter : Waiter) (operation : Operation) (reference : Nat) : Bool :=
  waiter.operation == operation && waiter.reference == reference

inductive SocketKind where
  | tcp | udp | synthetic
deriving DecidableEq, Repr

inductive SocketError where
  | closed | endOfStream | invalidSocket | wrongKind | invalidState | invalidOperation
  | invalidOptions | busy | systemLimit | invalidAddress | invalidPort | invalidBacklog
  | scopeRequired | invalidScope | addressInUse | addressNotAvailable | ephemeralPortsExhausted
  | networkUnreachable | alreadyConnected | notBound | notConnected | connectionRefused
  | connectionReset | connectionTimeout | messageTooLarge
deriving DecidableEq, Repr

inductive StackError where
  | closed | invalidLimits | invalidStackConfig | invalidPacket | packetTooLarge | batchTooLarge
  | ownershipInvariantViolation | egressCreditDisabled
deriving DecidableEq, Repr

inductive AbortReason where
  | closed | linkDown | stackDown
deriving DecidableEq, Repr

inductive Lifecycle where
  | running | shuttingDown | shutdown
deriving DecidableEq, Repr

/-- Microseconds on the monotonic clock. -/
abbrev Instant := Int

/-- `Instant::total_millis`, which truncates towards zero. -/
def totalMillis (instant : Instant) : Int := instant.tdiv 1000

def fromMillis (millis : Int) : Instant := millis * 1000

abbrev Packet := List UInt8

def usizeMax : Nat := 2 ^ 64 - 1

def saturatingAdd (a b : Nat) : Nat := min (a + b) usizeMax

structure Limits where
  bytesCopied : Nat
  inputPackets : Nat
  outputPackets : Nat
  readyEvents : Nat
  maintenanceWork : Nat
  sockets : Nat
deriving DecidableEq, Repr

def Limits.Valid (limits : Limits) : Prop :=
  (1 ≤ limits.bytesCopied ∧ limits.bytesCopied ≤ 65575) ∧
    (1 ≤ limits.inputPackets ∧ limits.inputPackets ≤ 32) ∧
    (1 ≤ limits.outputPackets ∧ limits.outputPackets ≤ 32) ∧
    (1 ≤ limits.readyEvents ∧ limits.readyEvents ≤ 128) ∧
    (1 ≤ limits.maintenanceWork ∧ limits.maintenanceWork ≤ 128) ∧
    (1 ≤ limits.sockets ∧ limits.sockets ≤ 512)

instance (limits : Limits) : Decidable limits.Valid := by
  unfold Limits.Valid
  infer_instance

/-- The work one call did, by dimension. -/
structure Work where
  bytesCopied : Nat := 0
  inputPackets : Nat := 0
  outputPackets : Nat := 0
  readyEvents : Nat := 0
  maintenanceWork : Nat := 0
deriving DecidableEq, Repr

structure KeepAlive where
  idle : Nat
  interval : Nat
  probes : Option Nat
deriving DecidableEq, Repr

/-- The timers a stack gives its TCP connections, in milliseconds. -/
structure TcpTimers where
  userTimeout : Nat := 924600
  keepaliveIdle : Nat := 7200000
  keepaliveInterval : Nat := 75000
  keepaliveProbes : Nat := 9
deriving DecidableEq, Repr

namespace TcpTimers

def maxMillis : Nat := 86400000

def Valid (timers : TcpTimers) : Prop :=
  (1 ≤ timers.userTimeout ∧ timers.userTimeout ≤ maxMillis) ∧
    (1 ≤ timers.keepaliveIdle ∧ timers.keepaliveIdle ≤ maxMillis) ∧
    (1 ≤ timers.keepaliveInterval ∧ timers.keepaliveInterval ≤ maxMillis) ∧
    0 < timers.keepaliveProbes

instance (timers : TcpTimers) : Decidable timers.Valid := by
  unfold Valid
  infer_instance

def keepAlive (timers : TcpTimers) (enabled : Bool) : Option KeepAlive :=
  if enabled then
    some ⟨timers.keepaliveIdle, timers.keepaliveInterval, some timers.keepaliveProbes⟩
  else none

end TcpTimers

/-! ## Orders of the keys -/

def Direction.index : Direction → Nat
  | .read => 0
  | .write => 1

theorem Direction.index_injective : Function.Injective Direction.index := by
  intro a b h
  cases a <;> cases b <;> simp_all [Direction.index]

/-- `ReadyKey`'s derived order: identity first, then read before write. -/
def ReadyKey.cmp : ReadyKey → ReadyKey → Ordering :=
  compareLex (compareOn (·.identity.id))
    (compareLex (compareOn (·.identity.generation)) (compareOn (·.direction.index)))

instance : TransCmp ReadyKey.cmp := by
  unfold ReadyKey.cmp
  infer_instance

instance : LawfulEqCmp ReadyKey.cmp where
  eq_of_compare {a b} h := by
    obtain ⟨⟨_, _⟩, _⟩ := a
    obtain ⟨⟨_, _⟩, _⟩ := b
    simp only [ReadyKey.cmp, compareLex_eq_eq, compareOn, Std.compare_eq_iff_eq] at h
    obtain ⟨h1, h2, h3⟩ := h
    simp [h1, h2, Direction.index_injective h3]

/-- The order in which a sweep visits the keys: by socket id, read before write. -/
def ReadyKey.Before (a b : ReadyKey) : Prop :=
  a.identity.id < b.identity.id ∨
    (a.identity.id = b.identity.id ∧ a.direction = .read ∧ b.direction = .write)

instance (a b : ReadyKey) : Decidable (a.Before b) := by
  unfold ReadyKey.Before
  infer_instance

end SmolNet
