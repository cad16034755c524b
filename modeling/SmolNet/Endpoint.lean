import SmolNet.Basic

/-!
# Addresses and endpoints

IP addresses as the bit vectors of their octets, the endpoints built from them, the validation of
an endpoint given by a caller, and the key of a connection in the stack's index.
-/

namespace SmolNet

open Std

inductive AddressFamily where
  | inet | inet6
deriving DecidableEq, Repr

inductive IpAddress where
  | ipv4 (bits : BitVec 32)
  | ipv6 (bits : BitVec 128)
deriving DecidableEq, Repr

/-- A big-endian number. -/
def bigEndian (octets : List UInt8) : Nat :=
  octets.foldl (fun n octet => n * 256 + octet.toNat) 0

def toOctets (count n : Nat) : List UInt8 :=
  (List.range count).reverse.map fun i => UInt8.ofNat (n / 256 ^ i)

namespace IpAddress

def octets : IpAddress → List UInt8
  | .ipv4 bits => toOctets 4 bits.toNat
  | .ipv6 bits => toOctets 16 bits.toNat

def isUnspecified : IpAddress → Bool
  | .ipv4 bits => bits == 0
  | .ipv6 bits => bits == 0

def isMulticast : IpAddress → Bool
  | .ipv4 bits => bits >>> 28 == 0xe#32
  | .ipv6 bits => bits >>> 120 == 0xff#128

def isBroadcast : IpAddress → Bool
  | .ipv4 bits => bits == 0xffffffff#32
  | .ipv6 _ => false

def isUnicast (address : IpAddress) : Bool :=
  !(address.isBroadcast || address.isMulticast || address.isUnspecified)

def linkLocal : IpAddress → Bool
  | .ipv4 _ => false
  | .ipv6 bits => bits >>> 118 == 0x3fa#128

/-- An IPv6 address with the prefix `::ffff:0:0/96`. -/
def ipv4Mapped : IpAddress → Bool
  | .ipv4 _ => false
  | .ipv6 bits => bits >>> 32 == 0xffff#128

/-- The 16-octet form an address takes in a connection key. -/
def addressKey : IpAddress → BitVec 128
  | .ipv4 bits => bits ++ 0#96
  | .ipv6 bits => bits

end IpAddress

namespace AddressFamily

def of : IpAddress → AddressFamily
  | .ipv4 _ => .inet
  | .ipv6 _ => .inet6

def unspecified : AddressFamily → IpAddress
  | .inet => .ipv4 0
  | .inet6 => .ipv6 0

/-- `AddressFamily::matches`. -/
def includes (family : AddressFamily) (address : IpAddress) : Bool :=
  family == of address

def index : AddressFamily → Nat
  | .inet => 0
  | .inet6 => 1

theorem index_injective : Function.Injective index := by
  intro a b h
  cases a <;> cases b <;> simp_all [index]

end AddressFamily

structure IpCidr where
  address : IpAddress
  prefixLen : Nat
deriving DecidableEq, Repr

def IpCidr.containsAddr (cidr : IpCidr) : IpAddress → Bool
  | .ipv4 bits =>
      match cidr.address with
      | .ipv4 network => network >>> (32 - cidr.prefixLen) == bits >>> (32 - cidr.prefixLen)
      | .ipv6 _ => false
  | .ipv6 bits =>
      match cidr.address with
      | .ipv4 _ => false
      | .ipv6 network => network >>> (128 - cidr.prefixLen) == bits >>> (128 - cidr.prefixLen)

structure IpEndpoint where
  addr : IpAddress
  port : Nat
deriving DecidableEq, Repr

structure IpListenEndpoint where
  addr : Option IpAddress
  port : Nat
deriving DecidableEq, Repr

structure ValidatedEndpoint where
  address : IpAddress
  port : Nat
  scopeId : Nat
deriving DecidableEq, Repr

namespace ValidatedEndpoint

def ipEndpoint (endpoint : ValidatedEndpoint) : IpEndpoint :=
  ⟨endpoint.address, endpoint.port⟩

def listenEndpoint (endpoint : ValidatedEndpoint) : IpListenEndpoint :=
  ⟨if endpoint.address.isUnspecified then none else some endpoint.address, endpoint.port⟩

end ValidatedEndpoint

/-- An endpoint as a caller gives it. -/
structure TcpEndpoint where
  address : List UInt8
  port : Int
  scopeId : Int
deriving DecidableEq, Repr

namespace TcpEndpoint

def ipAddress (octets : List UInt8) : Except SocketError IpAddress :=
  if octets.length = 4 then .ok (.ipv4 (BitVec.ofNat 32 (bigEndian octets)))
  else if octets.length = 16 then
    let address := IpAddress.ipv6 (BitVec.ofNat 128 (bigEndian octets))
    if address.ipv4Mapped then .error .invalidAddress else .ok address
  else .error .invalidAddress

def checkScope (address : IpAddress) (scopeId : Int) : Except SocketError Unit :=
  if address.linkLocal then
    if scopeId = 0 then .error .scopeRequired
    else if scopeId < 0 ∨ 2 ^ 32 - 1 < scopeId then .error .invalidScope
    else .ok ()
  else if scopeId ≠ 0 then .error .invalidScope
  else .ok ()

def validate (endpoint : TcpEndpoint) (bind : Bool) : Except SocketError ValidatedEndpoint := do
  let address ← ipAddress endpoint.address
  if address.isMulticast || address.isBroadcast || (!bind && address.isUnspecified) then
    throw .invalidAddress
  if endpoint.port < 0 ∨ 65535 < endpoint.port ∨ (bind = false ∧ endpoint.port = 0) then
    throw .invalidPort
  checkScope address endpoint.scopeId
  return ⟨address, endpoint.port.toNat, endpoint.scopeId.toNat⟩

def bindEndpoint (endpoint : TcpEndpoint) : Except SocketError ValidatedEndpoint :=
  endpoint.validate true

def remoteEndpoint (endpoint : TcpEndpoint) : Except SocketError ValidatedEndpoint :=
  endpoint.validate false

end TcpEndpoint

structure EncodedEndpoint where
  address : List UInt8
  port : Nat
  scopeId : Nat
deriving DecidableEq, Repr

def EncodedEndpoint.ofEndpoint (endpoint : IpEndpoint) (scopeId : Nat) : EncodedEndpoint :=
  ⟨endpoint.addr.octets, endpoint.port, scopeId⟩

structure ConnectionKey where
  family : AddressFamily
  localAddress : BitVec 128
  localPort : Nat
  remoteAddress : BitVec 128
  remotePort : Nat
deriving DecidableEq, Repr

namespace ConnectionKey

def ofEndpoints (localEndpoint remote : IpEndpoint) : ConnectionKey where
  family := AddressFamily.of localEndpoint.addr
  localAddress := localEndpoint.addr.addressKey
  localPort := localEndpoint.port
  remoteAddress := remote.addr.addressKey
  remotePort := remote.port

/-- The derived order: field by field. -/
def cmp : ConnectionKey → ConnectionKey → Ordering :=
  compareLex (compareOn (·.family.index)) (compareLex (compareOn (·.localAddress.toNat))
    (compareLex (compareOn (·.localPort)) (compareLex (compareOn (·.remoteAddress.toNat))
      (compareOn (·.remotePort)))))

instance : TransCmp cmp := by
  unfold cmp
  infer_instance

instance : LawfulEqCmp cmp where
  eq_of_compare {a b} h := by
    obtain ⟨_, _, _, _, _⟩ := a
    obtain ⟨_, _, _, _, _⟩ := b
    simp only [cmp, compareLex_eq_eq, compareOn, Std.compare_eq_iff_eq] at h
    obtain ⟨hfamily, hlocal, hlocalPort, hremote, hremotePort⟩ := h
    simp [AddressFamily.index_injective hfamily, BitVec.eq_of_toNat_eq hlocal, hlocalPort,
      BitVec.eq_of_toNat_eq hremote, hremotePort]

end ConnectionKey

end SmolNet
