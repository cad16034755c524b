import SmolNet.Endpoint

/-!
# Packet headers

The header fields the stack reads from raw packets: what an IPv4 or IPv6 packet must satisfy to be
accepted, the TCP segment inside it, and the two questions the stack asks of a segment, whether it
resets a known connection and whether it opens a new one.
-/

namespace SmolNet.Wire

def byte (packet : Packet) (i : Nat) : Nat := (packet.getD i 0).toNat

def word (packet : Packet) (i : Nat) : Nat := byte packet i * 256 + byte packet (i + 1)

def slice (packet : Packet) (start stop : Nat) : Packet := (packet.take stop).drop start

def version (packet : Packet) : Nat := byte packet 0 / 16

/-! ## IPv4 -/

namespace Ipv4

def headerLen (packet : Packet) : Nat := byte packet 0 % 16 * 4

def totalLen (packet : Packet) : Nat := word packet 2

/-- `Ipv4Packet::new_checked`. -/
def newChecked (packet : Packet) : Bool :=
  20 ≤ packet.length && headerLen packet ≤ packet.length && headerLen packet ≤ totalLen packet &&
    totalLen packet ≤ packet.length && 20 ≤ headerLen packet

def moreFrags (packet : Packet) : Bool := word packet 6 / 0x2000 % 2 == 1

def fragOffset (packet : Packet) : Nat := word packet 6 * 8 % 65536

/-- The sum of 16-bit words as the host reads them, low octet first. -/
def hostSum : Packet → Nat
  | [] => 0
  | [a] => a.toNat
  | a :: b :: rest => a.toNat + 256 * b.toNat + hostSum rest

def propagateCarries (accum : Nat) : Nat :=
  let sum := accum / 65536 + accum % 65536
  (sum / 65536 + sum % 65536) % 65536

def swapBytes (w : Nat) : Nat := w % 256 * 256 + w / 256

/-- `checksum::data`: summed in host order and converted once. -/
def checksum (octets : Packet) : Nat := swapBytes (propagateCarries (hostSum octets % 2 ^ 32))

def verifyChecksum (packet : Packet) : Bool :=
  checksum (packet.take (headerLen packet)) == 0xffff

def srcAddr (packet : Packet) : IpAddress := .ipv4 (BitVec.ofNat 32 (bigEndian (slice packet 12 16)))

def dstAddr (packet : Packet) : IpAddress := .ipv4 (BitVec.ofNat 32 (bigEndian (slice packet 16 20)))

def nextHeader (packet : Packet) : Nat := byte packet 9

def payload (packet : Packet) : Packet := slice packet (headerLen packet) (totalLen packet)

end Ipv4

/-! ## IPv6 -/

namespace Ipv6

def payloadLen (packet : Packet) : Nat := word packet 4

def newChecked (packet : Packet) : Bool :=
  40 ≤ packet.length && 40 + payloadLen packet ≤ packet.length

def srcAddr (packet : Packet) : IpAddress := .ipv6 (BitVec.ofNat 128 (bigEndian (slice packet 8 24)))

def dstAddr (packet : Packet) : IpAddress := .ipv6 (BitVec.ofNat 128 (bigEndian (slice packet 24 40)))

def nextHeader (packet : Packet) : Nat := byte packet 6

def payload (packet : Packet) : Packet := slice packet 40 (40 + payloadLen packet)

/-- `Ipv6ExtHeader::new_checked`. -/
def extensionChecked (transport : Packet) : Bool :=
  8 ≤ transport.length && byte transport 1 * 8 + 8 ≤ transport.length

end Ipv6

/-! ## TCP segments -/

def hopByHop : Nat := 0

def tcpProtocol : Nat := 6

structure Segment where
  source : IpAddress
  destination : IpAddress
  nextHeader : Nat
  transport : Packet
deriving DecidableEq, Repr

/-- The transport segment of a packet, past an IPv6 hop-by-hop header. -/
def segment (packet : Packet) : Option Segment :=
  if version packet = 4 then
    if Ipv4.newChecked packet then
      some ⟨Ipv4.srcAddr packet, Ipv4.dstAddr packet, Ipv4.nextHeader packet, Ipv4.payload packet⟩
    else none
  else if version packet = 6 then
    if Ipv6.newChecked packet then
      let transport := Ipv6.payload packet
      if Ipv6.nextHeader packet = hopByHop then
        if Ipv6.extensionChecked transport then
          some ⟨Ipv6.srcAddr packet, Ipv6.dstAddr packet, byte transport 0,
            transport.drop ((byte transport 1 + 1) * 8)⟩
        else none
      else some ⟨Ipv6.srcAddr packet, Ipv6.dstAddr packet, Ipv6.nextHeader packet, transport⟩
    else none
  else none

namespace Tcp

def headerLen (segment : Packet) : Nat := word segment 12 / 4096 * 4

def newChecked (segment : Packet) : Bool :=
  20 ≤ segment.length && headerLen segment ≤ segment.length && 20 ≤ headerLen segment

def srcPort (segment : Packet) : Nat := word segment 0

def dstPort (segment : Packet) : Nat := word segment 2

def syn (segment : Packet) : Bool := word segment 12 / 0x002 % 2 == 1

def rst (segment : Packet) : Bool := word segment 12 / 0x004 % 2 == 1

def ack (segment : Packet) : Bool := word segment 12 / 0x010 % 2 == 1

end Tcp

def tcpSegment (packet : Packet) : Option Segment :=
  (segment packet).filter fun s => s.nextHeader == tcpProtocol && Tcp.newChecked s.transport

/-- The connection a reset segment names, from the receiver's side. -/
def resetKey (packet : Packet) : Option ConnectionKey :=
  match tcpSegment packet with
  | none => none
  | some s =>
      if Tcp.rst s.transport then
        some (ConnectionKey.ofEndpoints ⟨s.destination, Tcp.dstPort s.transport⟩
          ⟨s.source, Tcp.srcPort s.transport⟩)
      else none

/-- The endpoint an opening segment asks for. -/
def tcpListenerTarget (packet : Packet) : Option (IpAddress × Nat) :=
  match tcpSegment packet with
  | none => none
  | some s =>
      if Tcp.syn s.transport && !Tcp.ack s.transport then
        some (s.destination, Tcp.dstPort s.transport)
      else none

def validateRawPacket (packet : Packet) (mtu bytesCopied : Nat) : Except StackError Unit :=
  let valid :=
    if version packet = 4 then
      Ipv4.newChecked packet && Ipv4.totalLen packet == packet.length &&
        Ipv4.verifyChecksum packet && !Ipv4.moreFrags packet && Ipv4.fragOffset packet == 0
    else if version packet = 6 then
      Ipv6.newChecked packet && 40 + Ipv6.payloadLen packet == packet.length
    else false
  if packet = [] ∨ valid = false then .error .invalidPacket
  else if mtu < packet.length ∨ bytesCopied < packet.length then .error .packetTooLarge
  else .ok ()

end SmolNet.Wire
