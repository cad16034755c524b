import SmolNet.Endpoint
import SmolNet.TreeMap

/-!
# Native sockets

What the stack sees of a smoltcp socket, and the methods it calls on one.  A method that changes a
socket's state fires its registered wakers; it returns them, by the key each marks ready.  `Evolves`
is what one of smoltcp's own polls may do to a socket.
-/

namespace SmolNet

open Std

/-! ## TCP -/

inductive TcpState where
  | closed | listen | synSent | synReceived | established | finWait1 | finWait2 | closeWait
  | closing | lastAck | timeWait
deriving DecidableEq, Repr

/-- A byte ring; what it holds never exceeds its capacity. -/
structure RingBuffer where
  capacity : Nat
  contents : List UInt8
  fits : contents.length ≤ capacity
deriving DecidableEq, Repr

namespace RingBuffer

def empty (capacity : Nat) : RingBuffer := ⟨capacity, [], Nat.zero_le _⟩

def clear (ring : RingBuffer) : RingBuffer := empty ring.capacity

def window (ring : RingBuffer) : Nat := ring.capacity - ring.contents.length

def enqueueSlice (ring : RingBuffer) (data : List UInt8) : Nat × RingBuffer :=
  let size := min ring.window data.length
  (size, ⟨ring.capacity, ring.contents ++ data.take size, by
    have := ring.fits
    simp [window, size]
    omega⟩)

def dequeueSlice (ring : RingBuffer) (size : Nat) : List UInt8 × RingBuffer :=
  (ring.contents.take size, ⟨ring.capacity, ring.contents.drop size, by
    have := ring.fits
    simp
    omega⟩)

@[simp] theorem clear_capacity (ring : RingBuffer) : ring.clear.capacity = ring.capacity := rfl

@[simp] theorem enqueueSlice_capacity (ring : RingBuffer) (data : List UInt8) :
    (ring.enqueueSlice data).2.capacity = ring.capacity := rfl

@[simp] theorem dequeueSlice_capacity (ring : RingBuffer) (size : Nat) :
    (ring.dequeueSlice size).2.capacity = ring.capacity := rfl

end RingBuffer

/-- `finReceived` and `resetIn` are history variables, which no method reads: whether the peer's FIN
has been received on the socket's last connection, and the state a reset ended it in. -/
structure TcpSocket where
  state : TcpState
  listenEndpoint : IpListenEndpoint
  tuple : Option (IpEndpoint × IpEndpoint)
  rx : RingBuffer
  tx : RingBuffer
  timeout : Option Nat
  keepAlive : Option KeepAlive
  nagle : Bool
  timeoutAbort : Bool
  finReceived : Bool
  resetIn : Option TcpState
  rxWaker : Option ReadyKey
  txWaker : Option ReadyKey
deriving DecidableEq, Repr

inductive ListenError where
  | invalidState | unaddressable
deriving DecidableEq, Repr

inductive ConnectError where
  | invalidState | unaddressable
deriving DecidableEq, Repr

namespace TcpSocket

def unbound : IpListenEndpoint := ⟨none, 0⟩

def new (rcvbuf sndbuf : Nat) : TcpSocket where
  state := .closed
  listenEndpoint := unbound
  tuple := none
  rx := .empty rcvbuf
  tx := .empty sndbuf
  timeout := none
  keepAlive := none
  nagle := true
  timeoutAbort := false
  finReceived := false
  resetIn := none
  rxWaker := none
  txWaker := none

def localEndpoint (socket : TcpSocket) : Option IpEndpoint := socket.tuple.map Prod.fst

def remoteEndpoint (socket : TcpSocket) : Option IpEndpoint := socket.tuple.map Prod.snd

def isOpen (socket : TcpSocket) : Bool := socket.state != .closed && socket.state != .timeWait

def maySend (socket : TcpSocket) : Bool :=
  socket.state == .established || socket.state == .closeWait

def canSend (socket : TcpSocket) : Bool := socket.maySend && socket.tx.window != 0

def canRecv (socket : TcpSocket) : Bool := socket.rx.contents != []

def mayRecv (socket : TcpSocket) : Bool :=
  socket.state == .established || socket.state == .finWait1 || socket.state == .finWait2 ||
    socket.canRecv

/-- Nothing has ended the socket's connection yet. -/
structure Unended (socket : TcpSocket) : Prop where
  finReceived : socket.finReceived = false
  resetIn : socket.resetIn = none
  timeoutAbort : socket.timeoutAbort = false

/-- The socket waits for a connection to the endpoint. -/
structure Listens (socket : TcpSocket) (endpoint : IpListenEndpoint) : Prop extends
    Unended socket where
  state : socket.state = .listen
  tuple : socket.tuple = none
  listenEndpoint : socket.listenEndpoint = endpoint

def wakers (socket : TcpSocket) : List ReadyKey := socket.rxWaker.toList ++ socket.txWaker.toList

/-- Fires both wakers, which empties their registrations. -/
def wakeAll (socket : TcpSocket) : TcpSocket := { socket with rxWaker := none, txWaker := none }

def setState (socket : TcpSocket) (state : TcpState) : TcpSocket × List ReadyKey :=
  ({ socket.wakeAll with state := state }, socket.wakers)

def reset (socket : TcpSocket) : TcpSocket :=
  { socket.wakeAll with
    state := .closed
    listenEndpoint := unbound
    tuple := none
    rx := socket.rx.clear
    tx := socket.tx.clear
    timeoutAbort := false
    finReceived := false
    resetIn := none }

def listen (socket : TcpSocket) (endpoint : IpListenEndpoint) :
    Except ListenError (TcpSocket × List ReadyKey) :=
  if endpoint.port = 0 then .error .unaddressable
  else if socket.isOpen then
    if socket.state = .listen ∧ socket.listenEndpoint = endpoint then .ok (socket, [])
    else .error .invalidState
  else .ok ({ socket.reset with listenEndpoint := endpoint, state := .listen }, socket.wakers)

def connect (socket : TcpSocket) (sourceAddress : IpAddress → Option IpAddress)
    (remote : IpEndpoint) (localListen : IpListenEndpoint) :
    Except ConnectError (TcpSocket × List ReadyKey) :=
  if socket.isOpen then .error .invalidState
  else if remote.port = 0 ∨ remote.addr.isUnspecified then .error .unaddressable
  else if localListen.port = 0 then .error .unaddressable
  else
    match (match localListen.addr with
      | some addr => if addr.isUnspecified then none else some addr
      | none => sourceAddress remote.addr) with
    | none => .error .unaddressable
    | some addr =>
        if AddressFamily.of addr = AddressFamily.of remote.addr then
          .ok ({ socket.reset with tuple := some (⟨addr, localListen.port⟩, remote), state := .synSent },
            socket.wakers)
        else .error .unaddressable

def close (socket : TcpSocket) : TcpSocket × List ReadyKey :=
  match socket.state with
  | .listen | .synSent => socket.setState .closed
  | .synReceived | .established => socket.setState .finWait1
  | .closeWait => socket.setState .lastAck
  | _ => (socket, [])

def abort (socket : TcpSocket) : TcpSocket × List ReadyKey := socket.setState .closed

def sendSlice (socket : TcpSocket) (data : List UInt8) : Option (Nat × TcpSocket) :=
  if socket.maySend then
    let (size, tx) := socket.tx.enqueueSlice data
    some (size, { socket with tx := tx })
  else none

def recvSlice (socket : TcpSocket) (size : Nat) : Option (List UInt8 × TcpSocket) :=
  if socket.mayRecv then
    let (data, rx) := socket.rx.dequeueSlice size
    some (data, { socket with rx := rx })
  else none

def registerWaker (socket : TcpSocket) (direction : Direction) (key : ReadyKey) : TcpSocket :=
  match direction with
  | .read => { socket with rxWaker := some key }
  | .write => { socket with txWaker := some key }

end TcpSocket

/-! ## UDP -/

structure Datagram where
  payload : List UInt8
  endpoint : IpEndpoint
  localAddress : Option IpAddress
deriving DecidableEq, Repr

def udpPacketCapacity : Nat := 16

def udpPayloadBytes : Nat := 16 * 1024

/-- A transmit ring: the sizes of its slots, where a slot without a datagram is padding, and where
its payload starts and how long it is. -/
structure PacketRing where
  slots : List (Nat × Option Datagram)
  readAt : Nat
  length : Nat
deriving DecidableEq, Repr

namespace PacketRing

def empty : PacketRing := ⟨[], 0, 0⟩

def push (ring : PacketRing) (size : Nat) (datagram : Option Datagram) : PacketRing :=
  { ring with slots := ring.slots ++ [(size, datagram)], length := ring.length + size }

/-- `PacketBuffer::enqueue`; a datagram that wraps pads the end of the ring first. -/
def enqueue (ring : PacketRing) (datagram : Datagram) : Bool × PacketRing :=
  let size := datagram.payload.length
  if udpPayloadBytes < size ∨ udpPacketCapacity ≤ ring.slots.length then (false, ring)
  else
    let ring := if ring.length = 0 then { ring with readAt := 0 } else ring
    let window := udpPayloadBytes - ring.length
    let contiguous :=
      min window (udpPayloadBytes - (ring.readAt + ring.length) % udpPayloadBytes)
    if window < size then (false, ring)
    else if contiguous < size then
      if window - contiguous < size then (false, ring)
      else
        let padded := ring.push contiguous none
        if udpPacketCapacity ≤ padded.slots.length then (false, padded)
        else (true, padded.push size (some datagram))
    else (true, ring.push size (some datagram))

end PacketRing

/-- `rxPadding` records a padding slot that no received datagram follows. -/
structure UdpSocket where
  endpoint : IpListenEndpoint
  rx : List Datagram
  rxPadding : Bool
  tx : PacketRing
  rxWaker : Option ReadyKey
  txWaker : Option ReadyKey
deriving DecidableEq, Repr

inductive UdpBindError where
  | invalidState | unaddressable
deriving DecidableEq, Repr

inductive UdpSendError where
  | unaddressable | bufferFull
deriving DecidableEq, Repr

namespace UdpSocket

def new : UdpSocket where
  endpoint := TcpSocket.unbound
  rx := []
  rxPadding := false
  tx := .empty
  rxWaker := none
  txWaker := none

def bind (socket : UdpSocket) (endpoint : IpListenEndpoint) :
    Except UdpBindError (UdpSocket × List ReadyKey) :=
  if endpoint.port = 0 then .error .unaddressable
  else if socket.endpoint.port ≠ 0 then .error .invalidState
  else
    .ok ({ socket with endpoint := endpoint, rxWaker := none, txWaker := none },
      socket.rxWaker.toList ++ socket.txWaker.toList)

def sendSlice (socket : UdpSocket) (datagram : Datagram) : Except UdpSendError Unit × UdpSocket :=
  if socket.endpoint.port = 0 ∨ datagram.endpoint.addr.isUnspecified ∨ datagram.endpoint.port = 0 then
    (.error .unaddressable, socket)
  else
    match socket.tx.enqueue datagram with
    | (true, tx) => (.ok (), { socket with tx := tx })
    | (false, tx) => (.error .bufferFull, { socket with tx := tx })

def recv (socket : UdpSocket) : Option Datagram × UdpSocket :=
  match socket.rx with
  | [] => (none, { socket with rxPadding := false })
  | datagram :: rest => (some datagram, { socket with rx := rest })

def canRecv (socket : UdpSocket) : Bool := socket.rx != [] || socket.rxPadding

def registerWaker (socket : UdpSocket) (direction : Direction) (key : ReadyKey) : UdpSocket :=
  match direction with
  | .read => { socket with rxWaker := some key }
  | .write => { socket with txWaker := some key }

end UdpSocket

/-! ## The socket set -/

inductive NativeSocket where
  | tcp (socket : TcpSocket)
  | udp (socket : UdpSocket)
deriving DecidableEq, Repr

/-- The live sockets by handle. -/
abbrev SocketSet := ExtTreeMap Nat NativeSocket

namespace SocketSet

/-- The lowest handle not in use. -/
def freeHandle (sockets : SocketSet) : Nat :=
  ((List.range (sockets.size + 1)).find? fun handle => !sockets.contains handle).getD sockets.size

def add (sockets : SocketSet) (socket : NativeSocket) : Nat × SocketSet :=
  (sockets.freeHandle, sockets.insert sockets.freeHandle socket)

def tcp? (sockets : SocketSet) (handle : Nat) : Option TcpSocket :=
  match sockets[handle]? with
  | some (.tcp socket) => some socket
  | _ => none

def udp? (sockets : SocketSet) (handle : Nat) : Option UdpSocket :=
  match sockets[handle]? with
  | some (.udp socket) => some socket
  | _ => none

theorem freeHandle_not_mem (sockets : SocketSet) : sockets.freeHandle ∉ sockets := by
  unfold freeHandle
  cases hfind : (List.range (sockets.size + 1)).find? fun handle => !sockets.contains handle with
  | some handle =>
      have hfree := List.find?_some hfind
      simp only [Bool.not_eq_true', ← Bool.not_eq_true, ExtTreeMap.contains_iff_mem] at hfree
      exact hfree
  | none =>
      have hall : List.range (sockets.size + 1) ⊆ sockets.keys := by
        intro handle hmem
        have := List.find?_eq_none.1 hfind handle hmem
        simpa using this
      have hle := (List.nodup_range.subperm hall).length_le
      simp at hle

@[simp] theorem getElem?_freeHandle (sockets : SocketSet) : sockets[sockets.freeHandle]? = none := by
  simpa using sockets.freeHandle_not_mem

theorem getElem?_add (sockets : SocketSet) (socket : NativeSocket) (handle : Nat) :
    (sockets.add socket).2[handle]? =
      if handle = sockets.freeHandle then some socket else sockets[handle]? := by
  simp [add, ExtTreeMap.getElem?_insert, @eq_comm _ handle]

theorem mem_add_self (sockets : SocketSet) (socket : NativeSocket) :
    sockets.freeHandle ∈ (sockets.add socket).2 := by
  simp [add]

theorem erase_add (sockets : SocketSet) (socket : NativeSocket) :
    (sockets.add socket).2.erase sockets.freeHandle = sockets := by
  have hfree := sockets.getElem?_freeHandle
  ext handle value
  simp only [add, ExtTreeMap.getElem?_erase, ExtTreeMap.getElem?_insert]
  by_cases hhandle : sockets.freeHandle = handle
  · subst hhandle
    simp [hfree]
  · simp [hhandle]

theorem tcp?_eq_some {sockets : SocketSet} {handle : Nat} {socket : TcpSocket} :
    sockets.tcp? handle = some socket ↔ sockets[handle]? = some (.tcp socket) := by
  unfold tcp?
  split <;> simp_all

theorem udp?_eq_some {sockets : SocketSet} {handle : Nat} {socket : UdpSocket} :
    sockets.udp? handle = some socket ↔ sockets[handle]? = some (.udp socket) := by
  unfold udp?
  split <;> simp_all

end SocketSet

/-! ## What a poll may do to a socket -/

/-- One of smoltcp's polls keeps a socket's kind and buffers, and does not open a closed one. -/
def NativeSocket.Evolves : NativeSocket → NativeSocket → Prop
  | .tcp a, .tcp b =>
      b.rx.capacity = a.rx.capacity ∧ b.tx.capacity = a.tx.capacity ∧
        (a.state = .closed → b.state = .closed)
  | .udp _, .udp _ => True
  | _, _ => False

theorem NativeSocket.Evolves.refl (socket : NativeSocket) : socket.Evolves socket := by
  cases socket <;> simp [NativeSocket.Evolves]

/-- No socket is added or removed, and every socket evolves. -/
def SocketSet.Evolves (before after : SocketSet) : Prop :=
  ∀ handle : Nat, Option.Rel NativeSocket.Evolves before[handle]? after[handle]?

namespace SocketSet.Evolves

theorem refl (sockets : SocketSet) : sockets.Evolves sockets := by
  intro handle
  cases sockets[handle]? with
  | none => exact .none
  | some socket => exact .some (.refl socket)

theorem insert {sockets : SocketSet} {handle : Nat} {old socket : NativeSocket}
    (hold : sockets[handle]? = some old) (h : old.Evolves socket) :
    sockets.Evolves (sockets.insert handle socket) := by
  intro other
  rw [ExtTreeMap.getElem?_insert]
  by_cases hother : handle = other
  · subst hother
    simpa [hold] using Option.Rel.some h
  · simpa [hother] using refl sockets other

theorem tcp {before after : SocketSet} (h : before.Evolves after) {handle : Nat} {a : TcpSocket}
    (ha : before[handle]? = some (.tcp a)) :
    ∃ b, after[handle]? = some (.tcp b) ∧ (NativeSocket.tcp a).Evolves (.tcp b) := by
  have hrel := h handle
  rw [ha] at hrel
  generalize hb : after[handle]? = y at *
  cases hrel with
  | @some _ b hab =>
      cases b with
      | tcp b => exact ⟨b, rfl, hab⟩
      | udp b => exact hab.elim

end SocketSet.Evolves

end SmolNet
