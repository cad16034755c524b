import SmolNet.NativeSocket
import SmolNet.Wire

/-!
# smoltcp's TCP machine

What smoltcp's own code does to a TCP socket: `Receives` for a segment it processes, `Expires` for
the timers of an egress poll.  Nothing in the stack depends on these; they are what properties of
whole connections assume of the polls, beside `Evolves`, which is assumed of all of them.
-/

namespace SmolNet

/-- A segment without FIN or RST moves a socket to another state. -/
def TcpState.advances : TcpState → TcpState → Bool
  | .synSent, .established | .synSent, .synReceived | .synReceived, .established
  | .finWait1, .finWait2 | .closing, .timeWait => true
  | _, _ => false

/-- The peer's FIN moves a socket to another state. -/
def TcpState.finishes : TcpState → TcpState → Bool
  | .synReceived, .closeWait | .established, .closeWait | .finWait1, .closing
  | .finWait1, .timeWait | .finWait2, .timeWait => true
  | _, _ => false

namespace TcpSocket

/-- What has happened to the connection so far stays. -/
structure SameEnd (a b : TcpSocket) : Prop where
  listenEndpoint : b.listenEndpoint = a.listenEndpoint
  finReceived : b.finReceived = a.finReceived
  resetIn : b.resetIn = a.resetIn
  timeoutAbort : b.timeoutAbort = a.timeoutAbort

theorem SameEnd.refl (socket : TcpSocket) : socket.SameEnd socket := ⟨rfl, rfl, rfl, rfl⟩

/-- The socket's connection is the same; a closed socket may have forgotten its endpoints. -/
structure SameConnection (a b : TcpSocket) : Prop extends SameEnd a b where
  state : b.state = a.state
  tuple : a.state ≠ .closed → b.tuple = a.tuple

theorem SameConnection.refl (socket : TcpSocket) : socket.SameConnection socket :=
  ⟨.refl socket, rfl, fun _ => rfl⟩

/-- What processing a packet does to a socket. -/
inductive Receives (packet : Packet) (a b : TcpSocket) : Prop
  | keeps (h : a.SameConnection b)
  | opens {localEndpoint remote : IpEndpoint} (hlisten : a.state = .listen)
      (hstate : b.state = .synReceived) (htuple : b.tuple = some (localEndpoint, remote))
      (hport : localEndpoint.port = a.listenEndpoint.port)
      (haddr : ∀ addr, a.listenEndpoint.addr = some addr → localEndpoint.addr = addr)
      (h : a.SameEnd b)
  | relistens (hstate : a.state = .synReceived) (hport : a.listenEndpoint.port ≠ 0)
      (hlisten : b.state = .listen) (htuple : b.tuple = none) (h : a.SameEnd b)
  | advances (hstate : a.state.advances b.state = true) (htuple : b.tuple = a.tuple) (h : a.SameEnd b)
  | finishes (hstate : a.state.finishes b.state = true) (htuple : b.tuple = a.tuple)
      (hfin : b.finReceived = true) (hlisten : b.listenEndpoint = a.listenEndpoint)
      (hreset : b.resetIn = a.resetIn) (habort : b.timeoutAbort = a.timeoutAbort)
  | acknowledged (hstate : a.state = .lastAck) (hclosed : b.state = .closed) (h : a.SameEnd b)
  | resets {localEndpoint remote : IpEndpoint} (hstate : a.state ≠ .closed ∧ a.state ≠ .listen)
      (hactive : a.state = .synReceived → a.listenEndpoint.port = 0)
      (htuple : a.tuple = some (localEndpoint, remote))
      (hkey : Wire.resetKey packet = some (.ofEndpoints localEndpoint remote))
      (hclosed : b.state = .closed) (hreset : b.resetIn = some a.state)
      (hfin : b.finReceived = a.finReceived)

/-- What the timers of an egress poll do to a socket. -/
inductive Expires (a b : TcpSocket) : Prop
  | keeps (h : a.SameConnection b)
  | timesOut (hstate : a.state ≠ .closed ∧ a.state ≠ .listen) (hclosed : b.state = .closed)
      (habort : b.timeoutAbort = true) (hfin : b.finReceived = a.finReceived)
      (hreset : b.resetIn = a.resetIn)
  | lapses (hstate : a.state = .timeWait) (hclosed : b.state = .closed)
      (hfin : b.finReceived = a.finReceived) (hreset : b.resetIn = a.resetIn)

end TcpSocket

namespace SocketSet

/-- Processing a packet moves every socket as the machine says. -/
def Receives (packet : Packet) (before after : SocketSet) : Prop :=
  ∀ (handle : Nat) (a b : TcpSocket), before[handle]? = some (.tcp a) →
    after[handle]? = some (.tcp b) → a.Receives packet b

def Expires (before after : SocketSet) : Prop :=
  ∀ (handle : Nat) (a b : TcpSocket), before[handle]? = some (.tcp a) →
    after[handle]? = some (.tcp b) → a.Expires b

/-- A socket that leaves Listen takes a four-tuple that no other live socket has, and at most one
does. -/
def OpensApart (before after : SocketSet) : Prop :=
  ∀ (handle : Nat) (a b : TcpSocket), before[handle]? = some (.tcp a) →
    after[handle]? = some (.tcp b) → a.state = .listen → b.state ≠ .listen →
    ∀ (other : Nat) (c : TcpSocket), other ≠ handle → after[other]? = some (.tcp c) →
      c.state ≠ .closed → c.tuple ≠ b.tuple

theorem receives_refl (packet : Packet) (sockets : SocketSet) : sockets.Receives packet sockets := by
  intro handle a b ha hb
  rw [ha] at hb
  cases hb
  exact .keeps (.refl a)

theorem expires_refl (sockets : SocketSet) : sockets.Expires sockets := by
  intro handle a b ha hb
  rw [ha] at hb
  cases hb
  exact .keeps (.refl a)

theorem opensApart_refl (sockets : SocketSet) : sockets.OpensApart sockets := by
  intro handle a b ha hb hlisten hleft
  rw [ha] at hb
  cases hb
  exact (hleft hlisten).elim

end SocketSet

end SmolNet
