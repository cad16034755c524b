import SmolNet.Device
import SmolNet.TcpMachine

/-!
# The world of a call

A native call consults things the stack does not control: smoltcp's own protocol machine, the
clock, the caller's reductions, the lock of the ready set, the other stacks that draw identities
from the same counters, and the processes it sends messages to.  A `World` holds their answers for
one call, in the order they are asked.  smoltcp's answers are functions of the sockets it is given,
and carry the proof that they only evolve them.  A world is `Faithful` if its polls move TCP sockets
as smoltcp's machine does, and `Exclusive` if no segment of a live connection opens another one.
-/

namespace SmolNet

/-- What `poll_ingress_single` does with a packet: whether it asks the device for it at all, the
reply it emits, and the sockets and fired wakers it leaves. -/
structure IngressOutcome where
  asks : Bool
  reply : Option Packet
  sockets : SocketSet
  wakes : List ReadyKey

structure IngressPoll where
  respond : Packet → SocketSet → IngressOutcome
  lawful : ∀ (packet : Packet) (sockets : SocketSet),
    sockets.Evolves (respond packet sockets).sockets

/-- smoltcp takes the packet and does nothing else. -/
def IngressPoll.idle : IngressPoll where
  respond _ sockets := ⟨true, none, sockets, []⟩
  lawful _ sockets := .refl sockets

/-- What `poll_egress` leaves, and whether it reports a socket state change. -/
structure EgressOutcome where
  sockets : SocketSet
  wakes : List ReadyKey
  changed : Bool

/-- `poll_egress` as a dialogue with the device: it asks for transmit tokens, consumes some of
those it gets, and goes on differently when one is denied. -/
inductive EgressPoll where
  | done (finish : SocketSet → EgressOutcome)
      (lawful : ∀ sockets : SocketSet, sockets.Evolves (finish sockets).sockets)
  | transmit (packet : Option Packet) (granted denied : EgressPoll)

def EgressPoll.idle : EgressPoll :=
  .done (fun sockets => ⟨sockets, [], false⟩) fun sockets => .refl sockets

/-- The dialogue with a device, up to its end. -/
def EgressPoll.run : EgressPoll → BeamDevice → SocketSet → BeamDevice × EgressOutcome
  | .done finish _, device, sockets => (device, finish sockets)
  | .transmit packet granted denied, device, sockets =>
      if device.mayTransmit then granted.run (device.emitAll packet) sockets
      else denied.run device sockets

theorem EgressPoll.run_evolves (poll : EgressPoll) (device : BeamDevice) (sockets : SocketSet) :
    sockets.Evolves (poll.run device sockets).2.sockets := by
  induction poll generalizing device with
  | done finish lawful => exact lawful sockets
  | transmit packet granted denied ihGranted ihDenied =>
      unfold EgressPoll.run
      split
      · exact ihGranted _
      · exact ihDenied _

/-- The answers for one call; a list that runs out gives its default from then on. -/
structure World where
  budget : List Bool := []
  ingressPolls : List IngressPoll := []
  egressPolls : List EgressPoll := []
  pollAts : List (Option Instant) := []
  locks : List Bool := []
  skippedIds : List Nat := []
  deliveries : List Bool := []
  sourceAddress : IpAddress → Option IpAddress := fun _ => none

/-! ## What may be assumed of smoltcp -/

def IngressPoll.Faithful (poll : IngressPoll) : Prop :=
  ∀ (packet : Packet) (sockets : SocketSet), sockets.Receives packet (poll.respond packet sockets).sockets

def IngressPoll.Exclusive (poll : IngressPoll) : Prop :=
  ∀ (packet : Packet) (sockets : SocketSet), sockets.OpensApart (poll.respond packet sockets).sockets

def EgressPoll.Faithful : EgressPoll → Prop
  | .done finish _ => ∀ sockets : SocketSet, sockets.Expires (finish sockets).sockets
  | .transmit _ granted denied => granted.Faithful ∧ denied.Faithful

theorem EgressPoll.Faithful.run {poll : EgressPoll} (h : poll.Faithful) (device : BeamDevice)
    (sockets : SocketSet) : sockets.Expires (poll.run device sockets).2.sockets := by
  induction poll generalizing device with
  | done finish lawful => exact h sockets
  | transmit packet granted denied ihGranted ihDenied =>
      unfold EgressPoll.run
      split
      · exact ihGranted h.1 _
      · exact ihDenied h.2 _

namespace World

structure Faithful (world : World) : Prop where
  ingress : ∀ poll ∈ world.ingressPolls, poll.Faithful
  egress : ∀ poll ∈ world.egressPolls, poll.Faithful

def Exclusive (world : World) : Prop := ∀ poll ∈ world.ingressPolls, poll.Exclusive

/-- The polls of `later` are the last ones of `world`. -/
structure Continues (world later : World) : Prop where
  ingress : later.ingressPolls <:+ world.ingressPolls
  egress : later.egressPolls <:+ world.egressPolls

variable {world later : World}

/-- Answers to other questions than polls have been used up. -/
theorem Continues.of_polls (hingress : later.ingressPolls = world.ingressPolls)
    (hegress : later.egressPolls = world.egressPolls) : world.Continues later := by
  refine ⟨?_, ?_⟩
  · rw [hingress]
  · rw [hegress]

theorem Continues.trans {last : World} (h : world.Continues later) (h' : later.Continues last) :
    world.Continues last := ⟨h'.ingress.trans h.ingress, h'.egress.trans h.egress⟩

theorem Faithful.continues (h : world.Faithful) (hlater : world.Continues later) : later.Faithful :=
  ⟨fun poll hpoll => h.ingress poll (hlater.ingress.subset hpoll),
    fun poll hpoll => h.egress poll (hlater.egress.subset hpoll)⟩

theorem Exclusive.continues (h : world.Exclusive) (hlater : world.Continues later) :
    later.Exclusive := fun poll hpoll => h poll (hlater.ingress.subset hpoll)

/-- The next poll is faithful; one that nobody answers does nothing. -/
theorem Faithful.ingressPoll (h : world.Faithful) : (world.ingressPolls.headD .idle).Faithful := by
  cases hpolls : world.ingressPolls with
  | nil => exact fun packet sockets => sockets.receives_refl packet
  | cons poll rest => exact h.ingress poll (by simp [hpolls])

theorem Exclusive.ingressPoll (h : world.Exclusive) : (world.ingressPolls.headD .idle).Exclusive := by
  cases hpolls : world.ingressPolls with
  | nil => exact fun _ sockets => sockets.opensApart_refl
  | cons poll rest => exact h poll (by simp [hpolls])

theorem Faithful.egressPoll (h : world.Faithful) : (world.egressPolls.headD .idle).Faithful := by
  cases hpolls : world.egressPolls with
  | nil => exact fun sockets => sockets.expires_refl
  | cons poll rest => exact h.egress poll (by simp [hpolls])

end World

end SmolNet
