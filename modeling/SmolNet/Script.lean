import SmolNet.Runs

/-!
# Scripted peers

Polls in which smoltcp processes what a peer is scripted to send: each poll moves the connection of
one socket in one way, where the machine lets it.  They are faithful and exclusive, whatever the
script says.  A small stack and its peer's segments serve the runs that show what can happen.
-/

namespace SmolNet

open Std

/-- What a segment does to a connection. -/
inductive Motion where
  | opens (localEndpoint remote : IpEndpoint)
  | advances (state : TcpState)
  | finishes (state : TcpState)
  | resets
deriving DecidableEq, Repr

/-- The connection of the socket undergoes the motion, if it can. -/
def TcpSocket.undergo (packet : Packet) (socket : TcpSocket) : Motion → TcpSocket
  | .opens localEndpoint remote =>
      if socket.state = .listen ∧ localEndpoint.port = socket.listenEndpoint.port ∧
          socket.listenEndpoint.addr.getD localEndpoint.addr = localEndpoint.addr then
        { socket with state := .synReceived, tuple := some (localEndpoint, remote) }
      else socket
  | .advances state =>
      if socket.state.advances state then { socket with state := state } else socket
  | .finishes state =>
      if socket.state.finishes state then { socket with state := state, finReceived := true } else socket
  | .resets =>
      match socket.tuple with
      | some (localEndpoint, remote) =>
          if Wire.resetKey packet = some (.ofEndpoints localEndpoint remote) ∧
              socket.state ≠ .closed ∧ socket.state ≠ .listen ∧
              (socket.state = .synReceived → socket.listenEndpoint.port = 0) then
            { socket with state := .closed, resetIn := some socket.state }
          else socket
      | none => socket

namespace TcpSocket

theorem undergo_receives (packet : Packet) (socket : TcpSocket) (motion : Motion) :
    socket.Receives packet (socket.undergo packet motion) := by
  cases motion with
  | opens localEndpoint remote =>
      simp only [undergo]
      split
      · rename_i h
        refine .opens h.1 rfl rfl h.2.1 (fun addr haddr => ?_) ⟨rfl, rfl, rfl, rfl⟩
        rw [haddr] at h
        exact h.2.2.symm
      · exact .keeps (.refl socket)
  | advances state =>
      simp only [undergo]
      split
      · rename_i h
        exact .advances h rfl ⟨rfl, rfl, rfl, rfl⟩
      · exact .keeps (.refl socket)
  | finishes state =>
      simp only [undergo]
      split
      · rename_i h
        exact .finishes h rfl rfl rfl rfl rfl
      · exact .keeps (.refl socket)
  | resets =>
      simp only [undergo]
      split
      · rename_i localEndpoint remote htuple
        split
        · rename_i h
          exact .resets ⟨h.2.1, h.2.2.1⟩ h.2.2.2 htuple h.1 rfl rfl rfl
        · exact .keeps (.refl socket)
      · exact .keeps (.refl socket)

theorem undergo_evolves (packet : Packet) (socket : TcpSocket) (motion : Motion) :
    (NativeSocket.tcp socket).Evolves (.tcp (socket.undergo packet motion)) := by
  cases motion with
  | opens localEndpoint remote =>
      simp only [undergo]
      split
      · rename_i h
        exact ⟨rfl, rfl, fun hclosed => by rw [h.1] at hclosed; cases hclosed⟩
      · exact .refl _
  | advances state =>
      simp only [undergo]
      split
      · rename_i h
        exact ⟨rfl, rfl, fun hclosed => by rw [hclosed] at h; cases h⟩
      · exact .refl _
  | finishes state =>
      simp only [undergo]
      split
      · rename_i h
        exact ⟨rfl, rfl, fun hclosed => by rw [hclosed] at h; cases h⟩
      · exact .refl _
  | resets =>
      simp only [undergo]
      split
      · split
        · exact ⟨rfl, rfl, fun _ => rfl⟩
        · exact .refl _
      · exact .refl _

/-- Only an opening takes a socket out of Listen. -/
theorem undergo_listen {packet : Packet} {socket : TcpSocket} {motion : Motion}
    (h : socket.state = .listen) (hleft : (socket.undergo packet motion).state ≠ .listen) :
    ∃ localEndpoint remote, motion = .opens localEndpoint remote ∧
      (socket.undergo packet motion).tuple = some (localEndpoint, remote) := by
  cases motion with
  | opens localEndpoint remote =>
      refine ⟨localEndpoint, remote, rfl, ?_⟩
      simp only [undergo] at hleft ⊢
      split at hleft
      · rename_i hopens
        rw [if_pos hopens]
      · exact (hleft h).elim
  | advances state => simp [undergo, h, TcpState.advances] at hleft
  | finishes state => simp [undergo, h, TcpState.finishes] at hleft
  | resets =>
      simp only [undergo] at hleft
      cases htuple : socket.tuple with
      | none => simp [htuple, h] at hleft
      | some tuple => simp [htuple, h] at hleft

end TcpSocket

/-! ## Polls -/

/-- Another live socket has the four-tuple that the motion would open. -/
def Motion.taken (motion : Motion) (handle : Nat) (sockets : SocketSet) : Bool :=
  match motion with
  | .opens localEndpoint remote => sockets.toList.any fun (other, socket) =>
      match socket with
      | .tcp socket =>
          other != handle && socket.state != .closed && socket.tuple == some (localEndpoint, remote)
      | .udp _ => false
  | _ => false

/-- The sockets after the motion of one of them. -/
def SocketSet.undergo (packet : Packet) (handle : Nat) (motion : Motion) (sockets : SocketSet) :
    SocketSet :=
  match sockets.tcp? handle with
  | some socket =>
      if motion.taken handle sockets then sockets
      else sockets.insert handle (.tcp (socket.undergo packet motion))
  | none => sockets

namespace SocketSet

variable (packet : Packet) (handle : Nat) (motion : Motion) (sockets : SocketSet)

/-- One socket undergoes the motion, or none does. -/
theorem undergo_cases :
    sockets.undergo packet handle motion = sockets ∨
      ∃ socket, sockets[handle]? = some (.tcp socket) ∧ motion.taken handle sockets = false ∧
        sockets.undergo packet handle motion =
          sockets.insert handle (.tcp (socket.undergo packet motion)) := by
  unfold undergo
  cases hsocket : sockets.tcp? handle with
  | none => exact .inl rfl
  | some socket =>
      have hfound : sockets[handle]? = some (.tcp socket) := by
        unfold tcp? at hsocket
        split at hsocket
        · rename_i heq
          rw [heq, Option.some.inj hsocket]
        · cases hsocket
      dsimp only
      split
      · exact .inl rfl
      · rename_i htaken
        exact .inr ⟨socket, hfound, by simpa using htaken, rfl⟩

theorem undergo_evolves : sockets.Evolves (sockets.undergo packet handle motion) := by
  rcases undergo_cases packet handle motion sockets with h | ⟨socket, hsocket, -, h⟩
  · rw [h]
    exact .refl sockets
  · rw [h]
    exact .insert hsocket (socket.undergo_evolves packet motion)

theorem undergo_receives : sockets.Receives packet (sockets.undergo packet handle motion) := by
  rcases undergo_cases packet handle motion sockets with h | ⟨socket, hsocket, -, h⟩
  · rw [h]
    exact sockets.receives_refl packet
  · intro other a b ha hb
    rw [h, ExtTreeMap.getElem?_insert] at hb
    split at hb
    · rename_i hother
      obtain rfl := Std.compare_eq_iff_eq.1 hother
      rw [hsocket] at ha
      cases ha
      cases hb
      exact socket.undergo_receives packet motion
    · rw [ha] at hb
      cases hb
      exact .keeps (.refl a)

theorem undergo_opensApart : sockets.OpensApart (sockets.undergo packet handle motion) := by
  rcases undergo_cases packet handle motion sockets with h | ⟨socket, hsocket, htaken, h⟩
  · rw [h]
    exact sockets.opensApart_refl
  · intro opened a b ha hb hlisten hleft other c hother hc hlive
    rw [h, ExtTreeMap.getElem?_insert] at hb
    split at hb
    · rename_i hopened
      obtain rfl := Std.compare_eq_iff_eq.1 hopened
      rw [hsocket] at ha
      cases ha
      cases hb
      obtain ⟨localEndpoint, remote, rfl, htuple⟩ := TcpSocket.undergo_listen hlisten hleft
      rw [h, ExtTreeMap.getElem?_insert, if_neg (by rw [Std.compare_eq_iff_eq]; exact hother.symm)] at hc
      rw [htuple]
      intro hsame
      simp only [Motion.taken, List.any_eq_false] at htaken
      have hmem : (other, NativeSocket.tcp c) ∈ sockets.toList := by
        simpa [ExtTreeMap.mem_toList_iff_getElem?_eq_some] using hc
      have hfree := htaken _ hmem
      simp [hother, hlive, hsame] at hfree
    · rw [ha] at hb
      cases hb
      exact (hleft hlisten).elim

end SocketSet

/-- smoltcp processes the packet by the motion of one socket, and fires some wakers. -/
def IngressPoll.scripted (handle : Nat) (motion : Motion) (reply : Option Packet)
    (wakes : List ReadyKey) : IngressPoll where
  respond packet sockets := ⟨true, reply, sockets.undergo packet handle motion, wakes⟩
  lawful packet sockets := sockets.undergo_evolves packet handle motion

theorem IngressPoll.scripted_faithful (handle : Nat) (motion : Motion) (reply : Option Packet)
    (wakes : List ReadyKey) : (IngressPoll.scripted handle motion reply wakes).Faithful :=
  fun packet sockets => sockets.undergo_receives packet handle motion

theorem IngressPoll.scripted_exclusive (handle : Nat) (motion : Motion) (reply : Option Packet)
    (wakes : List ReadyKey) : (IngressPoll.scripted handle motion reply wakes).Exclusive :=
  fun packet sockets => sockets.undergo_opensApart packet handle motion

/-! ## Runs of a script -/

namespace NativeStack

theorem Reachable.run {s : NativeStack} (h : Reachable s) (calls : List (Call × World)) :
    Reachable (s.run calls).2 := by
  induction calls generalizing s with
  | nil => exact h
  | cons first rest ih => exact ih (.call first.1 first.2 h)

/-- A run is reached under a condition that its calls meet wherever they are made. -/
theorem ReachableBy.run {C : NativeStack → Call → World → Prop} {s : NativeStack} (h : ReachableBy C s)
    {calls : List (Call × World)} (hcalls : ∀ first ∈ calls, ∀ t, C t first.1 first.2) :
    ReachableBy C (s.run calls).2 := by
  induction calls generalizing s with
  | nil => exact h
  | cons first rest ih =>
      exact ih (.call first.1 first.2 h (hcalls first (by simp) s)) fun other hother =>
        hcalls other (by simp [hother])

end NativeStack

namespace Script

def limits : Limits := ⟨65575, 32, 32, 128, 128, 16⟩

/-- The stack's address, `fd00::1`, and its peer's, `fd00::2`. -/
def host : List UInt8 := [0xfd, 0, 0, 0, 0, 0, 0, 0, 0, 0, 0, 0, 0, 0, 0, 1]

def peer : List UInt8 := [0xfd, 0, 0, 0, 0, 0, 0, 0, 0, 0, 0, 0, 0, 0, 0, 2]

def config : StackConfig := ⟨1500, [⟨host, 64⟩], [], none, {}⟩

def stack : NativeStack := (NativeStack.new limits config 1 1).toOption.get (by decide +kernel)

theorem eq_ok_get {ε α : Type} (result : Except ε α) (h : result.toOption.isSome = true) :
    result = .ok (result.toOption.get h) := by
  cases result with
  | ok a => rfl
  | error e => cases h

theorem stack_new : NativeStack.new limits config 1 1 = .ok stack := eq_ok_get _ _

theorem reachable_stack : NativeStack.Reachable stack := .new stack_new

def endpoint (octets : List UInt8) (port : Nat) : IpEndpoint :=
  ⟨.ipv6 (BitVec.ofNat 128 (bigEndian octets)), port⟩

/-- A TCP segment from a port of the peer to one of the stack, without payload. -/
def segment (source destination : Nat) (flags : UInt8) : Packet :=
  [0x60, 0, 0, 0, 0, 20, 6, 64] ++ peer ++ host ++ toOctets 2 source ++ toOctets 2 destination ++
    [0, 0, 0, 1, 0, 0, 0, 0, 0x50, flags, 0xff, 0xff, 0, 0, 0, 0]

def syn : UInt8 := 2
def rst : UInt8 := 4
def ack : UInt8 := 16

/-- A call in which the peer's segment moves one socket. -/
def receives (source destination : Nat) (flags : UInt8) (handle : Nat) (motion : Motion) :
    Call × World :=
  (.ingress (segment source destination flags) 0,
    { ingressPolls := [.scripted handle motion none []] })

/-- The peer opens a connection from its port `source` to the socket `handle`, which listens. -/
def handshake (source destination handle : Nat) : List (Call × World) :=
  [receives source destination syn handle (.opens (endpoint host destination) (endpoint peer source)),
    receives source destination ack handle (.advances .established)]

/-- The first socket listens on port 80. -/
def listen : List (Call × World) :=
  [(.tcpOpen .inet6 1024 1024, {}), (.tcpBind ⟨1, 1⟩ ⟨host, 80, 0⟩, {}), (.tcpListen ⟨1, 1⟩ 2 0, {})]

/-- The peer's connection waits to be accepted, as the second socket. -/
def waiting : NativeStack := (stack.run (listen ++ handshake 5000 80 0)).2

end Script

end SmolNet
