import SmolNet.ReadyQueue

/-!
# The packet device

The bounded queues between the stack and its link.  Packets the link has handed in wait in
`receive` for smoltcp to take them, packets smoltcp emits wait in `transmit` for a call to hand
them out, within the link's egress credit when it has set one.
-/

namespace SmolNet

/-- Egress the link has granted and the stack has not yet handed out. -/
structure EgressCredit where
  packets : Nat
  bytes : Nat
deriving DecidableEq, Repr

/-- History variables: what has passed through the queues.  No function of the stack reads them. -/
structure DeviceHistory where
  taken : List Packet := []
  emitted : List Packet := []
  discardedReceive : List Packet := []
  discardedTransmit : List Packet := []
deriving DecidableEq, Repr

structure BeamDevice where
  mtu : Nat
  receive : List Packet
  receiveLimit : Nat
  transmit : List Packet
  transmitBytes : Nat
  transmitLimit : Nat
  credit : Option EgressCredit
  history : DeviceHistory
deriving DecidableEq, Repr

def byteCount (packets : List Packet) : Nat := (packets.map List.length).sum

namespace BeamDevice

def new (mtu receiveLimit : Nat) (credit : Option EgressCredit) : BeamDevice where
  mtu := mtu
  receive := []
  receiveLimit := receiveLimit
  transmit := []
  transmitBytes := 0
  transmitLimit := 0
  credit := credit
  history := {}

/-- Adds granted egress; `none` when egress is unlimited. -/
def grantEgress (device : BeamDevice) (packets bytes : Nat) : Option BeamDevice :=
  device.credit.map fun credit =>
    { device with
      credit := some ⟨saturatingAdd credit.packets packets, saturatingAdd credit.bytes bytes⟩ }

def beginCall (device : BeamDevice) (transmitLimit : Nat) : BeamDevice :=
  { device with transmitLimit := transmitLimit }

def receiveFits (device : BeamDevice) (packets : Nat) : Bool :=
  device.receive.length + packets ≤ device.receiveLimit

def enqueueReceiveBatch (device : BeamDevice) (packets : List Packet) : Option BeamDevice :=
  if device.receiveFits packets.length then
    some { device with receive := device.receive ++ packets }
  else none

/-- `take_transmit`'s loop: how many packets and bytes may still go, and the packets in order. -/
def takeLoop (packetLimit byteLimit : Nat) :
    List Packet → CallBudget → List Packet × List Packet × CallBudget
  | [], budget => ([], [], budget)
  | packet :: rest, budget =>
      if packetLimit = 0 ∨ byteLimit < packet.length then ([], packet :: rest, budget)
      else
        match budget.checkpoint with
        | (false, budget) => ([], packet :: rest, budget)
        | (true, budget) =>
            let (taken, left, budget) :=
              takeLoop (packetLimit - 1) (byteLimit - packet.length) rest budget
            (packet :: taken, left, budget)

def takeTransmit (device : BeamDevice) (packetLimit byteLimit : Nat) (budget : CallBudget) :
    List Packet × BeamDevice × CallBudget :=
  let limits :=
    match device.credit with
    | some credit => (min packetLimit credit.packets, min byteLimit credit.bytes)
    | none => (packetLimit, byteLimit)
  let (packets, left, budget) := takeLoop limits.1 limits.2 device.transmit budget
  (packets,
    { device with
      transmit := left
      transmitBytes := device.transmitBytes - byteCount packets
      credit := device.credit.map fun credit =>
        ⟨credit.packets - packets.length, credit.bytes - byteCount packets⟩ },
    budget)

/-- Whether the transmit queue may grow within the remaining credit. -/
def transmitCreditAvailable (device : BeamDevice) : Bool :=
  match device.credit with
  | none => true
  | some credit => device.transmit.length < credit.packets && device.transmitBytes < credit.bytes

/-- Whether the next queued packet may be handed to the link now. -/
def transmitReady (device : BeamDevice) : Bool :=
  match device.transmit with
  | [] => false
  | packet :: _ =>
      match device.credit with
      | none => true
      | some credit => 0 < credit.packets && packet.length ≤ credit.bytes

def hasReceive (device : BeamDevice) : Bool := device.receive != []

def canReceive (device : BeamDevice) : Bool := device.transmit.length < device.transmitLimit

/-- Whether `Device::transmit` gives a token. -/
def mayTransmit (device : BeamDevice) : Bool :=
  device.canReceive && device.transmitCreditAvailable

/-- A consumed transmit token. -/
def emit (device : BeamDevice) (packet : Packet) : BeamDevice :=
  { device with
    transmit := device.transmit ++ [packet]
    transmitBytes := device.transmitBytes + packet.length
    history := { device.history with emitted := device.history.emitted ++ [packet] } }

def emitAll (device : BeamDevice) (packet : Option Packet) : BeamDevice :=
  packet.elim device device.emit

/-- smoltcp has taken `packet`. -/
def noteTaken (device : BeamDevice) (packet : Packet) : BeamDevice :=
  { device with history := { device.history with taken := device.history.taken ++ [packet] } }

/-- Drops one queued packet; `none` when both queues are empty. -/
def discardOne (device : BeamDevice) : Option BeamDevice :=
  match device.receive, device.transmit with
  | packet :: rest, _ =>
      some { device with
        receive := rest
        history := { device.history with
          discardedReceive := device.history.discardedReceive ++ [packet] } }
  | [], packet :: rest =>
      some { device with
        transmit := rest
        transmitBytes := device.transmitBytes - packet.length
        history := { device.history with
          discardedTransmit := device.history.discardedTransmit ++ [packet] } }
  | [], [] => none

theorem takeLoop_append (packetLimit byteLimit : Nat) (transmit : List Packet) (budget : CallBudget) :
    (takeLoop packetLimit byteLimit transmit budget).1 ++
      (takeLoop packetLimit byteLimit transmit budget).2.1 = transmit := by
  induction transmit generalizing packetLimit byteLimit budget with
  | nil => rfl
  | cons packet rest ih =>
      unfold takeLoop
      split
      · rfl
      · split
        · rfl
        · simp [ih]

theorem takeLoop_length_le (packetLimit byteLimit : Nat) (transmit : List Packet)
    (budget : CallBudget) :
    (takeLoop packetLimit byteLimit transmit budget).1.length ≤ packetLimit := by
  induction transmit generalizing packetLimit byteLimit budget with
  | nil => exact Nat.zero_le _
  | cons packet rest ih =>
      unfold takeLoop
      split
      · exact Nat.zero_le _
      · split
        · exact Nat.zero_le _
        · rename_i hlimit _ budget' _
          have := ih (packetLimit - 1) (byteLimit - packet.length) budget'
          simp only [List.length_cons]
          omega

theorem takeLoop_bytes_le (packetLimit byteLimit : Nat) (transmit : List Packet)
    (budget : CallBudget) :
    byteCount (takeLoop packetLimit byteLimit transmit budget).1 ≤ byteLimit := by
  induction transmit generalizing packetLimit byteLimit budget with
  | nil => exact Nat.zero_le _
  | cons packet rest ih =>
      unfold takeLoop
      split
      · exact Nat.zero_le _
      · split
        · exact Nat.zero_le _
        · rename_i hlimit _ budget' _
          have := ih (packetLimit - 1) (byteLimit - packet.length) budget'
          simp only [byteCount, List.map_cons, List.sum_cons] at this ⊢
          omega

end BeamDevice

end SmolNet
