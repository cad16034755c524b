import SmolNet.Device
import SmolNet.Fifo
import SmolNet.World

/-!
# What a drive does to the device

A drive changes the device in small ways: it takes packets from the receive queue or past it, lets
smoltcp emit packets, and hands queued packets out within the credit.  `Span` says what any sequence
of them amounts to.
-/

namespace SmolNet

open Fifo

theorem byteCount_append (a b : List Packet) : byteCount (a ++ b) = byteCount a + byteCount b := by
  simp [byteCount]

theorem byteCount_flow {before added removed after : List Packet}
    (h : Flow before added removed after) :
    byteCount removed + byteCount after = byteCount before + byteCount added :=
  h.sum_map List.length

/-- The credit left once `packets` have been handed out. -/
def EgressCredit.spend (credit : EgressCredit) (packets : List Packet) : EgressCredit :=
  ⟨credit.packets - packets.length, credit.bytes - byteCount packets⟩

/-- The credit covers handing out `packets`. -/
def EgressCredit.Covers (credit : EgressCredit) (packets : List Packet) : Prop :=
  packets.length ≤ credit.packets ∧ byteCount packets ≤ credit.bytes

namespace EgressCredit

@[simp] theorem map_spend_nil (credit : Option EgressCredit) : credit.map (·.spend []) = credit := by
  cases credit <;> rfl

theorem spend_append (credit : EgressCredit) (a b : List Packet) :
    credit.spend (a ++ b) = (credit.spend a).spend b := by
  simp [spend, byteCount_append, Nat.sub_add_eq]

@[simp] theorem covers_nil (credit : EgressCredit) : credit.Covers [] :=
  ⟨Nat.zero_le _, Nat.zero_le _⟩

theorem Covers.append {credit : EgressCredit} {a b : List Packet} (h : credit.Covers a)
    (h' : (credit.spend a).Covers b) : credit.Covers (a ++ b) := by
  obtain ⟨hpackets, hbytes⟩ := h
  obtain ⟨hpackets', hbytes'⟩ := h'
  simp only [spend] at hpackets' hbytes'
  constructor
  · rw [List.length_append]
    omega
  · rw [byteCount_append]
    omega

end EgressCredit

namespace BeamDevice

/-- The device has been given `input` to offer to smoltcp and has handed out `output`. -/
structure Span (d : BeamDevice) (input output : List Packet) (d' : BeamDevice) : Prop where
  ingress : ∃ taken, d'.history.taken = d.history.taken ++ taken ∧
    Flow d.receive input taken d'.receive
  egress : ∃ emitted, d'.history.emitted = d.history.emitted ++ emitted ∧
    Flow d.transmit emitted output d'.transmit
  credit : d'.credit = d.credit.map (·.spend output)
  covers : ∀ credit, d.credit = some credit → credit.Covers output
  bytes : d.transmitBytes = byteCount d.transmit → d'.transmitBytes = byteCount d'.transmit
  room : d.transmit.length ≤ d.transmitLimit → d'.transmit.length ≤ d'.transmitLimit
  transmitLimit : d'.transmitLimit = d.transmitLimit
  receiveLimit : d'.receiveLimit = d.receiveLimit
  discardedReceive : d'.history.discardedReceive = d.history.discardedReceive
  discardedTransmit : d'.history.discardedTransmit = d.history.discardedTransmit

namespace Span

theorem refl (d : BeamDevice) : Span d [] [] d where
  ingress := ⟨[], by simp, .refl _⟩
  egress := ⟨[], by simp, .refl _⟩
  credit := (EgressCredit.map_spend_nil _).symm
  covers credit _ := credit.covers_nil
  bytes h := h
  room h := h
  transmitLimit := rfl
  receiveLimit := rfl
  discardedReceive := rfl
  discardedTransmit := rfl

theorem trans {d d' d'' : BeamDevice} {input input' output output' : List Packet}
    (h : Span d input output d') (h' : Span d' input' output' d'') :
    Span d (input ++ input') (output ++ output') d'' where
  ingress := by
    obtain ⟨taken, htaken, hflow⟩ := h.ingress
    obtain ⟨taken', htaken', hflow'⟩ := h'.ingress
    exact ⟨taken ++ taken', by rw [htaken', htaken, List.append_assoc], hflow.trans hflow'⟩
  egress := by
    obtain ⟨emitted, hemitted, hflow⟩ := h.egress
    obtain ⟨emitted', hemitted', hflow'⟩ := h'.egress
    exact ⟨emitted ++ emitted', by rw [hemitted', hemitted, List.append_assoc], hflow.trans hflow'⟩
  credit := by
    rw [h'.credit, h.credit]
    cases d.credit with
    | none => rfl
    | some credit => simp [EgressCredit.spend_append]
  covers credit hcredit := by
    refine (h.covers credit hcredit).append (h'.covers _ ?_)
    rw [h.credit, hcredit]
    rfl
  bytes hbytes := h'.bytes (h.bytes hbytes)
  room hroom := h'.room (h.room hroom)
  transmitLimit := h'.transmitLimit.trans h.transmitLimit
  receiveLimit := h'.receiveLimit.trans h.receiveLimit
  discardedReceive := h'.discardedReceive.trans h.discardedReceive
  discardedTransmit := h'.discardedTransmit.trans h.discardedTransmit

end Span

/-! ## The changes a drive makes -/

/-- smoltcp emits a packet into a queue with room. -/
theorem span_emitAll {d : BeamDevice} (hroom : d.canReceive = true) (packet : Option Packet) :
    Span d [] [] (d.emitAll packet) := by
  cases packet with
  | none => exact .refl d
  | some packet =>
      simp only [canReceive, decide_eq_true_eq] at hroom
      refine ⟨⟨[], by simp [emitAll, emit], .refl _⟩, ⟨[packet], rfl, .push _ _⟩,
        (EgressCredit.map_spend_nil _).symm, fun credit _ => credit.covers_nil, ?_, ?_, rfl, rfl, rfl, rfl⟩
      · intro hbytes
        simp [emitAll, emit, hbytes, byteCount]
      · intro _
        simp only [emitAll, emit, Option.elim_some, List.length_append, List.length_singleton]
        omega

/-- smoltcp takes the oldest packet of the receive queue. -/
theorem span_takeHeld {d : BeamDevice} {packet : Packet} {rest : List Packet}
    (h : d.receive = packet :: rest) :
    Span d [] [] ({ d with receive := rest }.noteTaken packet) := by
  refine ⟨⟨[packet], rfl, ?_⟩, ⟨[], by simp [noteTaken], .refl _⟩, (EgressCredit.map_spend_nil _).symm,
    fun credit _ => credit.covers_nil, fun h => h, fun h => h, rfl, rfl, rfl, rfl⟩
  rw [h]
  exact .pop [packet] rest

/-- smoltcp takes a packet of the call's own, past an empty receive queue. -/
theorem span_takeOffered {d : BeamDevice} (h : d.receive = []) (packet : Packet) :
    Span d [packet] [] (d.noteTaken packet) := by
  refine ⟨⟨[packet], rfl, ?_⟩, ⟨[], by simp [noteTaken], .refl _⟩, (EgressCredit.map_spend_nil _).symm,
    fun credit _ => credit.covers_nil, fun h => h, fun h => h, rfl, rfl, rfl, rfl⟩
  simp only [noteTaken, h]
  exact .through [packet]

theorem span_enqueueReceiveBatch {d d' : BeamDevice} {packets : List Packet}
    (h : d.enqueueReceiveBatch packets = some d') : Span d packets [] d' := by
  unfold enqueueReceiveBatch at h
  split at h
  · obtain rfl := Option.some.inj h
    exact ⟨⟨[], by simp, .push _ _⟩, ⟨[], by simp, .refl _⟩, (EgressCredit.map_spend_nil _).symm,
      fun credit _ => credit.covers_nil, fun h => h, fun h => h, rfl, rfl, rfl, rfl⟩
  · cases h

theorem flow_takeTransmit (d : BeamDevice) (packetLimit byteLimit : Nat) (budget : CallBudget) :
    Fifo.Flow d.transmit [] (d.takeTransmit packetLimit byteLimit budget).1
      (d.takeTransmit packetLimit byteLimit budget).2.1.transmit := by
  simpa [Fifo.Flow, takeTransmit] using takeLoop_append _ _ d.transmit budget

/-- Handing out: what goes is the front of the queue, and the credit covers it. -/
theorem span_takeTransmit (d : BeamDevice) (packetLimit byteLimit : Nat) (budget : CallBudget) :
    Span d [] (d.takeTransmit packetLimit byteLimit budget).1
      (d.takeTransmit packetLimit byteLimit budget).2.1 := by
  have hflow := d.flow_takeTransmit packetLimit byteLimit budget
  refine ⟨⟨[], by simp [takeTransmit], .refl _⟩, ⟨[], by simp [takeTransmit], hflow⟩, rfl, ?_, ?_, ?_,
    rfl, rfl, rfl, rfl⟩
  · intro credit hcredit
    simp only [takeTransmit, hcredit]
    have hpackets := takeLoop_length_le (min packetLimit credit.packets) (min byteLimit credit.bytes)
      d.transmit budget
    have hbytes := takeLoop_bytes_le (min packetLimit credit.packets) (min byteLimit credit.bytes)
      d.transmit budget
    exact ⟨by omega, by omega⟩
  · intro hbytes
    have hcount := byteCount_flow hflow
    change d.transmitBytes - byteCount (d.takeTransmit packetLimit byteLimit budget).1 = _
    rw [hbytes]
    change _ = _ + 0 at hcount
    omega
  · intro hroom
    have hlength := hflow.length_le
    change _ ≤ d.transmitLimit
    simp only [List.length_nil] at hlength
    omega

/-- `poll_egress` emits only into room and within the credit. -/
theorem span_egressPoll (poll : EgressPoll) (d : BeamDevice) (sockets : SocketSet) :
    Span d [] [] (poll.run d sockets).1 := by
  induction poll generalizing d with
  | done finish lawful => exact .refl d
  | transmit packet granted denied ihGranted ihDenied =>
      unfold EgressPoll.run
      split
      · rename_i hmay
        simp only [mayTransmit, Bool.and_eq_true] at hmay
        exact (span_emitAll hmay.1 packet).trans (ihGranted _)
      · exact ihDenied _

end BeamDevice

end SmolNet
