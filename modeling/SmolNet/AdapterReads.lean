import SmolNet.Adapter
import SmolNet.ActiveQuota

/-!
# Reads of the `gen_tcp` adapter

A read that is pending has something that will go on with it, and active mode sends no more than it was
set to.  Both rest on which reads can be pending in which mode, and are kept by every handler; an end
of a transfer does not resume a passive read, which is the exception.
-/

namespace SmolNet.Inet6.Tcp

open Framing InetBackend

def Message.kind : Message → MessageKind
  | .tcp _ _ => .data
  | .tcpPassive => .passive
  | .tcpClosed | .tcpError _ => .terminal

/-- The part of the state that says how reading goes on. -/
structure ReadSide where
  read : Option Read
  options : Options
  buffer : Packet
  scheduled : Bool
  continuations : Nat
  setting : Active
  since : List Message
  issued : List Ref
  handled : List Ref
deriving DecidableEq, Repr

namespace ReadSide

structure Reading (r : ReadSide) : Prop where
  modes : ∀ read, r.read = some read → (read.kind.isActive = true ↔ r.options.active ≠ .off)
  scheduled : r.scheduled = true → 0 < r.continuations
  counted : Counted r.setting (r.since.map Message.kind) r.options.active
  waiter : ∀ read ref, r.read = some read → read.select = some ref → ref ∈ r.issued ∧ ref ∉ r.handled
  handled : ∀ ref ∈ r.handled, ref ∈ r.issued

/-- A read waits for a `:continue_read`, or for its waiter with no packet in the buffer. -/
def GoesOn (r : ReadSide) (read : Read) : Prop :=
  0 < r.continuations ∨ (read.select.isSome = true ∧
    extract r.buffer r.options.packet read.length r.options.packetSize = .more)

instance (r : ReadSide) (read : Read) : Decidable (r.GoesOn read) := inferInstanceAs (Decidable (_ ∨ _))

def Pending (r : ReadSide) : Prop := ∀ read, r.read = some read → r.GoesOn read

theorem Reading.endRead {r : ReadSide} (h : Reading r) : Reading { r with read := none } :=
  ⟨(by intro read hread; cases hread), h.scheduled, h.counted, (by intro read ref hread; cases hread),
    h.handled⟩

theorem Reading.rebuffer {r : ReadSide} (h : Reading r) (buffer : Packet) :
    Reading { r with buffer := buffer } := ⟨h.modes, h.scheduled, h.counted, h.waiter, h.handled⟩

theorem Reading.off {r : ReadSide} (h : Reading r) {ended : List Message}
    (hended : ∀ message ∈ ended, message.kind = .terminal) :
    Reading { r with
      read := none, options := { r.options with active := .off }, since := r.since ++ ended } := by
  refine ⟨(by intro read hread; cases hread), h.scheduled, ?_, (by intro read ref hread; cases hread),
    h.handled⟩
  show Counted r.setting ((r.since ++ ended).map Message.kind) .off
  rw [List.map_append]
  apply h.counted.terminal
  intro kind hkind
  obtain ⟨message, hmessage, rfl⟩ := List.mem_map.1 hkind
  exact hended message hmessage

/-- Another waiter, or none, for the same read. -/
theorem Reading.rearm {r : ReadSide} (h : Reading r) {read : Read} (hread : r.read = some read)
    (buffer : Packet) {select : Option Ref}
    (hselect : ∀ ref, select = some ref → ref ∈ r.issued ∧ ref ∉ r.handled) :
    Reading { r with read := some { read with select := select }, buffer := buffer } := by
  refine ⟨?_, h.scheduled, h.counted, ?_, h.handled⟩
  · intro read' hread'
    obtain rfl := Option.some.inj hread'
    exact h.modes read hread
  · intro read' ref hread' href
    obtain rfl := Option.some.inj hread'
    exact hselect ref href

theorem pending_none {r : ReadSide} (h : r.read = none) : Pending r := by
  intro read hread
  rw [h] at hread
  cases hread

end ReadSide

open ReadSide

namespace Adapter

def readSide (a : Adapter) : ReadSide :=
  ⟨a.read, a.options, a.readBuffer, a.readScheduled, a.continuations, a.setting, a.since, a.issued,
    a.handled⟩

/-- What holds whenever a handler has returned, or is within `drive_read`; that a read can go on is
known only where every transfer has resumed it. -/
structure Sound (resumed : Prop) (a : Adapter) : Prop where
  reading : Reading a.readSide
  pending : resumed → a.control = .idle → a.transfer = none → Pending a.readSide

variable {P : Prop} {a b : Adapter}

theorem sound_of_none (h : Reading b.readSide) (hread : b.read = none) : Sound P b :=
  ⟨h, fun _ _ _ => pending_none hread⟩

theorem sound_of_busy (h : Reading b.readSide) (hcontrol : b.control ≠ .idle) : Sound P b :=
  ⟨h, fun _ hidle => absurd hidle hcontrol⟩

/-- A handler that leaves the read side alone. -/
theorem Sound.same (h : Sound P a) (hidle : a.control = .idle) (hside : b.readSide = a.readSide)
    (htransfer : b.transfer = none → a.transfer = none) : Sound P b := by
  constructor
  · rw [hside]
    exact h.reading
  · intro hresumed _ hnone
    rw [hside]
    exact h.pending hresumed hidle (htransfer hnone)

/-! ## Parts of handlers -/

theorem readSide_endWrite (a : Adapter) : a.endWrite.readSide = a.readSide := by
  unfold endWrite
  split
  · rfl
  · split
    · rfl
    · split <;> rfl

theorem transfer_endWrite (a : Adapter) : a.endWrite.transfer = a.transfer := by
  unfold endWrite
  split
  · rfl
  · split
    · rfl
    · split <;> rfl

theorem readSide_replyTerminalWrite (a : Adapter) (reason : Reason) :
    (a.replyTerminalWrite reason).readSide = a.readSide := by
  unfold replyTerminalWrite
  split <;> rfl

/-- The notices that reading has ended, if any. -/
theorem readSide_replyTerminalRead (a : Adapter) (reason : Reason) : ∃ ended : List Message,
    (∀ message ∈ ended, message.kind = .terminal) ∧
    (a.replyTerminalRead reason).readSide = { a.readSide with since := a.since ++ ended } := by
  unfold replyTerminalRead
  split
  · exact ⟨[], by simp, by simp [readSide]⟩
  · split
    · exact ⟨[], by simp, by simp [readSide, Adapter.reply]⟩
    · exact ⟨[.tcpError reason, .tcpClosed], by simp [Message.kind], by simp [readSide, tell]⟩

theorem readSide_tellTerminal (a : Adapter) (reason : Reason) : ∃ ended : List Message,
    (∀ message ∈ ended, message.kind = .terminal) ∧
    (a.tellTerminal reason).readSide = { a.readSide with since := a.since ++ ended } := by
  unfold tellTerminal
  split
  · exact ⟨[], by simp, by simp [readSide]⟩
  · split
    · exact ⟨[.tcpClosed], by simp [Message.kind], rfl⟩
    · exact ⟨[.tcpError reason, .tcpClosed], by simp [Message.kind], by simp [readSide, tell]⟩

theorem readSide_tellReadClosed (a : Adapter) : ∃ ended : List Message,
    (∀ message ∈ ended, message.kind = .terminal) ∧
    a.tellReadClosed.readSide = { a.readSide with since := a.since ++ ended } := by
  unfold tellReadClosed
  split
  · exact ⟨[], by simp, by simp [readSide]⟩
  · split
    · exact ⟨[], by simp, by simp [readSide, Adapter.reply]⟩
    · split
      · exact ⟨[], by simp, by simp [readSide]⟩
      · exact ⟨[.tcpClosed], by simp [Message.kind], rfl⟩

theorem reading_cancelReadSelect (h : Reading a.readSide) : Reading a.cancelReadSelect.readSide := by
  cases hread : a.read with
  | none =>
      have hside : a.cancelReadSelect.readSide = a.readSide := by
        simp [cancelReadSelect, readSide, hread]
      rw [hside]
      exact h
  | some read =>
      have hside : a.cancelReadSelect.readSide =
          { a.readSide with read := some { read with select := none }, buffer := a.readBuffer } := by
        simp [cancelReadSelect, readSide, hread]
      rw [hside]
      exact h.rearm hread a.readBuffer (by intro ref href; cases href)

/-- Reading ends with some notices. -/
theorem reading_endActive (h : Reading a.readSide) {ended : List Message}
    (hended : ∀ message ∈ ended, message.kind = .terminal)
    (hside : b.readSide = { a.readSide with since := a.since ++ ended }) :
    Reading b.endActive.readSide := by
  have hoptions : b.options = a.options := congrArg ReadSide.options hside
  have hend : b.endActive.readSide = { b.readSide with
      read := none, options := { b.options with active := .off } } := rfl
  rw [hend, hside, hoptions]
  exact h.off hended

theorem sound_terminalConnectionFailure (h : Reading a.readSide) (reason : Reason) :
    Sound P (a.terminalConnectionFailure reason) := by
  apply sound_of_busy
  · have hcancel := reading_cancelReadSelect h
    obtain ⟨ended, hended, hside⟩ :=
      readSide_replyTerminalRead a.cancelReadSelect.cancelWriteSelect reason
    apply reading_endActive hcancel hended
    rw [readSide_endWrite, readSide_replyTerminalWrite]
    exact hside
  · simp [terminalConnectionFailure, stop]

theorem sound_notifyActiveTerminal (h : Reading a.readSide) (reason : Reason) :
    Sound P (a.notifyActiveTerminal reason) := by
  obtain ⟨ended, hended, hside⟩ := readSide_tellTerminal a reason
  have hoff := reading_endActive h hended hside
  unfold notifyActiveTerminal
  split
  · exact sound_of_none hoff rfl
  · exact sound_of_none hoff rfl

theorem sound_readFailure (h : Reading a.readSide) (reason : Reason) : Sound P (a.readFailure reason) := by
  unfold readFailure
  split
  · rename_i hread
    exact sound_of_none h hread
  · split
    · exact sound_terminalConnectionFailure h reason
    · split
      · split
        · exact sound_of_none h.endRead rfl
        · exact sound_of_none h.endRead rfl
      · exact sound_notifyActiveTerminal h reason

theorem reading_scheduleReadContinuation (h : Reading a.readSide) :
    Reading a.scheduleReadContinuation.readSide := by
  unfold scheduleReadContinuation
  split
  · exact h
  · exact ⟨h.modes, fun _ => Nat.succ_pos _, h.counted, h.waiter, h.handled⟩

theorem continuations_schedule (h : Reading a.readSide) : 0 < a.scheduleReadContinuation.continuations := by
  unfold scheduleReadContinuation
  split
  · rename_i hscheduled
    exact h.scheduled hscheduled
  · exact Nat.succ_pos _

/-- A read with a continuation in the mailbox is sound. -/
theorem sound_scheduled (h : Reading a.readSide) : Sound P a.scheduleReadContinuation.keep :=
  ⟨reading_scheduleReadContinuation h, fun _ _ _ _ _ => .inl (continuations_schedule h)⟩

theorem pending_awaiting (h : a.awaitingSocket = true) : Pending a.readSide := by
  intro read hread
  have hread' : a.read = some read := hread
  simp only [awaitingSocket, readReference, hread', Option.bind_some, Bool.and_eq_true,
    List.isEmpty_iff] at h
  right
  refine ⟨h.1, ?_⟩
  show extract a.readBuffer a.options.packet read.length a.options.packetSize = .more
  rw [h.2]
  exact extract_nil _ _ a.options.packetSize_pos

/-! ## `drive_read` -/

theorem kinds_tellPacket (a : Adapter) (packet : Packet) :
    (a.tellPacket packet).since.map Message.kind =
      a.since.map Message.kind ++ consumeKinds a.options.active := by
  cases hlast : (consumeActive a.options.active).2 <;>
    simp [tellPacket, consume, tell, pass, consumeKinds, hlast, Message.kind]

theorem tellPacket_active (a : Adapter) (packet : Packet) :
    (a.tellPacket packet).options.active = (consumeActive a.options.active).1 := by
  cases hlast : (consumeActive a.options.active).2 <;>
    simp [tellPacket, consume, tell, pass, hlast]

theorem tellPacket_frame (a : Adapter) (packet : Packet) :
    (a.tellPacket packet).read = a.read ∧ (a.tellPacket packet).readScheduled = a.readScheduled ∧
      (a.tellPacket packet).continuations = a.continuations ∧
      (a.tellPacket packet).setting = a.setting ∧ (a.tellPacket packet).issued = a.issued ∧
      (a.tellPacket packet).handled = a.handled := by
  cases hlast : (consumeActive a.options.active).2 <;>
    simp [tellPacket, consume, tell, pass, hlast]

/-- The owner is sent a packet only while active mode allows it. -/
theorem counted_tellPacket (h : Reading a.readSide) (hactive : a.options.active ≠ .off) (packet : Packet) :
    Counted (a.tellPacket packet).setting ((a.tellPacket packet).since.map Message.kind)
      (a.tellPacket packet).options.active := by
  rw [kinds_tellPacket, tellPacket_active, (tellPacket_frame a packet).2.2.2.1]
  exact h.counted.consume hactive

/-- Whatever becomes of the read, the rest is as it was before the packet. -/
theorem reading_told (h : Reading a.readSide) (hactive : a.options.active ≠ .off) (packet : Packet)
    (hmodes : ∀ read, b.read = some read → a.read = some read ∧
      (read.kind.isActive = true ↔ (a.tellPacket packet).options.active ≠ .off))
    (hside : b.readSide = { (a.tellPacket packet).readSide with read := b.read }) :
    Reading b.readSide := by
  obtain ⟨-, hscheduled, hcontinuations, -, hissued, hhandled⟩ := tellPacket_frame a packet
  rw [hside]
  refine ⟨fun read hread => (hmodes read hread).2, ?_, counted_tellPacket h hactive packet, ?_, ?_⟩
  · show (a.tellPacket packet).readScheduled = true → 0 < (a.tellPacket packet).continuations
    rw [hscheduled, hcontinuations]
    exact h.scheduled
  · intro read ref hread href
    show ref ∈ (a.tellPacket packet).issued ∧ ref ∉ (a.tellPacket packet).handled
    rw [hissued, hhandled]
    exact h.waiter read ref (hmodes read hread).1 href
  · show ∀ ref ∈ (a.tellPacket packet).handled, ref ∈ (a.tellPacket packet).issued
    rw [hissued, hhandled]
    exact h.handled

theorem reading_tellPacket (h : Reading a.readSide) {read : Read} (hread : a.read = some read)
    (hkind : read.kind.isActive = true) (packet : Packet)
    (hleft : (a.tellPacket packet).options.active ≠ .off) : Reading (a.tellPacket packet).readSide := by
  have hactive := (h.modes read hread).1 hkind
  apply reading_told h hactive packet _ rfl
  intro read' hread'
  rw [(tellPacket_frame a packet).1] at hread'
  obtain rfl : read = read' := Option.some.inj (hread.symm.trans hread')
  exact ⟨hread, fun _ => hleft, fun _ => hkind⟩

theorem reading_endTold (h : Reading a.readSide) (hactive : a.options.active ≠ .off) (packet : Packet) :
    Reading (a.tellPacket packet).endRead.readSide := by
  apply reading_told (b := (a.tellPacket packet).endRead) h hactive packet _ rfl
  intro read hread
  cases hread

theorem sound_deliverReadPacket (h : Reading a.readSide) {read read' : Read} (hread : a.read = some read')
    (hkind : read'.kind = read.kind) (packet : Packet) (chunks deliveries : Nat) :
    Sound P (a.deliverReadPacket read packet chunks deliveries) := by
  unfold deliverReadPacket
  split
  · exact sound_of_none h.endRead rfl
  · rename_i hactive
    have hkind' : read'.kind.isActive = true := by
      rw [hkind, hactive]
      rfl
    split
    · exact sound_of_none (reading_endTold h ((h.modes read' hread).1 hkind') packet) rfl
    · rename_i hleft
      exact sound_of_busy (reading_tellPacket h hread hkind' packet hleft) (by simp [drive])

theorem sound_afterLastLine (h : Reading a.endRead.readSide) (h' : a.options.active ≠ .off → Reading a.readSide)
    (chunks deliveries : Nat) : Sound P (a.afterLastLine chunks deliveries) := by
  unfold afterLastLine
  split
  · exact sound_of_none h rfl
  · rename_i hon
    split
    · split
      · exact sound_notifyActiveTerminal (h' hon) .closed
      · exact sound_notifyActiveTerminal (reading_scheduleReadContinuation (h' hon)) .closed
    · exact sound_of_busy (h' hon) (by simp [drive])

theorem sound_finishEof (h : Reading a.readSide) {read : Read} (hread : a.read = some read)
    (chunks deliveries : Nat) : Sound P (a.finishEof read chunks deliveries) := by
  unfold finishEof
  split
  · apply sound_of_none _ rfl
    unfold passiveEofReply
    split <;> exact (h.rebuffer []).endRead
  · rename_i hactive
    have hkind : read.kind.isActive = true := by rw [hactive]; rfl
    split
    · have hempty : Reading ({ a with readBuffer := [] } : Adapter).readSide := h.rebuffer []
      apply sound_afterLastLine
      · exact reading_endTold hempty ((h.modes read hread).1 hkind) a.readBuffer
      · intro hon
        exact reading_tellPacket hempty hread hkind a.readBuffer hon
    · exact sound_notifyActiveTerminal h .closed

theorem sound_appendReadData (h : Reading a.readSide) {read : Read} (hread : a.read = some read)
    (bytes : Packet) {select : Option Ref}
    (hselect : ∀ ref, select = some ref → ref ∈ a.issued ∧ ref ∉ a.handled) (chunks deliveries : Nat) :
    Sound P (a.appendReadData read bytes select chunks deliveries) := by
  unfold appendReadData
  split
  · apply sound_of_busy _ (by simp [drive])
    apply h.rearm hread (a.readBuffer ++ bytes)
    intro ref href
    rcases Option.or_eq_some_iff.1 href with href | ⟨-, href⟩
    · exact hselect ref href
    · exact h.waiter read ref hread href
  · apply sound_readFailure
    exact h

theorem sound_fetchReadData (h : Reading a.readSide) {read : Read} (hread : a.read = some read)
    (hmore : extract a.readBuffer a.options.packet read.length a.options.packetSize = .more)
    (chunks deliveries : Nat) {answer : RecvAnswer}
    (hanswer : ∀ ref, answer.ref? = some ref → ref ∈ a.issued ∧ ref ∉ a.handled) :
    Sound P (a.fetchReadData read chunks deliveries answer) := by
  unfold fetchReadData
  split
  · exact sound_readFailure h .emsgsize
  · cases answer with
    | ok bytes => exact sound_appendReadData h hread bytes hanswer chunks deliveries
    | selectWith ref bytes => exact sound_appendReadData h hread bytes hanswer chunks deliveries
    | select ref =>
        constructor
        · exact h.rearm hread a.readBuffer hanswer
        · intro _ _ _ read' hread'
          obtain rfl := Option.some.inj hread'
          exact .inr ⟨rfl, hmore⟩
    | error reason =>
        dsimp only
        split
        · split
          · exact sound_readFailure h .enetdown
          · exact sound_of_busy h (by simp [drive])
        · exact sound_readFailure h _

theorem sound_driveRead (h : Reading a.readSide) (chunks deliveries : Nat) {answer : RecvAnswer}
    (hanswer : ∀ ref, answer.ref? = some ref → ref ∈ a.issued ∧ ref ∉ a.handled) :
    Sound P (a.driveRead chunks deliveries answer) := by
  unfold driveRead
  split
  · rename_i hread
    exact sound_of_none h hread
  · rename_i read hread
    split
    · -- a transfer suspends the read
      rename_i htransfer
      refine ⟨h, ?_⟩
      intro _ _ hnone
      have hnone' : a.transfer = none := hnone
      rw [hnone'] at htransfer
      cases htransfer
    · split
      · split
        · rename_i hawaiting
          exact ⟨h, fun _ _ _ => pending_awaiting hawaiting⟩
        · exact sound_scheduled h
      · split
        · rename_i packet rest _
          have hrest : Reading ({ a.cancelReadSelect with readBuffer := rest } : Adapter).readSide :=
            (reading_cancelReadSelect h).rebuffer rest
          have hread' : a.cancelReadSelect.read = some { read with select := none } := by
            simp [cancelReadSelect, hread]
          exact sound_deliverReadPacket hrest hread' rfl packet chunks deliveries
        · rename_i hmore
          split
          · exact sound_finishEof h hread chunks deliveries
          · split
            · rename_i harmed
              refine ⟨h, ?_⟩
              intro _ _ _ read' hread'
              obtain rfl : read = read' := Option.some.inj (hread.symm.trans hread')
              exact .inr ⟨harmed, hmore⟩
            · exact sound_fetchReadData h hread hmore chunks deliveries hanswer
        · exact sound_readFailure h .emsgsize

/-! ## Handlers -/

theorem sound_writeFailure (h : Sound P a) (hidle : a.control = .idle) (reason : Reason) :
    Sound P (a.writeFailure reason) := by
  unfold writeFailure
  split
  · exact h.same hidle rfl id
  · rename_i write _
    split
    · exact sound_terminalConnectionFailure h.reading reason
    · apply h.same hidle
      · exact readSide_endWrite (a.reply write.caller (writeErrorReply write reason))
      · intro hnone
        rw [← hnone]
        exact (transfer_endWrite (a.reply write.caller (writeErrorReply write reason))).symm

theorem sound_driveWrite (h : Sound P a) (hidle : a.control = .idle) (answer : SendAnswer) :
    Sound P (a.driveWrite answer) := by
  unfold driveWrite
  split
  · exact h.same hidle rfl id
  · split
    · exact h.same hidle rfl id
    · exact h.same hidle rfl id
    · exact sound_writeFailure h hidle _

theorem sound_send (h : Sound P a) (hidle : a.control = .idle) (caller : Caller)
    (payload : Option Packet) (timer : Option Ref) (answer : SendAnswer) :
    Sound P (a.send caller payload timer answer) := by
  unfold send
  split
  · exact h.same hidle rfl id
  · split
    · exact h.same hidle rfl id
    · split
      · exact h.same hidle rfl id
      · split
        · rename_i payload _ framed _
          have hnew : Sound P (a.newWrite caller payload framed timer) := h.same hidle rfl id
          exact sound_driveWrite hnew hidle answer
        · exact h.same hidle rfl id

theorem sound_recv (h : Sound P a) (hidle : a.control = .idle) (caller : Caller) (length : Nat)
    (timer : Option Ref) : Sound P (a.recv caller length timer) := by
  unfold recv
  split
  · exact h.same hidle rfl id
  · rename_i hoff
    split
    · exact h.same hidle rfl id
    · split
      · exact h.same hidle rfl id
      · apply sound_of_busy
        · refine ⟨?_, h.reading.scheduled, h.reading.counted, ?_, h.reading.handled⟩
          · intro read hread
            obtain rfl := Option.some.inj hread
            have hoff' : a.options.active = .off := by simpa using hoff
            exact ⟨fun hkind => Bool.noConfusion hkind, fun hon => absurd hoff' hon⟩
          · intro read ref hread href
            obtain rfl := Option.some.inj hread
            cases href
        · simp [drive]

theorem sound_unrecv (h : Sound P a) (hidle : a.control = .idle) (caller : Caller) (value : Option Packet) :
    Sound P (a.unrecv caller value) := by
  unfold unrecv
  split
  · exact h.same hidle rfl id
  · rename_i hnone
    have hread : a.read = none := by simpa using hnone
    split
    · exact h.same hidle rfl id
    · split
      · exact sound_of_none (h.reading.rebuffer _) hread
      · exact h.same hidle rfl id

theorem reading_closeReadDirection (h : Reading a.readSide) : Reading a.closeReadDirection.readSide := by
  obtain ⟨ended, hended, hside⟩ := readSide_tellReadClosed a.cancelReadSelect
  exact reading_endActive (reading_cancelReadSelect h) hended hside

theorem sound_shutdown (h : Sound P a) (hidle : a.control = .idle) (caller : Caller) (how : How)
    (answer : Option LowReason) : Sound P (a.shutdown caller how answer) := by
  unfold shutdown
  split
  · split
    · exact h.same hidle rfl id
    · exact sound_of_none (reading_closeReadDirection h.reading) rfl
  · exact h.same hidle rfl id

theorem reading_ensureActiveRead (h : Reading a.readSide) : Reading a.ensureActiveRead.readSide := by
  unfold ensureActiveRead
  split
  · exact h
  · rename_i hon
    split
    · exact h
    · refine ⟨?_, h.scheduled, h.counted, ?_, h.handled⟩
      · intro read hread
        obtain rfl := Option.some.inj hread
        exact ⟨fun _ => hon, fun _ => rfl⟩
      · intro read ref hread href
        obtain rfl := Option.some.inj hread
        cases href

theorem control_ensureActiveRead (a : Adapter) : a.ensureActiveRead.control = a.control := by
  unfold ensureActiveRead
  split
  · rfl
  · split <;> rfl

theorem control_scheduleReadContinuation (a : Adapter) :
    a.scheduleReadContinuation.control = a.control := by
  unfold scheduleReadContinuation
  split <;> rfl

theorem control_scheduleActiveRead (a : Adapter) : a.scheduleActiveRead.control = a.control := by
  unfold scheduleActiveRead
  split
  · rfl
  · split
    · exact a.control_ensureActiveRead
    · rw [control_scheduleReadContinuation, control_ensureActiveRead]

/-- Active mode is resumed with a waiter or a continuation; a passive read must go on by itself. -/
theorem sound_scheduleActiveRead (h : Reading a.readSide)
    (hpassive : P → ∀ read, a.read = some read → read.kind.isActive = false → a.readSide.GoesOn read) :
    Sound P a.scheduleActiveRead := by
  have hensured := reading_ensureActiveRead h
  unfold scheduleActiveRead
  split
  · rename_i hoff
    refine ⟨h, ?_⟩
    intro hresumed _ _ read hread
    apply hpassive hresumed read hread
    have hmode : read.kind.isActive = true ↔ a.options.active ≠ .off := h.modes read hread
    simpa [hoff] using hmode
  · split
    · rename_i hawaiting
      exact ⟨hensured, fun _ _ _ => pending_awaiting hawaiting⟩
    · exact ⟨reading_scheduleReadContinuation hensured, fun _ _ _ _ _ => .inl (continuations_schedule hensured)⟩

/-- A passive read keeps the framing it was asked in. -/
theorem optionChangeAllowed_passive {updated : Options} {read : Read} (hread : a.read = some read)
    (hkind : read.kind.isActive = false) (h : a.optionChangeAllowed updated = .ok ()) :
    updated.active = .off ∧ updated.packet = a.options.packet ∧
      updated.packetSize = a.options.packetSize := by
  obtain ⟨kind, length, select⟩ := read
  cases kind with
  | active => cases hkind
  | passive caller timer =>
      simp only [optionChangeAllowed, hread] at h
      split at h
      · cases h
      · rename_i hsame
        push Not at hsame
        exact ⟨hsame.1, hsame.2.2.1, hsame.2.2.2.1⟩

theorem checkOptions_ok {settings : List Setting} {nodelay keepalive : Option LowReason}
    {updated : Options} (h : a.checkOptions settings nodelay keepalive = .ok updated) :
    update .runtime a.options settings = .ok updated ∧ a.optionChangeAllowed updated = .ok () := by
  unfold checkOptions at h
  cases hupdate : update .runtime a.options settings with
  | error reason =>
      rw [hupdate] at h
      cases h
  | ok options =>
      rw [hupdate] at h
      cases hallowed : a.optionChangeAllowed options with
      | error reason =>
          simp only [bind, Except.bind, hallowed] at h
          cases h
      | ok _ =>
          have hupdated : options = updated := by
            simp only [bind, Except.bind, hallowed, pure, Except.pure] at h
            split at h
            · cases h
            · split at h
              · cases h
              · exact Except.ok.inj h
          subst hupdated
          exact ⟨rfl, hallowed⟩

/-- Counting begins anew where `active` is set, and goes on where it is not. -/
theorem counted_restart (h : Reading a.readSide) {settings : List Setting} {updated : Options}
    (hupdate : update .runtime a.options settings = .ok updated) :
    Counted (a.restart settings updated).setting
      ((a.restart settings updated).since.map Message.kind) updated.active := by
  unfold restart
  split
  · exact Counted.start updated.active
  · rename_i hnone
    rw [update_active (by simpa using hnone) hupdate]
    exact h.counted

theorem restart_frame (a : Adapter) (settings : List Setting) (updated : Options) :
    (a.restart settings updated).readSide = { a.readSide with
      setting := (a.restart settings updated).setting, since := (a.restart settings updated).since } ∧
    (a.restart settings updated).transfer = a.transfer := by
  unfold restart
  split <;> exact ⟨rfl, rfl⟩

theorem sound_applyActiveChange (h : Sound P a) (hidle : a.control = .idle) {settings : List Setting}
    {updated : Options} (hupdate : update .runtime a.options settings = .ok updated)
    (hallowed : a.optionChangeAllowed updated = .ok ()) :
    Sound P ((a.restart settings updated).applyActiveChange updated).keep := by
  have hcounted := counted_restart h.reading hupdate
  obtain ⟨hside, htransfer⟩ := restart_frame a settings updated
  generalize a.restart settings updated = c at *
  obtain ⟨hread, hbuffer, hscheduled, hcontinuations, hissued, hhandled⟩ :
      c.read = a.read ∧ c.readBuffer = a.readBuffer ∧ c.readScheduled = a.readScheduled ∧
        c.continuations = a.continuations ∧ c.issued = a.issued ∧ c.handled = a.handled :=
    ⟨congrArg ReadSide.read hside, congrArg ReadSide.buffer hside, congrArg ReadSide.scheduled hside,
      congrArg ReadSide.continuations hside, congrArg ReadSide.issued hside, congrArg ReadSide.handled hside⟩
  -- whatever becomes of the read, the rest is sound under the new options
  have hreading : ∀ d : Adapter, d.readSide = { c.readSide with options := updated, read := d.read } →
      (∀ read, d.read = some read → a.read = some read ∧
        (read.kind.isActive = true ↔ updated.active ≠ .off)) → Reading d.readSide := by
    intro d hd hmodes
    rw [hd]
    refine ⟨fun read hread => (hmodes read hread).2, ?_, hcounted, ?_, ?_⟩
    · show c.readScheduled = true → 0 < c.continuations
      rw [hscheduled, hcontinuations]
      exact h.reading.scheduled
    · intro read ref hread href
      show ref ∈ c.issued ∧ ref ∉ c.handled
      rw [hissued, hhandled]
      exact h.reading.waiter read ref (hmodes read hread).1 href
    · show ∀ ref ∈ c.handled, ref ∈ c.issued
      rw [hissued, hhandled]
      exact h.reading.handled
  unfold applyActiveChange
  split
  · rename_i hoff
    constructor
    · apply hreading _ rfl
      intro read hkept
      obtain ⟨hold, hkind⟩ := Option.filter_eq_some_iff.1 hkept
      have hpassive : read.kind.isActive = false := by simpa using hkind
      rw [hread] at hold
      exact ⟨hold, fun hactive => by simp [hpassive] at hactive, fun hon => absurd hoff hon⟩
    · intro hresumed _ hnone read hkept
      obtain ⟨hold, hkind⟩ := Option.filter_eq_some_iff.1 hkept
      rw [hread] at hold
      have hframing := optionChangeAllowed_passive hold (by simpa using hkind) hallowed
      have hpending := h.pending hresumed hidle (by rw [← htransfer]; exact hnone) read hold
      show 0 < c.continuations ∨ (_ ∧
        extract c.readBuffer updated.packet read.length updated.packetSize = .more)
      rw [hcontinuations, hbuffer, hframing.2.1, hframing.2.2]
      exact hpending
  · rename_i hon
    apply sound_scheduled
    apply reading_ensureActiveRead
    apply hreading _ rfl
    intro read hold
    have hold' : a.read = some read := by
      rw [← hread]
      exact hold
    refine ⟨hold', fun _ => hon, fun _ => ?_⟩
    cases hkind : read.kind.isActive with
    | true => rfl
    | false => exact absurd (optionChangeAllowed_passive hold' hkind hallowed).1 hon

theorem sound_setOptions (h : Sound P a) (hidle : a.control = .idle) (caller : Caller)
    (settings : List Setting) (nodelay keepalive : Option LowReason) :
    Sound P (a.setOptions caller settings nodelay keepalive) := by
  unfold setOptions
  split
  · rename_i updated hcheck
    obtain ⟨hupdate, hallowed⟩ := checkOptions_ok hcheck
    have happlied := sound_applyActiveChange h hidle hupdate hallowed
    exact ⟨happlied.reading, happlied.pending⟩
  · exact h.same hidle rfl id

theorem sound_beginTransfer (h : Sound P a) (hidle : a.control = .idle) (caller : Caller) (newOwner : Pid)
    (alive : Bool) (token : Ref) : Sound P (a.beginTransfer caller newOwner alive token) := by
  unfold beginTransfer
  split
  · exact h.same hidle rfl id
  · split
    · exact h.same hidle rfl id
    · split
      · exact h.same hidle rfl id
      · split
        · refine ⟨h.reading, ?_⟩
          intro _ _ hnone
          cases hnone
        · exact h.same hidle rfl id

/-- Whether a commit comes from the owner that began the transfer, with its token. -/
def endsTransfer (a : Adapter) (caller : Caller) (token : Ref) : Bool :=
  a.transfer.any fun transfer => transfer.token == token && caller.pid == transfer.oldOwner

/-- A passive read that is pending when a transfer is about to end can go on by itself. -/
def Resumable (a : Adapter) : Event → Prop
  | .commitTransfer caller token _ _ => a.endsTransfer caller token = true →
      ∀ read ∈ a.read, read.kind.isActive = false → a.readSide.GoesOn read
  | _ => True

instance (a : Adapter) (event : Event) : Decidable (a.Resumable event) := by
  cases event <;> unfold Resumable <;> infer_instance

theorem sound_commitTransfer (h : Sound P a) (hidle : a.control = .idle) {caller : Caller} {token : Ref}
    {messages : List Message} {alive : Bool}
    (hresumable : P → a.Resumable (.commitTransfer caller token messages alive)) :
    Sound P (a.commitTransfer caller token messages alive) := by
  unfold commitTransfer commitWith
  split
  · exact h.same hidle rfl id
  · rename_i transfer htransfer
    split
    · exact h.same hidle rfl id
    · rename_i htoken
      split
      · exact h.same hidle rfl id
      · rename_i howner
        have hpassive : P → ∀ read, a.read = some read → read.kind.isActive = false →
            a.readSide.GoesOn read := by
          intro hresumed
          have hends : a.endsTransfer caller token = true := by
            rw [endsTransfer, htransfer, Option.any_some, Bool.and_eq_true]
            exact ⟨by simpa using htoken, by simpa using howner⟩
          exact hresumable hresumed hends
        split
        · have hresumed : Sound P ({ a with owner := transfer.newOwner, transfer := none }.forward
              messages).scheduleActiveRead := sound_scheduleActiveRead h.reading hpassive
          have hcontrol := control_scheduleActiveRead
            ({ a with owner := transfer.newOwner, transfer := none }.forward messages)
          exact ⟨hresumed.reading, fun hp _ hnone => hresumed.pending hp (hcontrol.trans hidle) hnone⟩
        · have hresumed : Sound P ({ a with transfer := none } : Adapter).scheduleActiveRead :=
            sound_scheduleActiveRead h.reading hpassive
          have hcontrol := control_scheduleActiveRead ({ a with transfer := none } : Adapter)
          exact ⟨hresumed.reading, fun hp _ hnone => hresumed.pending hp (hcontrol.trans hidle) hnone⟩

/-! ## Messages -/

/-- The message of a waiter that is not the read's, or is no longer. -/
theorem reading_handling (h : Reading a.readSide) {ref : Ref} (hissued : ref ∈ a.issued)
    (hother : a.readReference ≠ some ref) : Reading (a.handling ref).readSide := by
  refine ⟨h.modes, h.scheduled, h.counted, ?_, ?_⟩
  · intro read ref' hread href
    obtain ⟨hin, hout⟩ := h.waiter read ref' hread href
    refine ⟨hin, ?_⟩
    show ref' ∉ ref :: a.handled
    rw [List.mem_cons, not_or]
    refine ⟨?_, hout⟩
    rintro rfl
    have hread' : a.read = some read := hread
    exact hother (by rw [readReference, hread', Option.bind_some, href])
  · intro ref' href
    rcases List.mem_cons.1 href with rfl | href
    · exact hissued
    · exact h.handled ref' href

theorem sound_handling (h : Sound P a) (hidle : a.control = .idle) {ref : Ref} (hissued : ref ∈ a.issued)
    (hother : a.readReference ≠ some ref) : Sound P (a.handling ref) :=
  ⟨reading_handling h.reading hissued hother, fun hresumed _ hnone => h.pending hresumed hidle hnone⟩

theorem readReference_cancelReadSelect (a : Adapter) : a.cancelReadSelect.readReference = none := by
  cases hread : a.read <;> simp [cancelReadSelect, readReference, hread]

/-- The read's own message: its waiter is gone before it is looked at. -/
theorem reading_handled (h : Reading a.readSide) {ref : Ref} (hissued : ref ∈ a.issued) :
    Reading (a.handling ref).cancelReadSelect.readSide := by
  have hissued' : ref ∈ a.cancelReadSelect.issued := hissued
  exact reading_handling (reading_cancelReadSelect h) hissued'
    (by rw [readReference_cancelReadSelect]; simp)

theorem sound_handleSelect (h : Sound P a) (hidle : a.control = .idle) {ref : Ref}
    (hissued : ref ∈ a.issued) (answer : SendAnswer) : Sound P ((a.handling ref).handleSelect ref answer) := by
  unfold handleSelect
  split
  · exact sound_of_busy (reading_handled h.reading hissued) (by simp [drive])
  · rename_i hother
    have hsound := sound_handling h hidle hissued hother
    split
    · have hcancel : Sound P (a.handling ref).cancelWriteSelect := hsound.same hidle rfl id
      exact sound_driveWrite hcancel hidle answer
    · exact hsound.same hidle rfl id

theorem readSide_failRead (a : Adapter) (reason : Reason) : ∃ ended : List Message,
    (∀ message ∈ ended, message.kind = .terminal) ∧
    (a.failRead reason).readSide = { a.readSide with since := a.since ++ ended } := by
  unfold failRead
  split
  · split
    · exact ⟨[], by simp, by simp [readSide]⟩
    · exact ⟨[.tcpError reason, .tcpClosed], by simp [Message.kind], by simp [readSide, tell]⟩
  · split
    · exact ⟨[], by simp, by simp [readSide, Adapter.reply]⟩
    · split
      · exact ⟨[], by simp, by simp [readSide]⟩
      · exact ⟨[.tcpError reason, .tcpClosed], by simp [Message.kind], by simp [readSide, tell]⟩

/-- What holds in every state: a process that has stopped owes only its messages. -/
def Safe (resumed : Prop) (a : Adapter) : Prop :=
  Sound resumed a ∨ (a.control = .stopped ∧ Kept a.setting (a.since.map Message.kind))

theorem Safe.kept (h : Safe P a) : Kept a.setting (a.since.map Message.kind) := by
  rcases h with h | h
  · exact h.reading.counted.kept
  · exact h.2

theorem safe_failAll (h : Counted a.setting (a.since.map Message.kind) a.options.active)
    (reason : Reason) : Safe P (a.failAll reason).stop := by
  obtain ⟨ended, hended, hside⟩ := readSide_failRead a reason
  have hall : (((a.failRead reason).replyTerminalWrite reason).endWrite).readSide =
      { a.readSide with since := a.since ++ ended } := by
    rw [readSide_endWrite, readSide_replyTerminalWrite, hside]
  have hsetting : (a.failAll reason).setting = a.setting := congrArg ReadSide.setting hall
  have hsince : (a.failAll reason).since = a.since ++ ended := congrArg ReadSide.since hall
  refine .inr ⟨rfl, ?_⟩
  show Kept (a.failAll reason).setting ((a.failAll reason).since.map Message.kind)
  rw [hsetting, hsince, List.map_append]
  apply (h.terminal _).kept
  intro kind hkind
  obtain ⟨message, hmessage, rfl⟩ := List.mem_map.1 hkind
  exact hended message hmessage

theorem safe_handleAbort (h : Sound P a) (hidle : a.control = .idle) {ref : Ref}
    (hissued : ref ∈ a.issued) (reason : LowReason) : Safe P ((a.handling ref).handleAbort ref reason) := by
  unfold handleAbort
  split
  · exact safe_failAll (a := a.handling ref) h.reading.counted .enetdown
  · split
    · exact .inl (sound_readFailure (reading_handled h.reading hissued) _)
    · rename_i hother
      have hsound := sound_handling h hidle hissued hother
      split
      · have hcancel : Sound P (a.handling ref).cancelWriteSelect := hsound.same hidle rfl id
        exact .inl (sound_writeFailure hcancel hidle _)
      · exact .inl (hsound.same hidle rfl id)

theorem sound_readTimeout (h : Sound P a) (hidle : a.control = .idle) (token : Ref) :
    Sound P (a.readTimeout token) := by
  unfold readTimeout
  split
  · split
    · exact sound_of_none h.reading.endRead rfl
    · exact h.same hidle rfl id
  · exact h.same hidle rfl id

theorem sound_writeTimeout (h : Sound P a) (hidle : a.control = .idle) (token : Ref) :
    Sound P (a.writeTimeout token) := by
  unfold writeTimeout
  split
  · exact h.same hidle rfl id
  · rename_i write _
    split
    · have hside := readSide_endWrite (a.reply write.caller (writeErrorReply write .timeout))
      have htransfer := transfer_endWrite (a.reply write.caller (writeErrorReply write .timeout))
      split
      · exact h.same hidle hside (fun hnone => htransfer.symm.trans hnone)
      · exact h.same hidle hside (fun hnone => htransfer.symm.trans hnone)
    · exact h.same hidle rfl id

theorem sound_drainActive (h : Reading a.readSide) : Sound P a.drainActive := by
  apply sound_of_busy _ (by simp [drainActive, drive])
  apply reading_ensureActiveRead (a := { a with readScheduled := false })
  exact ⟨h.modes, (by intro hscheduled; cases hscheduled), h.counted, h.waiter, h.handled⟩

theorem sound_continueRead (h : Reading a.readSide) : Sound P a.continueRead := by
  apply sound_of_busy _ (by simp [continueRead, drive])
  exact ⟨h.modes, (by intro hscheduled; cases hscheduled), h.counted, h.waiter, h.handled⟩

/-! ## Runs -/

theorem safe_handle (h : Sound P a) {event : Event} (hresumable : P → a.Resumable event)
    (hfresh : ∀ ref, event.ref? = some ref → ref ∈ a.issued ∧ ref ∉ a.handled)
    (hstep : a.handle event = some b) : Safe P b := by
  cases event
  case stackExits =>
    obtain rfl := Option.some.inj hstep
    exact .inl ⟨h.reading, h.pending⟩
  case drive answer =>
    simp only [handle] at hstep
    split at hstep
    · obtain rfl := Option.some.inj hstep
      exact .inl (sound_driveRead h.reading _ _ hfresh)
    · cases hstep
  all_goals obtain ⟨hidle, rfl⟩ := Transition.guarded hstep
  case drainActive => exact .inl (sound_drainActive h.reading)
  case continueRead => exact .inl (sound_continueRead h.reading)
  case select ref answer => exact .inl (sound_handleSelect h hidle.1 hidle.2 answer)
  case abort ref reason => exact safe_handleAbort h hidle.1 hidle.2 reason
  case readTimeout token => exact .inl (sound_readTimeout h hidle token)
  case writeTimeout token => exact .inl (sound_writeTimeout h hidle token)
  case ownerDown => exact .inl (sound_of_busy h.reading (by simp [stop]))
  case stackDown => exact safe_failAll h.reading.counted .enetdown
  case shutdownExit =>
    unfold terminateShutdown
    split
    · exact safe_failAll h.reading.counted .enetdown
    · exact .inl (sound_of_busy h.reading (by simp [stop]))
  case send caller payload timer answer => exact .inl (sound_send h hidle caller payload timer answer)
  case recv caller length timer => exact .inl (sound_recv h hidle caller length timer)
  case unrecv caller value => exact .inl (sound_unrecv h hidle caller value)
  case shutdown caller how answer => exact .inl (sound_shutdown h hidle caller how answer)
  case close caller => exact .inl (sound_of_busy h.reading (by simp [close, stop]))
  case setopts caller settings nodelay keepalive =>
    exact .inl (sound_setOptions h hidle caller settings nodelay keepalive)
  case beginTransfer caller newOwner alive token =>
    exact .inl (sound_beginTransfer h hidle caller newOwner alive token)
  case commitTransfer caller token messages alive => exact .inl (sound_commitTransfer h hidle hresumable)
  case unsupported caller => exact .inl (h.same hidle rfl id)

theorem sound_issue (h : Sound P a) (event : Event) : Sound P (a.issue event) := by
  refine ⟨⟨h.reading.modes, h.reading.scheduled, h.reading.counted, ?_, ?_⟩, h.pending⟩
  · intro read ref hread href
    obtain ⟨hissued, hhandled⟩ := h.reading.waiter read ref hread href
    exact ⟨List.mem_append_right _ hissued, hhandled⟩
  · intro ref href
    exact List.mem_append_right _ (h.reading.handled ref href)

theorem safe_step (h : Safe P a) {event : Event} (hresumable : P → a.Resumable event)
    (hstep : a.step event = some b) : Safe P b := by
  unfold step at hstep
  split at hstep
  · rename_i hnew
    rcases h with h | ⟨hstopped, hkept⟩
    · apply safe_handle (sound_issue h event) hresumable _ hstep
      intro ref href
      rw [href] at hnew
      have hfresh : ref ∉ a.issued := by simpa using hnew
      refine ⟨?_, fun hhandled => hfresh (h.reading.handled ref hhandled)⟩
      simp [issue, href]
    · by_cases hevent : event = .stackExits
      · subst hevent
        obtain rfl := Option.some.inj hstep
        exact .inr ⟨hstopped, hkept⟩
      · have hrunning : (a.issue event).control ≠ .stopped := handle_running hevent hstep
        exact absurd hstopped hrunning
  · cases hstep

theorem sound_start (owner : Pid) (options : Options) (control : Control) :
    Sound P (start owner options control) := by
  apply sound_of_none _ rfl
  exact ⟨(by intro read hread; cases hread), (by intro hscheduled; cases hscheduled), Counted.start _,
    (by intro read ref hread; cases hread), (by intro ref href; cases href)⟩

theorem safe_initial (h : Initial a) : Safe P a := by
  obtain ⟨owner, options, rfl | rfl⟩ := h
  · exact .inl (sound_start owner options .draining)
  · left
    apply sound_scheduleActiveRead (sound_start (P := P) owner options .idle).reading
    intro _ read hread
    cases hread

theorem reaches_safe {ok : Adapter → Event → Prop} (hok : ∀ a event, ok a event → P → a.Resumable event)
    (h : Transition.Reaches Adapter.step ok Initial a) : Safe P a := by
  apply h.invariant (P := Safe P)
  · intro a ha
    exact safe_initial ha
  · intro a event b ha hevent hstep
    exact safe_step ha (hok a event hevent) hstep

/-- Where the passive reads that are pending at the end of a transfer can go on by themselves, a read that is
pending always can: its continuation is in the mailbox, or its waiter is armed and the buffer holds no packet. -/
theorem reaches_pending (h : Transition.Reaches Adapter.step Resumable Initial a)
    (hcontrol : a.control = .idle ∨ a.control = .draining) (htransfer : a.transfer = none) {read : Read}
    (hread : a.read = some read) :
    0 < a.continuations ∨ a.control = .draining ∨ ∃ ref, read.select = some ref ∧ ref ∈ a.issued ∧
      ref ∉ a.handled ∧ extract a.readBuffer a.options.packet read.length a.options.packetSize = .more := by
  have hsafe : Safe True a := reaches_safe (fun _ _ hok _ => hok) h
  rcases hcontrol with hidle | hdraining
  · rcases hsafe with hsound | ⟨hstopped, -⟩
    · rcases hsound.pending trivial hidle htransfer read hread with hqueued | ⟨harmed, hmore⟩
      · exact .inl hqueued
      · obtain ⟨ref, href⟩ := Option.isSome_iff_exists.1 harmed
        obtain ⟨hissued, hhandled⟩ := hsound.reading.waiter read ref hread href
        exact .inr (.inr ⟨ref, href, hissued, hhandled, hmore⟩)
    · rw [hidle] at hstopped
      cases hstopped
  · exact .inr (.inl hdraining)

/-- The waiter's message is handled while process 1 hands the socket over to process 2. -/
def resumes : List Event :=
  [.drainActive, .drive (.select 0), .beginTransfer ⟨1, 0⟩ 2 true 7, .select 0 .ok, .drive (.ok [1]),
    .commitTransfer ⟨1, 1⟩ 7 [] true]

/-- What a run with a transfer is looked at for. -/
def pendingView (a : Adapter) : Option Read × Bool × Nat × Bool :=
  (a.read, decide (a.control = .idle), a.continuations, a.transfer.isSome)

theorem pendingView_eq {read : Option Read} {count : Nat}
    (h : a.pendingView = (read, true, count, false)) :
    a.read = read ∧ a.control = .idle ∧ a.continuations = count ∧ a.transfer = none := by
  simp only [pendingView, Prod.mk.injEq, decide_eq_true_eq] at h
  exact ⟨h.1, h.2.1, h.2.2.1, by simpa using h.2.2.2⟩

theorem reaches_resumed : ∃ a, Transition.Reaches Adapter.step Resumable Initial a ∧
    a.pendingView = (some activeRead, true, 1, false) ∧ 0 < a.continuations := by
  have hstart : Initial (start 1 (plainOptions .raw .on) .draining) := ⟨1, _, .inl rfl⟩
  have hrun : (Transition.execute Adapter.step Resumable
      (start 1 (plainOptions .raw .on) .draining) resumes).map pendingView =
      some (some activeRead, true, 1, false) := by decide +kernel
  obtain ⟨a, ha, hview⟩ := (Transition.Reaches.start hstart).observe hrun
  obtain ⟨hread, hidle, hcount, htransfer⟩ := pendingView_eq hview
  refine ⟨a, ha, hview, ?_⟩
  rcases reaches_pending ha (.inl hidle) htransfer hread with hqueued | hdraining | ⟨ref, hnone, -⟩
  · exact hqueued
  · rw [hidle] at hdraining
    cases hdraining
  · cases hnone

/-- Process 3 asks for data while process 1 hands the socket over to process 2. -/
def asks : List Event :=
  [.drainActive, .drive (.ok []), .beginTransfer ⟨1, 0⟩ 2 true 7, .recv ⟨3, 1⟩ 0 none, .drive (.ok [1]),
    .commitTransfer ⟨1, 2⟩ 7 [] true]

/-- The transfer has ended, and nothing will go on with the read. -/
theorem passive_not_resumed : ∃ a, Transition.Reaches Adapter.step (fun _ _ => True) Initial a ∧
    a.control = .idle ∧ a.transfer = none ∧ a.continuations = 0 ∧
    ∃ read, a.read = some read ∧ read.select = none := by
  have hstart : Initial (start 1 (plainOptions .raw .off) .draining) := ⟨1, _, .inl rfl⟩
  have hrun : (Transition.execute Adapter.step (fun _ _ => True)
      (start 1 (plainOptions .raw .off) .draining) asks).map pendingView =
      some (some ⟨.passive ⟨3, 1⟩ none, 0, none⟩, true, 0, false) := by decide +kernel
  obtain ⟨a, ha, hview⟩ := (Transition.Reaches.start hstart).observe hrun
  obtain ⟨hread, hidle, hcount, htransfer⟩ := pendingView_eq hview
  exact ⟨a, ha, hidle, htransfer, hcount, _, hread, rfl⟩

/-! ## Active mode -/

/-- In every run the owner is sent what the last setting of `active` allows; once that is used up,
active mode is off, and a read that is pending is a caller's. -/
theorem reaches_kept (h : Transition.Reaches Adapter.step (fun _ _ => True) Initial a) :
    Kept a.setting (a.since.map Message.kind) ∧
      (a.control ≠ .stopped → UsedUp a.setting (a.since.map Message.kind) →
        a.options.active = .off ∧ ∀ read, a.read = some read → read.kind.isActive = false) := by
  have hsafe : Safe False a := reaches_safe (fun _ _ _ hfalse => hfalse.elim) h
  refine ⟨hsafe.kept, ?_⟩
  intro hrunning hused
  rcases hsafe with hsound | ⟨hstopped, -⟩
  · have hoff := hsound.reading.counted.usedUp hused
    exact ⟨hoff, fun read hread => by simpa [hoff] using hsound.reading.modes read hread⟩
  · exact absurd hstopped hrunning

/-- A `recv` is taken up: it is the pending read, `drive_read` goes on with it, and nothing is answered yet. -/
def Takes (a : Adapter) (caller : Caller) (length : Nat) (timer : Option Ref) : Prop :=
  (a.recv caller length timer).read = some ⟨.passive caller timer, length, none⟩ ∧
    (a.recv caller length timer).control = .driving maxReadChunks maxActiveDeliveries ∧
    (a.recv caller length timer).outputs = a.outputs

/-- A `recv` in passive mode is taken up unless another read is pending or its length is over the limit. -/
theorem recv_accepted (hoff : a.options.active = .off) (caller : Caller) (length : Nat) (timer : Option Ref) :
    (a.read = none → a.options.packet = .raw ∨ length ≤ receiveLimit a.options →
      a.Takes caller length timer) ∧
    (a.Takes caller length timer ∨ ∃ reason, reason ≠ .einval ∧
      (a.recv caller length timer).outputs = a.outputs ++ [.reply caller (.error reason)]) := by
  unfold Takes recv
  rw [if_neg (by simpa using hoff)]
  split
  · rename_i hread
    exact ⟨fun hnone => by simp [hnone] at hread, .inr ⟨.busy, by decide, rfl⟩⟩
  · split
    · rename_i hlong
      refine ⟨fun _ hfits => ?_, .inr ⟨.emsgsize, by decide, rfl⟩⟩
      rcases hfits with hraw | hshort
      · exact absurd hraw hlong.1
      · exact absurd hlong.2 (Nat.not_lt.2 hshort)
    · exact ⟨fun _ _ => ⟨rfl, rfl, rfl⟩, .inl ⟨rfl, rfl, rfl⟩⟩

end Adapter

end SmolNet.Inet6.Tcp
