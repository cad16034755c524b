import SmolNet.AdapterStream
import SmolNet.AdapterReads

/-!
# How much the `gen_tcp` adapter buffers

A read asks the stack for more only where the buffer holds no packet yet, and a buffer without a packet
has room: its capacity is larger than any packet that is accepted.  The branches of `fetch_read_data` and
`append_read_data` that find the buffer full are never taken, and `emsgsize` ends a socket only for a
packet that is too long.
-/

namespace SmolNet.Inet6.Tcp

open Framing InetBackend

/-- The bytes that the stack returns in its answer. -/
def Event.bytes? : Event → Option Packet
  | .drive answer => answer.bytes?
  | _ => none

/-- What says that a packet is too long. -/
def Output.oversized : Output → Bool
  | .reply _ (.error .emsgsize) | .message _ (.tcpError .emsgsize) => true
  | _ => false

theorem Output.oversized_iff {output : Output} : output.oversized = true ↔
    (∃ caller, output = .reply caller (.error .emsgsize)) ∨ ∃ pid, output = .message pid (.tcpError .emsgsize) := by
  unfold Output.oversized
  split <;> simp_all

namespace Adapter

def oversized (a : Adapter) : Nat := a.outputs.countP Output.oversized

/-- The options that the capacity of the buffer depends on. -/
def framing (options : Options) : PacketOption × Nat × Nat :=
  (options.packet, options.packetSize, options.buffer)

theorem receiveLimit_framing {options updated : Options} (h : framing updated = framing options) :
    receiveLimit updated = receiveLimit options := by
  simp only [framing, Prod.mk.injEq] at h
  simp only [receiveLimit, h.2.1, h.2.2]

/-- `b` has the buffer of `a`, and its read or none, or an active one. -/
structure Steady (strict : Prop) (a b : Adapter) : Prop where
  buffer : b.readBuffer = a.readBuffer
  taken : b.taken = a.taken
  framing : framing b.options = framing a.options
  reads : b.read = none ∨ b.read = some activeRead ∨
    ∃ read select, a.read = some read ∧ b.read = some { read with select := select }
  closed : a.readClosed = true → b.readClosed = true
  oversized : strict → b.oversized = a.oversized

/-- What `Steady` compares. -/
def view (a : Adapter) : Packet × Packet × (PacketOption × Nat × Nat) × Option Read × Bool × List Output :=
  (a.readBuffer, a.taken, framing a.options, a.read, a.readClosed, a.outputs)

variable {S : Prop} {a b c : Adapter} {reason : Reason}

theorem Steady.refl (S : Prop) (a : Adapter) : Steady S a a := by
  refine ⟨rfl, rfl, rfl, ?_, id, fun _ => rfl⟩
  cases hread : a.read with
  | none => exact .inl rfl
  | some read => exact .inr (.inr ⟨read, read.select, rfl, rfl⟩)

theorem Steady.same (h : Steady S a b) (hview : c.view = b.view) : Steady S a c := by
  simp only [view, Prod.mk.injEq] at hview
  obtain ⟨hbuffer, htaken, hframing, hread, hclosed, houtputs⟩ := hview
  refine ⟨hbuffer.trans h.buffer, htaken.trans h.taken, hframing.trans h.framing, ?_, ?_, fun hstrict => ?_⟩
  · rw [hread]
    exact h.reads
  · rw [hclosed]
    exact h.closed
  · rw [Adapter.oversized, houtputs]
    exact h.oversized hstrict

theorem Steady.mono {T : Prop} (h : Steady S a b) (hST : T → S) : Steady T a b :=
  ⟨h.buffer, h.taken, h.framing, h.reads, h.closed, fun hT => h.oversized (hST hT)⟩

/-! ## Parts of handlers -/

theorem Steady.keep (h : Steady S a b) : Steady S a b.keep := h.same rfl

theorem Steady.stop (h : Steady S a b) : Steady S a b.stop := h.same rfl

theorem Steady.drive (h : Steady S a b) (chunks deliveries : Nat) : Steady S a (b.drive chunks deliveries) := h.same rfl

theorem Steady.pass (h : Steady S a b) (packet : Packet) : Steady S a (b.pass packet) := h.same rfl

/-- Nothing that is sent says that a packet is too long. -/
theorem Steady.emit (h : Steady S a b) (outputs : List Output) (hnone : ∀ output ∈ outputs, ¬ output.oversized = true) :
    Steady S a { b with outputs := b.outputs ++ outputs } := by
  refine ⟨h.buffer, h.taken, h.framing, h.reads, h.closed, fun hstrict => ?_⟩
  show (b.outputs ++ outputs).countP Output.oversized = _
  rw [List.countP_append, List.countP_eq_zero.2 hnone]
  exact h.oversized hstrict

theorem Steady.reply (h : Steady S a b) (caller : Caller) {answer : Reply} (hanswer : answer ≠ .error .emsgsize) :
    Steady S a (b.reply caller answer) :=
  h.emit _ (by simpa [Output.oversized_iff] using hanswer)

theorem Steady.tell (h : Steady S a b) {message : Message} (hmessage : message ≠ .tcpError .emsgsize) :
    Steady S a (b.tell message) :=
  (h.emit [.message b.owner message] (by simpa [Output.oversized_iff] using hmessage)).same rfl

theorem Steady.cancelReadSelect (h : Steady S a b) : Steady S a b.cancelReadSelect := by
  refine ⟨h.buffer, h.taken, h.framing, ?_, h.closed, h.oversized⟩
  show b.read.map _ = none ∨ b.read.map _ = some activeRead ∨ ∃ read select, _ ∧ b.read.map _ = _
  rcases h.reads with hnone | hactive | ⟨read, select, hread, hsame⟩
  · rw [hnone]
    exact .inl rfl
  · rw [hactive]
    exact .inr (.inl rfl)
  · rw [hsame]
    exact .inr (.inr ⟨read, none, hread, rfl⟩)

theorem Steady.cancelWriteSelect (h : Steady S a b) : Steady S a b.cancelWriteSelect := h.same rfl

theorem Steady.ensureActiveRead (h : Steady S a b) : Steady S a b.ensureActiveRead := by
  unfold Adapter.ensureActiveRead
  split
  · exact h
  · split
    · exact h
    · exact ⟨h.buffer, h.taken, h.framing, .inr (.inl rfl), h.closed, h.oversized⟩

theorem Steady.scheduleReadContinuation (h : Steady S a b) : Steady S a b.scheduleReadContinuation := by
  unfold Adapter.scheduleReadContinuation
  split
  · exact h
  · exact h.same rfl

theorem Steady.scheduleActiveRead (h : Steady S a b) : Steady S a b.scheduleActiveRead := by
  unfold Adapter.scheduleActiveRead
  split
  · exact h
  · split
    · exact h.ensureActiveRead
    · exact h.ensureActiveRead.scheduleReadContinuation

theorem Steady.endRead (h : Steady S a b) : Steady S a b.endRead :=
  ⟨h.buffer, h.taken, h.framing, .inl rfl, h.closed, h.oversized⟩

theorem Steady.endActive (h : Steady S a b) : Steady S a b.endActive :=
  ⟨h.buffer, h.taken, h.framing, .inl rfl, h.closed, h.oversized⟩

theorem Steady.endWrite (h : Steady S a b) : Steady S a b.endWrite := by
  unfold Adapter.endWrite
  split
  · exact h
  · split
    · exact h.same rfl
    · split <;> exact h.same rfl

theorem Steady.replyTerminalRead (h : Steady S a b) (hreason : reason ≠ .emsgsize) :
    Steady S a (b.replyTerminalRead reason) := by
  unfold Adapter.replyTerminalRead
  split
  · exact h
  · split
    · exact h.reply _ (by simpa using hreason)
    · exact (h.tell (by simpa using hreason)).tell (by simp)

theorem writeErrorReply_ne (write : Write) (hreason : reason ≠ .emsgsize) :
    writeErrorReply write reason ≠ .error .emsgsize := by
  unfold writeErrorReply
  split
  · simp
  · simpa using hreason

theorem Steady.replyTerminalWrite (h : Steady S a b) (hreason : reason ≠ .emsgsize) :
    Steady S a (b.replyTerminalWrite reason) := by
  unfold Adapter.replyTerminalWrite
  split
  · exact h
  · exact h.reply _ (writeErrorReply_ne _ hreason)

theorem Steady.terminalConnectionFailure (h : Steady S a b) (hreason : reason ≠ .emsgsize) :
    Steady S a (b.terminalConnectionFailure reason) :=
  ((h.cancelReadSelect.cancelWriteSelect.replyTerminalRead hreason).replyTerminalWrite
    hreason).endWrite.endActive.stop

theorem Steady.tellTerminal (h : Steady S a b) (hreason : reason ≠ .emsgsize) :
    Steady S a (b.tellTerminal reason) := by
  unfold Adapter.tellTerminal
  split
  · exact h
  · split
    · exact h.tell (by simp)
    · exact (h.tell (by simpa using hreason)).tell (by simp)

theorem Steady.notifyActiveTerminal (h : Steady S a b) (hreason : reason ≠ .emsgsize) :
    Steady S a (b.notifyActiveTerminal reason) := by
  have htold := (h.tellTerminal hreason).endActive
  unfold Adapter.notifyActiveTerminal
  split
  · exact ⟨htold.buffer, htold.taken, htold.framing, htold.reads, fun _ => rfl, htold.oversized⟩
  · exact htold.stop

theorem Steady.readFailure (h : Steady S a b) (hreason : reason ≠ .emsgsize) :
    Steady S a (b.readFailure reason) := by
  unfold Adapter.readFailure
  split
  · exact h.keep
  · split
    · exact h.terminalConnectionFailure hreason
    · split
      · exact (h.reply _ (by simpa using hreason)).endRead.keep
      · exact h.notifyActiveTerminal hreason

theorem Steady.writeFailure (h : Steady S a b) (hreason : reason ≠ .emsgsize) :
    Steady S a (b.writeFailure reason) := by
  unfold Adapter.writeFailure
  split
  · exact h.keep
  · rename_i write _
    split
    · exact h.terminalConnectionFailure hreason
    · have hended := (h.reply write.caller (writeErrorReply_ne write hreason)).endWrite
      exact hended.same rfl

theorem Steady.consume (h : Steady S a b) : Steady S a b.consume := by
  unfold Adapter.consume
  split
  · have htold : Steady S a (b.tell .tcpPassive) := h.tell (by simp)
    exact htold.same rfl
  · exact h.same rfl

theorem Steady.tellPacket (h : Steady S a b) (packet : Packet) : Steady S a (b.tellPacket packet) :=
  ((h.pass packet).tell (by simp)).consume

theorem translateReason_ne (reason : LowReason) : translateReason reason ≠ .emsgsize := by
  cases reason <;> simp [translateReason]

theorem ioReason_ne (stackGone : Bool) (reason : LowReason) : ioReason stackGone reason ≠ .emsgsize := by
  unfold ioReason
  split
  · simp
  · exact translateReason_ne reason

theorem Steady.driveWrite (h : Steady S a b) (answer : SendAnswer) : Steady S a (b.driveWrite answer) := by
  unfold Adapter.driveWrite
  split
  · exact h.keep
  · rename_i write _
    split
    · have hreply : Steady S a (b.reply write.caller .ok) := h.reply write.caller (by simp)
      exact hreply.same rfl
    · exact h.same rfl
    · exact h.writeFailure (ioReason_ne _ _)

theorem Steady.tellReadClosed (h : Steady S a b) : Steady S a b.tellReadClosed := by
  unfold Adapter.tellReadClosed
  split
  · exact h
  · split
    · exact h.reply _ (by simp)
    · split
      · exact h
      · exact h.tell (by simp)

theorem Steady.closeReadDirection (h : Steady S a b) : Steady S a b.closeReadDirection := by
  have hended := h.cancelReadSelect.tellReadClosed.endActive
  exact ⟨hended.buffer, hended.taken, hended.framing, hended.reads, fun _ => rfl, hended.oversized⟩

theorem Steady.forward (h : Steady S a b) (messages : List Message) : Steady S a (b.forward messages) :=
  h.emit _ (by simp [Output.oversized_iff])

theorem Steady.failRead (h : Steady S a b) (hreason : reason ≠ .emsgsize) :
    Steady S a (b.failRead reason) := by
  have htold : Steady S a ((b.tell (.tcpError reason)).tell .tcpClosed) :=
    (h.tell (by simpa using hreason)).tell (by simp)
  unfold Adapter.failRead
  split
  · split
    · exact h
    · exact htold
  · split
    · exact h.reply _ (by simpa using hreason)
    · split
      · exact h
      · exact htold

theorem Steady.failAll (h : Steady S a b) (hreason : reason ≠ .emsgsize) : Steady S a (b.failAll reason) :=
  ((h.failRead hreason).replyTerminalWrite hreason).endWrite.endRead

theorem Steady.handleSelect (h : Steady S a b) (ref : Ref) (answer : SendAnswer) :
    Steady S a (b.handleSelect ref answer) := by
  unfold Adapter.handleSelect
  split
  · exact h.cancelReadSelect.drive _ _
  · split
    · exact h.cancelWriteSelect.driveWrite answer
    · exact h.keep

theorem Steady.handleAbort (h : Steady S a b) (ref : Ref) (reason : LowReason) :
    Steady S a (b.handleAbort ref reason) := by
  unfold Adapter.handleAbort
  split
  · exact (h.failAll (by simp)).stop
  · split
    · exact h.cancelReadSelect.readFailure (translateReason_ne reason)
    · split
      · exact h.cancelWriteSelect.writeFailure (translateReason_ne reason)
      · exact h.keep

theorem Steady.readTimeout (h : Steady S a b) (token : Ref) : Steady S a (b.readTimeout token) := by
  unfold Adapter.readTimeout
  split
  · split
    · exact (h.reply _ (by simp)).endRead.keep
    · exact h.keep
  · exact h.keep

theorem Steady.writeTimeout (h : Steady S a b) (token : Ref) : Steady S a (b.writeTimeout token) := by
  unfold Adapter.writeTimeout
  split
  · exact h.keep
  · rename_i write _
    split
    · have hreply : Steady S a (b.reply write.caller (writeErrorReply write .timeout)) :=
        h.reply write.caller (writeErrorReply_ne write (by simp))
      have hended := hreply.endWrite
      split
      · exact hended.stop
      · exact hended.keep
    · exact h.keep

theorem Steady.shutdown (h : Steady S a b) (caller : Caller) (how : How) (answer : Option LowReason) :
    Steady S a (b.shutdown caller how answer) := by
  unfold Adapter.shutdown
  split
  · split
    · exact (h.reply _ (by simp)).keep
    · exact (h.closeReadDirection.reply _ (by simp)).keep
  · exact (h.reply _ (by simpa using translateReason_ne _)).keep

theorem Steady.beginTransfer (h : Steady S a b) (caller : Caller) (newOwner : Pid) (alive : Bool)
    (token : Ref) : Steady S a (b.beginTransfer caller newOwner alive token) := by
  unfold Adapter.beginTransfer
  split
  · exact (h.reply _ (by simp)).keep
  · split
    · exact (h.reply _ (by simp)).keep
    · split
      · exact (h.reply _ (by simp)).keep
      · split
        · have hbegun : Steady S a { b with transfer := some ⟨token, b.owner, newOwner⟩ } :=
            h.same rfl
          exact (hbegun.reply _ (by simp)).keep
        · exact (h.reply _ (by simp)).keep

theorem Steady.commitTransfer (h : Steady S a b) (caller : Caller) (token : Ref) (messages : List Message)
    (alive : Bool) : Steady S a (b.commitTransfer caller token messages alive) := by
  unfold Adapter.commitTransfer Adapter.commitWith
  split
  · exact (h.reply _ (by simp)).keep
  · rename_i transfer _
    split
    · exact (h.reply _ (by simp)).keep
    · split
      · exact (h.reply _ (by simp)).keep
      · split
        · have hended : Steady S a { b with owner := transfer.newOwner, transfer := none } :=
            h.same rfl
          exact ((hended.forward messages).scheduleActiveRead.reply _ (by simp)).keep
        · have hended : Steady S a { b with transfer := none } :=
            h.same rfl
          exact (hended.scheduleActiveRead.reply _ (by simp)).keep

theorem Steady.drainActive (h : Steady S a b) : Steady S a b.drainActive := by
  have hbegun : Steady S a { b with readScheduled := false } :=
    h.same rfl
  exact hbegun.ensureActiveRead.drive _ _

theorem Steady.continueRead (h : Steady S a b) : Steady S a b.continueRead := h.same rfl

theorem Steady.terminateShutdown (h : Steady S a b) : Steady S a b.terminateShutdown := by
  unfold Adapter.terminateShutdown
  split
  · exact (h.failAll (by simp)).stop
  · exact h.stop

/-! ## One step -/

/-- What the pending read finds at the head of the buffer. -/
def extraction (a : Adapter) (read : Read) : Extraction :=
  extract a.readBuffer a.options.packet read.length a.options.packetSize

/-- Whether new options may stand with the buffer and the read that there are. -/
structure Admits (a : Adapter) (updated : Options) : Prop where
  passive : ∀ read, a.read = some read → read.kind.isActive = false → framing updated = framing a.options
  other : (∀ read, a.read = some read → read.kind.isActive = true) →
    a.readBuffer.length ≤ receiveLimit updated ∧
      (a.readBuffer = [] ∨
        updated.packet = a.options.packet ∧ updated.packetSize = a.options.packetSize)

end Adapter

open Adapter

/-- What one step does to the buffer and the read; the last two ways end the process. -/
inductive Shift (a b : Adapter) : Event → Prop
  | steady {event : Event} : Steady (b.control = .stopped) a b → Shift a b event
  | accept {caller : Caller} {length : Nat} {timer : Option Ref} : a.options.active = .off → a.read = none →
      Steady True { a with read := some ⟨.passive caller timer, length, none⟩ } b →
      Shift a b (.recv caller length timer)
  | append {answer : RecvAnswer} {read : Read} {bytes : Packet} : a.read = some read →
      answer.bytes? = some bytes → bytes.length + a.readBuffer.length ≤ a.readCapacity read →
      a.readClosed = false →
      Steady True { a with readBuffer := a.readBuffer ++ bytes, taken := a.taken ++ bytes } b →
      Shift a b (.drive answer)
  | remove {answer : RecvAnswer} {read : Read} {packet rest : Packet} : a.read = some read →
      a.extraction read = .ok packet rest → Steady True { a with readBuffer := rest } b →
      Shift a b (.drive answer)
  | flush {answer : RecvAnswer} : a.readClosed = true → Steady True { a with readBuffer := [] } b →
      Shift a b (.drive answer)
  | prepend {caller : Caller} {value : Packet} : a.read = none →
      value.length + a.readBuffer.length ≤ receiveLimit a.options →
      Steady True { a with readBuffer := value ++ a.readBuffer } b → Shift a b (.unrecv caller (some value))
  | change {caller : Caller} {settings : List Setting} {nodelay keepalive : Option LowReason}
      {updated : Options} : a.checkOptions settings nodelay keepalive = .ok updated → a.Admits updated →
      Steady True { a with options := updated } b →
      Shift a b (.setopts caller settings nodelay keepalive)
  | refuse {answer : RecvAnswer} {read : Read} : a.read = some read → a.extraction read = .more →
      b.control = .stopped → (a.readCapacity read ≤ a.readBuffer.length ∨
        ∃ bytes, answer.bytes? = some bytes ∧ a.readCapacity read < bytes.length + a.readBuffer.length) →
      Shift a b (.drive answer)
  | overflow {answer : RecvAnswer} {read : Read} {e : FramingError} : a.read = some read →
      a.extraction read = .error e → b.control = .stopped → Shift a b (.drive answer)

namespace Adapter

variable {S : Prop} {a b : Adapter} {event : Event}

theorem Steady.shift (h : Steady True a b) : Shift a b event := .steady (h.mono fun _ => trivial)

/-- A call is refused, and the process goes on. -/
theorem shift_refuse (a : Adapter) (caller : Caller) (answer : Reply) (event : Event) :
    Shift a (a.reply caller answer).keep event := by
  have hsame := Steady.refl True a
  refine .steady ⟨hsame.buffer, hsame.taken, hsame.framing, hsame.reads, hsame.closed, fun hstopped => ?_⟩
  cases hstopped

/-- A read that fails as too long ends the process. -/
theorem readFailure_oversized {read : Read} (hread : a.read = some read) :
    (a.readFailure .emsgsize).control = .stopped := by
  simp only [readFailure, hread, isTerminal]
  rw [if_neg (by decide)]
  split <;> rfl

theorem shift_recv (a : Adapter) (caller : Caller) (length : Nat) (timer : Option Ref) :
    Shift a (a.recv caller length timer) (.recv caller length timer) := by
  have hsame := Steady.refl True a
  unfold recv
  split
  · exact shift_refuse a caller _ _
  · rename_i hoff
    split
    · exact shift_refuse a caller _ _
    · rename_i hread
      split
      · exact shift_refuse a caller _ _
      · exact .accept (by simpa using hoff) (by simpa using hread) ((Steady.refl True _).drive _ _)

theorem shift_unrecv (a : Adapter) (caller : Caller) (value : Option Packet) :
    Shift a (a.unrecv caller value) (.unrecv caller value) := by
  have hsame := Steady.refl True a
  unfold unrecv
  split
  · exact shift_refuse a caller _ _
  · rename_i hread
    split
    · exact shift_refuse a caller _ _
    · rename_i bytes
      split
      · rename_i hroom
        apply Shift.prepend (by simpa using hread) hroom
        have hput : Steady True { a with readBuffer := bytes ++ a.readBuffer }
            (({ a with readBuffer := bytes ++ a.readBuffer } : Adapter).reply caller .ok) :=
          (Steady.refl True _).reply caller (by simp)
        exact hput.same rfl
      · exact shift_refuse a caller _ _

theorem shift_send (a : Adapter) (caller : Caller) (payload : Option Packet) (timer : Option Ref)
    (answer : SendAnswer) : Shift a (a.send caller payload timer answer) (.send caller payload timer answer) := by
  have hsame := Steady.refl True a
  unfold send
  split
  · exact shift_refuse a caller _ _
  · split
    · exact shift_refuse a caller _ _
    · split
      · exact shift_refuse a caller _ _
      · rename_i bytes
        split
        · rename_i framed _
          have hnew : Steady True a (a.newWrite caller bytes framed timer) :=
            hsame.same rfl
          exact (hnew.driveWrite answer).shift
        · exact shift_refuse a caller _ _

theorem admits_of_allowed {updated : Options} (h : a.optionChangeAllowed updated = .ok ()) :
    a.Admits updated := by
  unfold optionChangeAllowed at h
  split at h
  · rename_i caller timer length select hread
    split at h
    · cases h
    · rename_i hsame
      push Not at hsame
      refine ⟨?_, ?_⟩
      · intro _ _ _
        simp only [framing, hsame.2.2.1, hsame.2.2.2.1, hsame.2.2.2.2]
      · intro hactive
        have := hactive _ hread
        cases this
  · rename_i hother
    split at h
    · cases h
    · rename_i hframing
      split at h
      · cases h
      · rename_i hlimit
        refine ⟨?_, ?_⟩
        · intro read hread hpassive
          obtain ⟨kind, length, select⟩ := read
          cases kind with
          | active => cases hpassive
          | passive caller timer => exact absurd hread (hother caller timer length select)
        · intro _
          refine ⟨Nat.le_of_not_lt hlimit, ?_⟩
          by_cases hempty : a.readBuffer = []
          · exact .inl hempty
          · right
            by_contra hchanged
            apply hframing
            refine ⟨?_, hempty⟩
            by_contra hsame
            push Not at hsame
            exact hchanged ⟨hsame.1.symm, hsame.2.2.symm⟩

theorem steady_applyActiveChange (a : Adapter) (settings : List Setting) (updated : Options) :
    Steady True { a with options := updated } ((a.restart settings updated).applyActiveChange updated) := by
  have hrestart : Steady True { a with options := updated } { a.restart settings updated with options := updated } := by
    have hsame := Steady.refl True { a with options := updated }
    unfold restart
    split <;> exact hsame.same rfl
  unfold applyActiveChange
  split
  · refine ⟨hrestart.buffer, hrestart.taken, hrestart.framing, ?_, hrestart.closed, hrestart.oversized⟩
    have hread : (a.restart settings updated).read = a.read := by
      unfold restart
      split <;> rfl
    cases hkept : (a.restart settings updated).read.filter fun read => !read.kind.isActive with
    | none => exact .inl rfl
    | some read =>
        have hpending := (Option.filter_eq_some_iff.1 hkept).1
        rw [hread] at hpending
        exact .inr (.inr ⟨read, read.select, hpending, rfl⟩)
  · exact hrestart.ensureActiveRead.scheduleReadContinuation

theorem shift_setOptions (a : Adapter) (caller : Caller) (settings : List Setting)
    (nodelay keepalive : Option LowReason) :
    Shift a (a.setOptions caller settings nodelay keepalive) (.setopts caller settings nodelay keepalive) := by
  unfold setOptions
  split
  · rename_i updated hcheck
    exact .change hcheck (admits_of_allowed (checkOptions_ok hcheck).2)
      ((steady_applyActiveChange a settings updated).reply caller (by simp)).keep
  · exact shift_refuse a caller _ _

/-! ## `drive_read` -/

theorem Steady.deliverReadPacket (h : Steady S a b) (read : Read) (packet : Packet) (chunks deliveries : Nat) :
    Steady S a (b.deliverReadPacket read packet chunks deliveries) := by
  unfold Adapter.deliverReadPacket
  split
  · exact ((h.pass packet).reply _ (by simp)).endRead.keep
  · split
    · exact (h.tellPacket packet).endRead.keep
    · exact (h.tellPacket packet).drive _ _

theorem Steady.afterLastLine (h : Steady S a b) (chunks deliveries : Nat) :
    Steady S a (b.afterLastLine chunks deliveries) := by
  unfold Adapter.afterLastLine
  split
  · exact h.endRead.keep
  · split
    · split
      · exact h.notifyActiveTerminal (by simp)
      · exact h.scheduleReadContinuation.notifyActiveTerminal (by simp)
    · exact h.drive _ _

theorem steady_passiveEofReply (a : Adapter) (caller : Caller) :
    Steady True { a with readBuffer := [] } (a.passiveEofReply caller) := by
  have hflushed := Steady.refl True { a with readBuffer := [] }
  unfold passiveEofReply
  split
  · have hdata : Reply.data a.options.mode a.readBuffer ≠ .error .emsgsize := by simp
    have hreply := (hflushed.pass a.readBuffer).reply caller hdata
    exact ⟨rfl, hreply.taken, hreply.framing, hreply.reads, hreply.closed, hreply.oversized⟩
  · have hclosed : Reply.error .closed ≠ .error .emsgsize := by simp
    have hreply := hflushed.reply caller hclosed
    exact ⟨rfl, hreply.taken, hreply.framing, hreply.reads, hreply.closed, hreply.oversized⟩

theorem shift_finishEof (hclosed : a.readClosed = true) (read : Read) (chunks deliveries : Nat)
    (answer : RecvAnswer) : Shift a (a.finishEof read chunks deliveries) (.drive answer) := by
  unfold finishEof
  split
  · exact .flush hclosed (steady_passiveEofReply a _).endRead.keep
  · split
    · exact .flush hclosed (((Steady.refl True { a with readBuffer := [] }).tellPacket _).afterLastLine _ _)
    · exact ((Steady.refl True a).notifyActiveTerminal (by simp)).shift

theorem shift_appendReadData {read : Read} (hread : a.read = some read) (hmore : a.extraction read = .more)
    (hclosed : a.readClosed = false) {answer : RecvAnswer} {bytes : Packet} (hbytes : answer.bytes? = some bytes)
    (select : Option Ref) (chunks deliveries : Nat) :
    Shift a (a.appendReadData read bytes select chunks deliveries) (.drive answer) := by
  unfold appendReadData
  split
  · rename_i hroom
    apply Shift.append hread hbytes hroom hclosed
    exact ⟨rfl, rfl, rfl, .inr (.inr ⟨read, _, hread, rfl⟩), id, fun _ => rfl⟩
  · rename_i hfull
    apply Shift.refuse hread hmore
    · exact readFailure_oversized (a := { a with taken := a.taken ++ bytes }) hread
    · exact .inr ⟨bytes, hbytes, Nat.lt_of_not_le hfull⟩

theorem shift_fetchReadData {read : Read} (hread : a.read = some read) (hmore : a.extraction read = .more)
    (hclosed : a.readClosed = false) (chunks deliveries : Nat) (answer : RecvAnswer) :
    Shift a (a.fetchReadData read chunks deliveries answer) (.drive answer) := by
  have hsame := Steady.refl True a
  unfold fetchReadData
  split
  · rename_i hfull
    exact .refuse hread hmore (readFailure_oversized hread) (.inl hfull)
  · cases answer with
    | ok bytes => exact shift_appendReadData hread hmore hclosed rfl none chunks deliveries
    | selectWith ref bytes => exact shift_appendReadData hread hmore hclosed rfl (some ref) chunks deliveries
    | select ref =>
        apply Shift.steady
        exact ⟨rfl, rfl, rfl, .inr (.inr ⟨read, some ref, hread, rfl⟩), id, fun _ => rfl⟩
    | error reason =>
        apply Shift.steady
        dsimp only
        split
        · split
          · exact (hsame.readFailure (by simp)).mono fun _ => trivial
          · exact ⟨rfl, rfl, rfl, hsame.reads, fun _ => rfl, fun _ => rfl⟩
        · exact (hsame.readFailure (ioReason_ne _ _)).mono fun _ => trivial

theorem shift_driveRead (a : Adapter) (chunks deliveries : Nat) (answer : RecvAnswer) :
    Shift a (a.driveRead chunks deliveries answer) (.drive answer) := by
  have hsame := Steady.refl True a
  unfold driveRead
  split
  · exact hsame.keep.shift
  · rename_i read hread
    split
    · exact hsame.keep.shift
    · split
      · split
        · exact hsame.keep.shift
        · exact hsame.scheduleReadContinuation.keep.shift
      · split
        · rename_i packet rest hok
          apply Shift.remove hread hok
          exact (Steady.refl True { a with readBuffer := rest }).cancelReadSelect.deliverReadPacket _ _ _ _
        · rename_i hmore
          split
          · rename_i hclosed
            exact shift_finishEof hclosed read chunks deliveries answer
          · rename_i hopen
            split
            · exact hsame.keep.shift
            · exact shift_fetchReadData hread hmore (by simpa using hopen) chunks deliveries answer
        · rename_i hlong
          exact .overflow hread hlong (readFailure_oversized hread)

theorem shift_handle (h : a.handle event = some b) : Shift a b event := by
  have hsame := Steady.refl True a
  cases event
  case drive answer =>
    simp only [handle] at h
    split at h
    · obtain rfl := Option.some.inj h
      exact shift_driveRead a _ _ answer
    · cases h
  case stackExits =>
    obtain rfl := Option.some.inj h
    exact .steady ⟨rfl, rfl, rfl, hsame.reads, id, fun _ => rfl⟩
  all_goals obtain ⟨-, rfl⟩ := Transition.guarded h
  case drainActive => exact hsame.drainActive.shift
  case continueRead => exact hsame.continueRead.shift
  case select ref answer =>
    have hhandling : Steady True a (a.handling ref) := ⟨rfl, rfl, rfl, hsame.reads, id, fun _ => rfl⟩
    exact (hhandling.handleSelect ref answer).shift
  case abort ref reason =>
    have hhandling : Steady True a (a.handling ref) := ⟨rfl, rfl, rfl, hsame.reads, id, fun _ => rfl⟩
    exact (hhandling.handleAbort ref reason).shift
  case readTimeout token => exact (hsame.readTimeout token).shift
  case writeTimeout token => exact (hsame.writeTimeout token).shift
  case ownerDown => exact hsame.stop.shift
  case stackDown => exact (hsame.failAll (by simp)).stop.shift
  case shutdownExit => exact hsame.terminateShutdown.shift
  case send caller payload timer answer => exact shift_send a caller payload timer answer
  case recv caller length timer => exact shift_recv a caller length timer
  case unrecv caller value => exact shift_unrecv a caller value
  case shutdown caller how answer => exact (hsame.shutdown caller how answer).shift
  case close caller => exact (hsame.reply caller (by simp)).stop.shift
  case setopts caller settings nodelay keepalive => exact shift_setOptions a caller settings nodelay keepalive
  case beginTransfer caller newOwner alive token =>
    exact (hsame.beginTransfer caller newOwner alive token).shift
  case commitTransfer caller token messages alive =>
    exact (hsame.commitTransfer caller token messages alive).shift
  case unsupported caller => exact shift_refuse a caller _ _

theorem Steady.unissue {c : Adapter} {issued : List Ref} (h : Steady S { c with issued := issued } b) :
    Steady S c b := ⟨h.buffer, h.taken, h.framing, h.reads, h.closed, h.oversized⟩

theorem shift_step (h : a.step event = some b) : Shift a b event := by
  unfold step at h
  split at h
  · cases shift_handle h with
    | steady hb => exact .steady hb.unissue
    | accept hoff hread hb => exact .accept hoff hread hb.unissue
    | append hread hbytes hroom hclosed hb => exact .append hread hbytes hroom hclosed hb.unissue
    | remove hread hok hb => exact .remove hread hok hb.unissue
    | flush hclosed hb => exact .flush hclosed hb.unissue
    | prepend hread hroom hb => exact .prepend hread hroom hb.unissue
    | change hcheck hadmits hb => exact .change hcheck ⟨hadmits.passive, hadmits.other⟩ hb.unissue
    | refuse hread hmore hstopped hfull => exact .refuse hread hmore hstopped hfull
    | overflow hread hlong hstopped => exact .overflow hread hlong hstopped
  · cases h

/-! ## Room for what is asked for -/

/-- A turn of `drive_read` that asks the stack for data. -/
structure Fetching (a : Adapter) (read : Read) : Prop where
  driving : ∃ chunks deliveries, a.control = .driving chunks deliveries ∧ 0 < chunks ∧ 0 < deliveries
  pending : a.read = some read
  transfer : a.transfer = none
  more : a.extraction read = .more
  opened : a.readClosed = false
  select : read.select = none

/-- An active read asks for no length. -/
def Plain (a : Adapter) : Prop := ∀ read, a.read = some read → read.kind.isActive = true → read.length = 0

theorem receiveLimit_le_capacity (a : Adapter) (read : Read) : receiveLimit a.options ≤ a.readCapacity read := by
  unfold readCapacity
  split
  · exact Nat.le_max_right _ _
  · exact le_refl _

/-- Where the buffer holds no packet, there is room for more. -/
theorem Plain.room (h : Plain a) {read : Read} (hread : a.read = some read) (hmore : a.extraction read = .more) :
    a.readBuffer.length < a.readCapacity read := by
  have hlimit := receiveLimit_le_capacity a read
  rcases extract_more_length a.options.packetSize_pos hmore with hshort | ⟨hraw, hpositive, hshort⟩
  · have : a.options.packetSize + 4 ≤ receiveLimit a.options := Nat.le_max_right _ _
    omega
  · have hpassive : read.kind.isActive = false := by
      cases hkind : read.kind.isActive with
      | false => rfl
      | true =>
          have := h read hread hkind
          omega
    rw [readCapacity, if_pos ⟨hraw, hpassive, hpositive⟩]
    exact Nat.lt_of_lt_of_le hshort (Nat.le_max_left _ _)

theorem readRequest_le (a : Adapter) (read : Read) (available : Nat) : a.readRequest read available ≤ available := by
  unfold readRequest
  split
  · exact Nat.min_le_right _ _
  · exact le_refl _

/-- The stack returns at most what it was asked for. -/
def Honoured (a : Adapter) (event : Event) : Prop :=
  (a.read.all fun read => event.bytes?.all fun bytes =>
    decide (bytes.length ≤ a.readRequest read (a.readCapacity read - a.readBuffer.length))) = true

instance (a : Adapter) (event : Event) : Decidable (a.Honoured event) :=
  inferInstanceAs (Decidable (_ = true))

theorem Honoured.fits {answer : RecvAnswer} (h : a.Honoured (.drive answer)) {read : Read}
    (hread : a.read = some read) {bytes : Packet} (hbytes : answer.bytes? = some bytes)
    (hroom : a.readBuffer.length < a.readCapacity read) :
    bytes.length + a.readBuffer.length ≤ a.readCapacity read := by
  have hrequest : bytes.length ≤ a.readRequest read (a.readCapacity read - a.readBuffer.length) := by
    simpa [Honoured, Event.bytes?, hread, hbytes] using h
  have := readRequest_le a read (a.readCapacity read - a.readBuffer.length)
  omega

theorem Steady.plain (h : Steady S a b) (ha : Plain a) : Plain b := by
  intro read hread hkind
  rcases h.reads with hnone | hactive | ⟨old, select, hold, hsame⟩
  · rw [hnone] at hread
    cases hread
  · obtain rfl : activeRead = read := Option.some.inj (hactive.symm.trans hread)
    rfl
  · obtain rfl : { old with select := select } = read := Option.some.inj (hsame.symm.trans hread)
    exact ha old hold hkind

/-- The process has stopped, or its reads are plain. -/
theorem shift_plain (h : Shift a b event) (ha : Plain a) (hrunning : b.control ≠ .stopped) : Plain b := by
  cases h with
  | steady hb => exact hb.plain ha
  | accept _ _ hb =>
      apply hb.plain
      intro read hread hkind
      obtain rfl := Option.some.inj hread
      cases hkind
  | append _ _ _ _ hb => exact hb.plain ha
  | remove _ _ hb => exact hb.plain ha
  | flush _ hb => exact hb.plain ha
  | prepend _ _ hb => exact hb.plain ha
  | change _ _ hb => exact hb.plain ha
  | refuse _ _ hstopped _ => exact absurd hstopped hrunning
  | overflow _ _ hstopped => exact absurd hstopped hrunning

/-- A step that ends the process as too long has found a packet that is. -/
theorem shift_oversized (h : Shift a b event) (ha : Plain a) (hhonoured : a.Honoured event)
    (hstopped : b.control = .stopped) (hmore : a.oversized < b.oversized) :
    ∃ read e, a.read = some read ∧ a.extraction read = .error e := by
  cases h with
  | steady hb => exact absurd (hb.oversized hstopped) (Nat.ne_of_gt hmore)
  | accept _ _ hb => exact absurd (hb.oversized trivial) (Nat.ne_of_gt hmore)
  | append _ _ _ _ hb => exact absurd (hb.oversized trivial) (Nat.ne_of_gt hmore)
  | remove _ _ hb => exact absurd (hb.oversized trivial) (Nat.ne_of_gt hmore)
  | flush _ hb => exact absurd (hb.oversized trivial) (Nat.ne_of_gt hmore)
  | prepend _ _ hb => exact absurd (hb.oversized trivial) (Nat.ne_of_gt hmore)
  | change _ _ hb => exact absurd (hb.oversized trivial) (Nat.ne_of_gt hmore)
  | refuse hread hempty _ hfull =>
      have hroom := ha.room hread hempty
      rcases hfull with hfull | ⟨bytes, hbytes, hfull⟩
      · omega
      · have := hhonoured.fits hread hbytes hroom
        omega
  | overflow hread hlong _ => exact ⟨_, _, hread, hlong⟩

/-! ## How long the buffer gets -/

/-- The length of the passive raw read that an event begins. -/
def issuedLength (a : Adapter) : Event → Nat
  | .recv _ length _ => if a.options.packet = .raw ∧ a.options.active = .off ∧ a.read = none then length else 0
  | _ => 0

/-- The buffer is within what the options, or a raw read of at most a length, allow. -/
structure Bounded (a : Adapter) (largest : Nat) : Prop where
  plain : a.Plain
  asked : ∀ read, a.read = some read → read.kind.isActive = false → a.options.packet = .raw →
    read.length ≤ largest
  buffer : a.readBuffer.length ≤ max (receiveLimit a.options) largest

theorem framing_packet {options updated : Options} (h : framing updated = framing options) :
    updated.packet = options.packet := congrArg Prod.fst h

/-- A step that leaves buffer and read as they are keeps the bounds. -/
theorem Steady.bounded {n m : Nat} (h : Steady S a b) (hnm : n ≤ m) (ha : Bounded a n) : Bounded b m := by
  refine ⟨h.plain ha.plain, ?_, ?_⟩
  · intro read hread hkind hraw
    have hraw' : a.options.packet = .raw := by
      rw [← framing_packet h.framing]
      exact hraw
    rcases h.reads with hnone | hactive | ⟨old, select, hold, hsame⟩
    · rw [show b.read = none from hnone] at hread
      cases hread
    · obtain rfl : activeRead = read := Option.some.inj (hactive.symm.trans hread)
      cases hkind
    · obtain rfl : { old with select := select } = read := Option.some.inj (hsame.symm.trans hread)
      exact Nat.le_trans (ha.asked old hold hkind hraw') hnm
  · have hbuffer := ha.buffer
    show b.readBuffer.length ≤ max (receiveLimit b.options) m
    rw [h.buffer, receiveLimit_framing h.framing]
    omega

theorem Bounded.rebuffer {n : Nat} (h : Bounded a n) {buffer : Packet}
    (hbuffer : buffer.length ≤ max (receiveLimit a.options) n) (taken : Packet) :
    Bounded { a with readBuffer := buffer, taken := taken } n := ⟨h.plain, h.asked, hbuffer⟩

theorem readCapacity_le {n : Nat} (h : Bounded a n) {read : Read} (hread : a.read = some read) :
    a.readCapacity read ≤ max (receiveLimit a.options) n := by
  unfold readCapacity
  split
  · rename_i hraw
    have := h.asked read hread hraw.2.1 hraw.1
    omega
  · exact Nat.le_max_left _ _

theorem bounded_shift {n : Nat} (h : Shift a b event) (ha : Bounded a n) (hrunning : b.control ≠ .stopped) :
    Bounded b (max n (a.issuedLength event)) := by
  have hle : n ≤ max n (a.issuedLength event) := Nat.le_max_left _ _
  have hbuffer := ha.buffer
  cases h with
  | steady hb => exact hb.bounded hle ha
  | accept hoff hread hb =>
      rename_i caller length timer
      apply hb.bounded (le_refl _)
      refine ⟨?_, ?_, ?_⟩
      · intro read hbegun hkind
        obtain rfl := Option.some.inj hbegun
        cases hkind
      · intro read hbegun _ hraw
        obtain rfl := Option.some.inj hbegun
        have hraw' : a.options.packet = .raw := hraw
        show length ≤ max n (a.issuedLength (.recv caller length timer))
        rw [issuedLength, if_pos ⟨hraw', hoff, hread⟩]
        exact Nat.le_max_right _ _
      · show a.readBuffer.length ≤ max (receiveLimit a.options) _
        omega
  | append hread _ hroom _ hb =>
      apply hb.bounded hle
      apply ha.rebuffer
      have := readCapacity_le ha hread
      rw [List.length_append]
      omega
  | remove hread hok hb =>
      apply hb.bounded hle
      apply ha.rebuffer
      have := extract_shorter hok
      omega
  | flush _ hb =>
      apply hb.bounded hle
      apply ha.rebuffer
      exact Nat.zero_le _
  | prepend _ hroom hb =>
      apply hb.bounded hle
      apply ha.rebuffer
      rw [List.length_append]
      omega
  | change _ hadmits hb =>
      apply hb.bounded hle
      by_cases hpassive : ∃ read, a.read = some read ∧ read.kind.isActive = false
      · obtain ⟨read, hread, hkind⟩ := hpassive
        have hsame := hadmits.passive read hread hkind
        refine ⟨ha.plain, ?_, ?_⟩
        · intro read hread hkind hraw
          apply ha.asked read hread hkind
          show a.options.packet = .raw
          rw [← framing_packet hsame]
          exact hraw
        · apply Nat.le_trans hbuffer
          rw [← receiveLimit_framing hsame]
      · push Not at hpassive
        have hactive : ∀ read, a.read = some read → read.kind.isActive = true := by
          intro read hread
          simpa using hpassive read hread
        refine ⟨ha.plain, ?_, ?_⟩
        · intro read hread hkind
          have hkind' := hactive read hread
          rw [hkind] at hkind'
          cases hkind'
        · exact Nat.le_trans (hadmits.other hactive).1 (Nat.le_max_left _ _)
  | refuse _ _ hstopped _ => exact absurd hstopped hrunning
  | overflow _ _ hstopped => exact absurd hstopped hrunning

/-! ## Streams whose frames fit -/

/-- What the stack will still return of a stream. -/
def ahead (a : Adapter) (stream : Packet) : Packet :=
  if a.readClosed then [] else stream.drop a.taken.length

/-- The stack returns a stream piece by piece.  What is put back, or framed anew, makes a stream of packets
that fit again. -/
def Streams (stream : Packet) (a : Adapter) : Event → Prop
  | .drive answer => ∀ bytes, answer.bytes? = some bytes → a.taken ++ bytes <+: stream
  | .unrecv _ value => ∀ bytes, value = some bytes → a.read = none →
      bytes.length + a.readBuffer.length ≤ receiveLimit a.options →
      Fits a.options.packet a.options.packetSize (bytes ++ a.readBuffer ++ a.ahead stream)
  | .setopts _ settings nodelay keepalive => ∀ updated,
      a.checkOptions settings nodelay keepalive = .ok updated →
      Fits updated.packet updated.packetSize (a.readBuffer ++ a.ahead stream)
  | _ => True

/-- The buffer and what is ahead of it are packets that fit. -/
def Fitted (stream : Packet) (a : Adapter) : Prop :=
  Fits a.options.packet a.options.packetSize (a.readBuffer ++ a.ahead stream)

variable {stream : Packet}

theorem fits_ahead {option : PacketOption} {packetSize : Nat} {buffer : Packet}
    (h : Fits option packetSize (buffer ++ a.ahead stream)) (htaken : b.taken = a.taken)
    (hclosed : a.readClosed = true → b.readClosed = true) :
    Fits option packetSize (buffer ++ b.ahead stream) := by
  unfold ahead at h ⊢
  by_cases hb : b.readClosed = true
  · rw [if_pos hb, List.append_nil]
    exact h.of_append
  · have ha : ¬ a.readClosed = true := fun ha => hb (hclosed ha)
    rw [if_neg hb, htaken]
    rw [if_neg ha] at h
    exact h

theorem Steady.fitted (h : Steady S a b) (ha : Fitted stream a) : Fitted stream b := by
  obtain ⟨hpacket, hsize, -⟩ := Prod.mk.inj h.framing |>.imp id Prod.mk.inj
  unfold Fitted
  rw [h.buffer, hpacket, hsize]
  exact fits_ahead ha h.taken h.closed

theorem fitted_shift (h : Shift a b event) (ha : Fitted stream a) (hstreams : Streams stream a event)
    (hrunning : b.control ≠ .stopped) : Fitted stream b := by
  cases h with
  | steady hb => exact hb.fitted ha
  | accept _ _ hb => exact hb.fitted ha
  | append hread hbytes hroom hopen hb =>
      rename_i read bytes
      apply hb.fitted
      obtain ⟨rest, rfl⟩ := hstreams _ hbytes
      -- the bytes are taken off the stream and put behind the buffer
      have hahead : a.ahead (a.taken ++ bytes ++ rest) = bytes ++ rest := by
        rw [ahead, hopen, if_neg (by decide), List.append_assoc, List.drop_left' rfl]
      unfold Fitted at ha ⊢
      rw [hahead] at ha
      show Fits a.options.packet a.options.packetSize (a.readBuffer ++ bytes ++
        if a.readClosed then [] else (a.taken ++ bytes ++ rest).drop (a.taken ++ bytes).length)
      rw [hopen, if_neg (by decide), List.drop_left' rfl, List.append_assoc]
      exact ha
  | remove hread hok hb =>
      apply hb.fitted
      exact (ha.extract a.options.packetSize_pos).2 _ _ hok
  | flush hclosed hb =>
      apply hb.fitted
      show Fits a.options.packet a.options.packetSize ([] ++ if a.readClosed then [] else _)
      rw [if_pos hclosed]
      intro _
      exact ⟨[], [], by simp, rfl⟩
  | prepend hread hroom hb =>
      apply hb.fitted
      exact hstreams _ rfl hread hroom
  | change hcheck _ hb =>
      apply hb.fitted
      exact hstreams _ hcheck
  | refuse _ _ hstopped _ => exact absurd hstopped hrunning
  | overflow _ _ hstopped => exact absurd hstopped hrunning

/-! ## Whole runs -/

/-- An adapter with the length of the largest passive raw read so far. -/
structure Observed where
  adapter : Adapter
  largest : Nat
deriving DecidableEq, Repr

def Observed.step (o : Observed) (event : Event) : Option Observed :=
  (o.adapter.step event).map fun b => ⟨b, max o.largest (o.adapter.issuedLength event)⟩

def Observed.Initial (o : Observed) : Prop := o.adapter.Initial ∧ o.largest = 0

theorem steady_initial (h : a.Initial) :
    ∃ owner options control, Steady True (start owner options control) a := by
  obtain ⟨owner, options, rfl | rfl⟩ := h
  · exact ⟨owner, options, .draining, Steady.refl True _⟩
  · exact ⟨owner, options, .idle, (Steady.refl True _).scheduleActiveRead⟩

theorem bounded_initial (h : a.Initial) : Bounded a 0 := by
  obtain ⟨owner, options, control, hstart⟩ := steady_initial h
  apply hstart.bounded (le_refl 0)
  refine ⟨?_, ?_, Nat.zero_le _⟩
  · intro read hread
    cases hread
  · intro read hread
    cases hread

theorem reaches_bounded {ok : Observed → Event → Prop} {o : Observed}
    (h : Transition.Reaches Observed.step ok Observed.Initial o) (hrunning : o.adapter.control ≠ .stopped) :
    Bounded o.adapter o.largest := by
  have hinvariant : o.adapter.control ≠ .stopped → Bounded o.adapter o.largest := by
    apply h.invariant (P := fun o => o.adapter.control ≠ .stopped → Bounded o.adapter o.largest)
    · rintro ⟨adapter, largest⟩ ⟨hinitial, rfl⟩ _
      exact bounded_initial hinitial
    · intro o event o' ho _ hstep hrunning
      obtain ⟨b, hb, rfl⟩ := Option.map_eq_some_iff.1 hstep
      exact bounded_shift (shift_step hb) (ho (step_running hb hrunning)) hrunning
  exact hinvariant hrunning

theorem reaches_fitted {ok : Adapter → Event → Prop} (hok : ∀ a event, ok a event → Streams stream a event)
    (h : Transition.Reaches Adapter.step ok (fun a => a.Initial ∧
      Fits a.options.packet a.options.packetSize stream) a) (hrunning : a.control ≠ .stopped) :
    Plain a ∧ Fitted stream a := by
  have hinvariant : a.control ≠ .stopped → Plain a ∧ Fitted stream a := by
    apply h.invariant (P := fun a => a.control ≠ .stopped → Plain a ∧ Fitted stream a)
    · rintro a ⟨hinitial, hfits⟩ _
      refine ⟨(bounded_initial hinitial).plain, ?_⟩
      obtain ⟨owner, options, control, hstart⟩ := steady_initial hinitial
      unfold Fitted
      rw [hstart.buffer]
      apply fits_ahead (a := start owner options control) _ hstart.taken hstart.closed
      exact hfits
    · intro a event b ha hevent hstep hrunning
      obtain ⟨hplain, hfitted⟩ := ha (step_running hstep hrunning)
      have hshift := shift_step hstep
      exact ⟨shift_plain hshift hplain hrunning, fitted_shift hshift hfitted (hok a event hevent) hrunning⟩
  exact hinvariant hrunning

/-- In every run, as long as the process runs: the buffer is within the receive limit or the largest
passive raw read; data is asked for only where there is room, and what is returned fits; and a step that
ends the process as too long has found such a packet at the head of the buffer.  A stream whose packets
fit never ends it so. -/
theorem only_oversized :
    (∀ o : Observed, Transition.Reaches Observed.step (fun o event => o.adapter.Honoured event)
      Observed.Initial o → o.adapter.control ≠ .stopped →
      o.adapter.readBuffer.length ≤ max (receiveLimit o.adapter.options) o.largest ∧
      (∀ read, o.adapter.Fetching read → o.adapter.readBuffer.length < o.adapter.readCapacity read ∧
        ∀ bytes : Packet, bytes.length ≤
            o.adapter.readRequest read (o.adapter.readCapacity read - o.adapter.readBuffer.length) →
          bytes.length + o.adapter.readBuffer.length ≤ o.adapter.readCapacity read) ∧
      ∀ event b, o.adapter.Honoured event → o.adapter.step event = some b → b.control = .stopped →
        o.adapter.oversized < b.oversized →
        ∃ read e, o.adapter.read = some read ∧ o.adapter.extraction read = .error e) ∧
    ∀ (stream : Packet) (a : Adapter),
      Transition.Reaches Adapter.step (fun a event => a.Honoured event ∧ a.Streams stream event)
        (fun a => a.Initial ∧ Fits a.options.packet a.options.packetSize stream) a →
      a.control ≠ .stopped → ∀ event b, a.Honoured event → a.step event = some b → b.control = .stopped →
        b.oversized ≤ a.oversized := by
  constructor
  · intro o h hrunning
    have hbounded := reaches_bounded h hrunning
    refine ⟨hbounded.buffer, ?_, ?_⟩
    · intro read hfetching
      have hroom := hbounded.plain.room hfetching.pending hfetching.more
      refine ⟨hroom, ?_⟩
      intro bytes hbytes
      have := readRequest_le o.adapter read (o.adapter.readCapacity read - o.adapter.readBuffer.length)
      omega
    · intro event b hhonoured hstep hstopped hmore
      exact shift_oversized (shift_step hstep) hbounded.plain hhonoured hstopped hmore
  · intro stream a h hrunning event b hhonoured hstep hstopped
    obtain ⟨hplain, hfitted⟩ := reaches_fitted (fun _ _ hok => hok.2) h hrunning
    by_contra hmore
    obtain ⟨read, e, -, hlong⟩ :=
      shift_oversized (shift_step hstep) hplain hhonoured hstopped (Nat.lt_of_not_le hmore)
    exact (hfitted.extract a.options.packetSize_pos).1 e hlong

/-- Three octets are asked for, and one has come. -/
def asksThree : List Event := [.drainActive, .drive (.ok []), .recv ⟨1, 0⟩ 3 none, .drive (.ok [7])]

def lengthView (o : Observed) : Nat × Nat × Bool :=
  (o.adapter.readBuffer.length, o.largest, decide (o.adapter.control = .stopped))

theorem buffered_within : ∃ o : Observed,
    Transition.Reaches Observed.step (fun o event => o.adapter.Honoured event) Observed.Initial o ∧
    lengthView o = (1, 3, false) ∧
    o.adapter.readBuffer.length ≤ max (receiveLimit o.adapter.options) o.largest := by
  have hstart : Observed.Initial ⟨start 1 (plainOptions .raw .off) .draining, 0⟩ := ⟨⟨1, _, .inl rfl⟩, rfl⟩
  have hrun : (Transition.execute Observed.step (fun o event => o.adapter.Honoured event)
      ⟨start 1 (plainOptions .raw .off) .draining, 0⟩ asksThree).map lengthView = some (1, 3, false) := by
    decide +kernel
  obtain ⟨o, ho, hview⟩ := (Transition.Reaches.start hstart).observe hrun
  have hrunning : o.adapter.control ≠ .stopped := by
    simp only [lengthView, Prod.mk.injEq, decide_eq_false_iff_not] at hview
    exact hview.2.2
  exact ⟨o, ho, hview, (only_oversized.1 o ho hrunning).1⟩

end Adapter

end SmolNet.Inet6.Tcp
