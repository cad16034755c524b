import SmolNet.Adapter

/-!
# Stream integrity of the `gen_tcp` adapter

What the read side of an adapter has done to the byte stream is a small part of its state.  Most
handlers leave that part as it is; the others append what the stack has just returned, put back what
`unrecv` was given, or take one packet off the head.
-/

namespace SmolNet.Inet6.Tcp

open Framing InetBackend

def Message.packet? : Message → Option Packet
  | .tcp _ packet => some packet
  | .tcpPassive | .tcpClosed | .tcpError _ => none

def Reply.packet? : Reply → Option Packet
  | .data _ packet => some packet
  | _ => none

/-- The packet that an output hands over for the first time. -/
def Output.packet? : Output → Option Packet
  | .message _ told => told.packet?
  | .forward _ _ => none
  | .reply _ answer => answer.packet?

/-- The part of the state that tells where the bytes of the stream have gone. -/
structure Stream where
  buffer : Packet
  taken : Packet
  delivered : List Framed
  unreceived : List Packet
  discarded : Bool
  passed : List Packet
deriving DecidableEq, Repr

namespace Adapter

variable (a : Adapter)

def stream : Stream where
  buffer := a.readBuffer
  taken := a.taken
  delivered := a.delivered
  unreceived := a.unreceived
  discarded := a.discarded
  passed := a.outputs.filterMap Output.packet?

/-! ## What leaves the stream as it is -/

@[simp] theorem stream_keep : a.keep.stream = a.stream := rfl

@[simp] theorem stream_stop : a.stop.stream = a.stream := rfl

@[simp] theorem stream_drive (chunks deliveries : Nat) : (a.drive chunks deliveries).stream = a.stream := rfl

@[simp] theorem stream_endRead : a.endRead.stream = a.stream := rfl

@[simp] theorem stream_endActive : a.endActive.stream = a.stream := rfl

@[simp] theorem stream_cancelReadSelect : a.cancelReadSelect.stream = a.stream := rfl

@[simp] theorem stream_cancelWriteSelect : a.cancelWriteSelect.stream = a.stream := rfl

@[simp] theorem stream_issue (event : Event) : (a.issue event).stream = a.stream := rfl

@[simp] theorem stream_handling (ref : Ref) : (a.handling ref).stream = a.stream := rfl

theorem stream_reply (caller : Caller) {reply : Reply} (h : reply.packet? = none) :
    (a.reply caller reply).stream = a.stream := by
  simp [Adapter.reply, stream, Output.packet?, h]

@[simp] theorem stream_reply_ok (caller : Caller) : (a.reply caller .ok).stream = a.stream :=
  a.stream_reply caller rfl

@[simp] theorem stream_reply_error (caller : Caller) (reason : Reason) :
    (a.reply caller (.error reason)).stream = a.stream := a.stream_reply caller rfl

@[simp] theorem stream_reply_token (caller : Caller) (token : Ref) :
    (a.reply caller (.token token)).stream = a.stream := a.stream_reply caller rfl

theorem stream_tell {message : Message} (h : message.packet? = none) :
    (a.tell message).stream = a.stream := by
  simp [tell, stream, Output.packet?, h]

@[simp] theorem stream_tell_closed : (a.tell .tcpClosed).stream = a.stream := a.stream_tell rfl

@[simp] theorem stream_tell_error (reason : Reason) : (a.tell (.tcpError reason)).stream = a.stream :=
  a.stream_tell rfl

@[simp] theorem stream_reply_write (caller : Caller) (write : Write) (reason : Reason) :
    (a.reply caller (writeErrorReply write reason)).stream = a.stream := by
  apply a.stream_reply caller
  unfold writeErrorReply
  split <;> rfl

@[simp] theorem stream_ensureActiveRead : a.ensureActiveRead.stream = a.stream := by
  unfold ensureActiveRead
  split
  · rfl
  · split <;> rfl

@[simp] theorem stream_scheduleReadContinuation : a.scheduleReadContinuation.stream = a.stream := by
  unfold scheduleReadContinuation
  split <;> rfl

@[simp] theorem stream_scheduleActiveRead : a.scheduleActiveRead.stream = a.stream := by
  unfold scheduleActiveRead
  split
  · rfl
  · split <;> simp

@[simp] theorem stream_endWrite : a.endWrite.stream = a.stream := by
  unfold endWrite
  split
  · rfl
  · split
    · rfl
    · split <;> rfl

@[simp] theorem stream_replyTerminalRead (reason : Reason) :
    (a.replyTerminalRead reason).stream = a.stream := by
  unfold replyTerminalRead
  split
  · rfl
  · split <;> simp

@[simp] theorem stream_replyTerminalWrite (reason : Reason) :
    (a.replyTerminalWrite reason).stream = a.stream := by
  unfold replyTerminalWrite
  split <;> simp

@[simp] theorem stream_terminalConnectionFailure (reason : Reason) :
    (a.terminalConnectionFailure reason).stream = a.stream := by
  simp [terminalConnectionFailure]

@[simp] theorem stream_tellTerminal (reason : Reason) : (a.tellTerminal reason).stream = a.stream := by
  unfold tellTerminal
  split
  · rfl
  · split <;> simp

@[simp] theorem stream_notifyActiveTerminal (reason : Reason) :
    (a.notifyActiveTerminal reason).stream = a.stream := by
  unfold notifyActiveTerminal
  split
  · exact a.stream_tellTerminal reason
  · simp

@[simp] theorem stream_readFailure (reason : Reason) : (a.readFailure reason).stream = a.stream := by
  unfold readFailure
  split
  · rfl
  · split
    · simp
    · split
      · split <;> simp
      · simp

@[simp] theorem stream_writeFailure (reason : Reason) : (a.writeFailure reason).stream = a.stream := by
  unfold writeFailure
  split
  · rfl
  · rename_i write _
    split
    · simp
    · have h : ((a.reply write.caller (writeErrorReply write reason)).endWrite).stream = a.stream := by simp
      exact h

@[simp] theorem stream_driveWrite (answer : SendAnswer) : (a.driveWrite answer).stream = a.stream := by
  unfold driveWrite
  split
  · rfl
  · rename_i write _
    split
    · exact a.stream_reply_ok write.caller
    · rfl
    · simp

@[simp] theorem stream_send (caller : Caller) (payload : Option Packet) (timer : Option Ref)
    (answer : SendAnswer) : (a.send caller payload timer answer).stream = a.stream := by
  unfold send
  split
  · simp
  · split
    · simp
    · split
      · simp
      · split
        · rw [stream_driveWrite]
          rfl
        · simp

@[simp] theorem stream_recv (caller : Caller) (length : Nat) (timer : Option Ref) :
    (a.recv caller length timer).stream = a.stream := by
  unfold recv
  split
  · simp
  · split
    · simp
    · split
      · simp
      · rfl

@[simp] theorem stream_tellReadClosed : a.tellReadClosed.stream = a.stream := by
  unfold tellReadClosed
  split
  · rfl
  · split
    · simp
    · split <;> simp

@[simp] theorem stream_closeReadDirection : a.closeReadDirection.stream = a.stream :=
  a.cancelReadSelect.stream_tellReadClosed

@[simp] theorem stream_shutdown (caller : Caller) (how : How) (answer : Option LowReason) :
    (a.shutdown caller how answer).stream = a.stream := by
  unfold shutdown
  split
  · split <;> simp
  · simp

@[simp] theorem stream_close (caller : Caller) : (a.close caller).stream = a.stream := by
  simp [close]

@[simp] theorem stream_applyActiveChange (updated : Options) :
    (a.applyActiveChange updated).stream = a.stream := by
  unfold applyActiveChange
  split
  · rfl
  · rw [stream_scheduleReadContinuation, stream_ensureActiveRead]
    rfl

@[simp] theorem stream_restart (settings : List Setting) (updated : Options) :
    (a.restart settings updated).stream = a.stream := by
  unfold restart
  split <;> rfl

@[simp] theorem stream_setOptions (caller : Caller) (settings : List Setting)
    (nodelay keepalive : Option LowReason) :
    (a.setOptions caller settings nodelay keepalive).stream = a.stream := by
  unfold setOptions
  split <;> simp

@[simp] theorem stream_beginTransfer (caller : Caller) (newOwner : Pid) (alive : Bool) (token : Ref) :
    (a.beginTransfer caller newOwner alive token).stream = a.stream := by
  unfold beginTransfer
  split
  · simp
  · split
    · simp
    · split
      · exact a.stream_reply caller rfl
      · split
        · rw [stream_keep, stream_reply_token]
          rfl
        · simp

@[simp] theorem stream_forward (messages : List Message) : (a.forward messages).stream = a.stream := by
  have hnone : (messages.map (Output.forward a.owner)).filterMap Output.packet? = [] := by
    rw [List.filterMap_map, List.filterMap_eq_nil_iff]
    intro message _
    rfl
  simp only [forward, stream, List.filterMap_append, hnone, List.append_nil]

@[simp] theorem stream_commitTransfer (caller : Caller) (token : Ref) (messages : List Message)
    (alive : Bool) : (a.commitTransfer caller token messages alive).stream = a.stream := by
  unfold commitTransfer commitWith
  split
  · simp
  · split
    · simp
    · split
      · simp
      · split
        · rw [stream_keep, stream_reply_ok, stream_scheduleActiveRead, stream_forward]
          rfl
        · rw [stream_keep, stream_reply_error, stream_scheduleActiveRead]
          rfl

@[simp] theorem stream_drainActive : a.drainActive.stream = a.stream := by
  rw [drainActive, stream_drive, stream_ensureActiveRead]
  rfl

@[simp] theorem stream_continueRead : a.continueRead.stream = a.stream := rfl

@[simp] theorem stream_handleSelect (ref : Ref) (answer : SendAnswer) :
    (a.handleSelect ref answer).stream = a.stream := by
  unfold handleSelect
  split
  · simp
  · split <;> simp

@[simp] theorem stream_failRead (reason : Reason) : (a.failRead reason).stream = a.stream := by
  unfold failRead
  split
  · split <;> simp
  · split
    · simp
    · split <;> simp

@[simp] theorem stream_failAll (reason : Reason) : (a.failAll reason).stream = a.stream := by
  simp [failAll]

@[simp] theorem stream_stackLost : a.stackLost.stream = a.stream := by
  simp [stackLost]

@[simp] theorem stream_handleAbort (ref : Ref) (reason : LowReason) :
    (a.handleAbort ref reason).stream = a.stream := by
  unfold handleAbort
  split
  · simp
  · split
    · simp
    · split <;> simp

@[simp] theorem stream_readTimeout (token : Ref) : (a.readTimeout token).stream = a.stream := by
  unfold readTimeout
  split
  · split <;> simp
  · rfl

@[simp] theorem stream_writeTimeout (token : Ref) : (a.writeTimeout token).stream = a.stream := by
  unfold writeTimeout
  split
  · rfl
  · split
    · split <;> simp
    · rfl

@[simp] theorem stream_terminateShutdown : a.terminateShutdown.stream = a.stream := by
  unfold terminateShutdown
  split <;> simp

/-! ## What changes it -/

theorem stream_consume : a.consume.stream = a.stream := by
  unfold consume
  split
  · exact a.stream_tell rfl
  · rfl

theorem stream_tellPacket (packet : Packet) :
    (a.tellPacket packet).stream = { a.stream with
      delivered := a.delivered ++ [⟨a.options.packet, packet⟩]
      passed := a.stream.passed ++ [packet] } := by
  rw [tellPacket, stream_consume]
  simp [pass, tell, stream, Output.packet?, Message.packet?]

theorem stream_reply_data (caller : Caller) (packet : Packet) :
    ((a.pass packet).reply caller (.data a.options.mode packet)).stream = { a.stream with
      delivered := a.delivered ++ [⟨a.options.packet, packet⟩]
      passed := a.stream.passed ++ [packet] } := by
  simp [pass, Adapter.reply, stream, Output.packet?, Reply.packet?]

/-- A packet that has been taken off the buffer is handed over once. -/
theorem stream_deliverReadPacket (read : Read) (packet : Packet) (chunks deliveries : Nat) :
    (a.deliverReadPacket read packet chunks deliveries).stream = { a.stream with
      delivered := a.delivered ++ [⟨a.options.packet, packet⟩]
      passed := a.stream.passed ++ [packet] } := by
  unfold deliverReadPacket
  split
  · exact a.stream_reply_data _ packet
  · split
    · exact a.stream_tellPacket packet
    · exact a.stream_tellPacket packet

theorem stream_afterLastLine (chunks deliveries : Nat) :
    (a.afterLastLine chunks deliveries).stream = a.stream := by
  unfold afterLastLine
  split
  · rfl
  · split
    · split <;> simp
    · rfl

end Adapter

/-! ## One step -/

def RecvAnswer.bytes? : RecvAnswer → Option Packet
  | .ok bytes | .selectWith _ bytes => some bytes
  | .select _ | .error _ => none

/-- Whether the next turn of `drive_read` calls `SmolNet.recv`. -/
def Adapter.fetches (a : Adapter) : Bool :=
  match a.control, a.read with
  | .driving chunks deliveries, some read =>
      a.transfer.isNone && decide (0 < chunks ∧ 0 < deliveries) &&
        decide (extract a.readBuffer a.options.packet read.length a.options.packetSize = .more) &&
        !a.readClosed && read.select.isNone && decide (a.readBuffer.length < a.readCapacity read)
  | _, _ => false

/-- `SmolNet.recv` is called and returns bytes. -/
def Adapter.consumes (a : Adapter) : Event → Bool
  | .drive answer => a.fetches && answer.bytes?.isSome
  | _ => false

/-- What one step does to the stream; the last two ways are its ends. -/
inductive Change (a b : Adapter) : Event → Prop
  | same {event : Event} : b.stream = a.stream → a.consumes event = false →
      (∀ caller value, event = .unrecv caller (some value) → b.outputs ≠ a.outputs ++ [.reply caller .ok]) →
      Change a b event
  | append {answer : RecvAnswer} {bytes : Packet} : answer.bytes? = some bytes →
      b.stream = { a.stream with buffer := a.readBuffer ++ bytes, taken := a.taken ++ bytes } →
      Change a b (.drive answer)
  | prepend {caller : Caller} {value : Packet} :
      b.stream = { a.stream with
        buffer := value ++ a.readBuffer, unreceived := a.unreceived ++ [value] } →
      b.outputs = a.outputs ++ [.reply caller .ok] → Change a b (.unrecv caller (some value))
  | remove {answer : RecvAnswer} {framed : Framed} {rest : Packet} :
      a.readBuffer = framed.wire ++ rest → framed.option = a.options.packet →
      b.stream = { a.stream with
        buffer := rest
        delivered := a.delivered ++ [framed]
        passed := a.stream.passed ++ [framed.payload] } → a.consumes (.drive answer) = false →
      Change a b (.drive answer)
  | refuse {answer : RecvAnswer} {bytes : Packet} : answer.bytes? = some bytes →
      b.stream = { a.stream with taken := a.taken ++ bytes } → b.control = .stopped →
      Change a b (.drive answer)
  | discard {answer : RecvAnswer} : a.readClosed = true → 0 < a.options.packet.width →
      extract a.readBuffer a.options.packet 0 a.options.packetSize = .more →
      b.stream = { a.stream with buffer := [], discarded := true } → a.consumes (.drive answer) = false →
      Change a b (.drive answer)

namespace Adapter

variable {a b : Adapter}

theorem change_of_stream (a' : Adapter) {event : Event} (hstream : a'.stream = a.stream)
    (hclosed : a'.readClosed = a.readClosed) (hoptions : a'.options = a.options)
    (houtputs : a'.outputs = a.outputs) (hconsumes : a'.consumes event = a.consumes event)
    (h : Change a' b event) : Change a b event := by
  have hbuffer : a'.readBuffer = a.readBuffer := congrArg Stream.buffer hstream
  have htaken : a'.taken = a.taken := congrArg Stream.taken hstream
  have hdelivered : a'.delivered = a.delivered := congrArg Stream.delivered hstream
  have hunreceived : a'.unreceived = a.unreceived := congrArg Stream.unreceived hstream
  cases h with
  | same h hquiet hrefused => exact .same (h.trans hstream) (hconsumes ▸ hquiet) (houtputs ▸ hrefused)
  | append hbytes h => exact .append hbytes (by rw [h, hstream, hbuffer, htaken])
  | prepend h ho => exact .prepend (by rw [h, hstream, hbuffer, hunreceived]) (by rw [ho, houtputs])
  | remove hbuf ho h hquiet =>
      exact .remove (by rw [← hbuffer, hbuf]) (by rw [ho, hoptions]) (by rw [h, hstream, hdelivered])
        (hconsumes ▸ hquiet)
  | refuse hbytes h hstop => exact .refuse hbytes (by rw [h, hstream, htaken]) hstop
  | discard hc hw he h hquiet =>
      exact .discard (by rw [← hclosed, hc]) (by rw [← hoptions]; exact hw)
        (by rw [← hbuffer, ← hoptions, he]) (by rw [h, hstream]) (hconsumes ▸ hquiet)

/-- A turn of `drive_read` that leaves the stream as it is. -/
theorem change_quiet {answer : RecvAnswer} (h : b.stream = a.stream)
    (hquiet : a.fetches = true → answer.bytes? = none) : Change a b (.drive answer) := by
  refine .same h ?_ (fun _ _ hevent => by cases hevent)
  cases hfetches : a.fetches with
  | false => simp [consumes, hfetches]
  | true => simp [consumes, hquiet hfetches]

theorem unrecv_change (a : Adapter) (caller : Caller) (value : Option Packet) :
    Change a (a.unrecv caller value) (.unrecv caller value) := by
  have hrefused : ∀ reason, Change a (a.reply caller (.error reason)).keep (.unrecv caller value) :=
    fun reason => .same (by simp) rfl fun _ _ _ houtputs => by simp [keep, Adapter.reply] at houtputs
  unfold unrecv
  split
  · exact hrefused _
  · split
    · exact hrefused _
    · split
      · apply Change.prepend
        · simp [keep, Adapter.reply, stream, Output.packet?, Reply.packet?]
        · rfl
      · exact hrefused _

theorem appendReadData_change (a : Adapter) (read : Read) (hread : a.read = some read) {bytes : Packet}
    (select : Option Ref) (chunks deliveries : Nat) {answer : RecvAnswer}
    (hbytes : answer.bytes? = some bytes) :
    Change a (a.appendReadData read bytes select chunks deliveries) (.drive answer) := by
  unfold appendReadData
  split
  · exact .append hbytes rfl
  · apply Change.refuse hbytes
    · rw [stream_readFailure]
      rfl
    · -- a read that would exceed its capacity ends the process, passive or active
      simp only [readFailure, hread, isTerminal]
      split
      · contradiction
      · split
        · rfl
        · rfl

theorem fetchReadData_change {chunks deliveries : Nat} (hcontrol : a.control = .driving chunks deliveries)
    (read : Read) (hread : a.read = some read) (answer : RecvAnswer) :
    Change a (a.fetchReadData read chunks deliveries answer) (.drive answer) := by
  unfold fetchReadData
  split
  · rename_i hfull
    refine change_quiet (by simp) fun hfetches => ?_
    simp only [fetches, hcontrol, hread, Bool.and_eq_true, decide_eq_true_eq] at hfetches
    omega
  · cases answer with
    | ok bytes => exact a.appendReadData_change read hread none chunks deliveries rfl
    | selectWith ref bytes => exact a.appendReadData_change read hread (some ref) chunks deliveries rfl
    | select ref => exact change_quiet rfl fun _ => rfl
    | error reason =>
        refine change_quiet ?_ fun _ => rfl
        dsimp only
        split
        · split
          · simp
          · rfl
        · simp

theorem wire_of_width {packet : Packet} {option : PacketOption} (h : option.width = 0) :
    (⟨option, packet⟩ : Framed).wire = packet := by
  simp [Framed.wire, frame, h, toOctets]

/-- Nothing is read after the end of the stream. -/
theorem fetches_closed (hclosed : a.readClosed = true) : a.fetches = false := by
  unfold fetches
  split <;> simp [hclosed]

theorem passiveEofReply_change (a : Adapter) (read : Read) (caller : Caller) (answer : RecvAnswer)
    (hclosed : a.readClosed = true)
    (hmore : extract a.readBuffer a.options.packet read.length a.options.packetSize = .more) :
    Change a (a.passiveEofReply caller).endRead.keep (.drive answer) := by
  have hquiet : a.consumes (.drive answer) = false := by simp [consumes, fetches_closed hclosed]
  unfold passiveEofReply
  split
  · rename_i h
    have hwidth : a.options.packet.width = 0 := by
      rcases h.1 with h | h <;> rw [h] <;> rfl
    have hbuffer : a.readBuffer = (⟨a.options.packet, a.readBuffer⟩ : Framed).wire ++ [] := by
      rw [wire_of_width hwidth, List.append_nil]
    refine .remove hbuffer rfl ?_ hquiet
    simp [keep, endRead, pass, Adapter.reply, stream, Output.packet?, Reply.packet?]
  · rename_i h
    by_cases hempty : a.readBuffer = []
    · refine change_quiet ?_ (by simp [fetches_closed hclosed])
      simp [keep, endRead, Adapter.reply, stream, Output.packet?, Reply.packet?, hempty]
    · have hstream : ({ a.reply caller (.error .closed) with
          readBuffer := [], discarded := a.discarded || !a.readBuffer.isEmpty } : Adapter).endRead.keep.stream =
          { a.stream with buffer := [], discarded := true } := by
        simp [keep, endRead, Adapter.reply, stream, Output.packet?, Reply.packet?, hempty]
      -- raw and line packets have been handed over above, so this is a frame with its header
      cases hpacket : a.options.packet with
      | raw => exact absurd ⟨.inl hpacket, hempty⟩ h
      | line => exact absurd ⟨.inr hpacket, hempty⟩ h
      | _ =>
          rw [hpacket] at hmore
          exact .discard hclosed (by rw [hpacket]; decide) (by rw [hpacket]; exact hmore) hstream hquiet

theorem finishEof_change (a : Adapter) (read : Read) (chunks deliveries : Nat) (answer : RecvAnswer)
    (hclosed : a.readClosed = true)
    (hmore : extract a.readBuffer a.options.packet read.length a.options.packetSize = .more) :
    Change a (a.finishEof read chunks deliveries) (.drive answer) := by
  unfold finishEof
  split
  · exact a.passiveEofReply_change read _ answer hclosed hmore
  · split
    · rename_i h
      have hbuffer : a.readBuffer = (⟨a.options.packet, a.readBuffer⟩ : Framed).wire ++ [] := by
        rw [wire_of_width (by rw [h.1]; rfl), List.append_nil]
      refine .remove hbuffer rfl ?_ (by simp [consumes, fetches_closed hclosed])
      rw [stream_afterLastLine, stream_tellPacket]
      rfl
    · exact change_quiet (by simp) (by simp [fetches_closed hclosed])

theorem driveRead_change {chunks deliveries : Nat} (hcontrol : a.control = .driving chunks deliveries)
    (answer : RecvAnswer) : Change a (a.driveRead chunks deliveries answer) (.drive answer) := by
  unfold driveRead
  split
  · rename_i hread
    exact change_quiet rfl (by simp [fetches, hcontrol, hread])
  · rename_i read hread
    split
    · rename_i htransfer
      exact change_quiet rfl (by simp [fetches, hcontrol, hread, Option.isSome_iff_ne_none.1 htransfer])
    · split
      · rename_i hspent
        refine change_quiet (by split <;> simp) fun hfetches => ?_
        simp only [fetches, hcontrol, hread, Bool.and_eq_true, decide_eq_true_eq] at hfetches
        omega
      · split
        · rename_i packet rest hextract
          have hbuffer : a.readBuffer = (⟨a.options.packet, packet⟩ : Framed).wire ++ rest :=
            extract_ok hextract
          refine .remove hbuffer rfl ?_ (by simp [consumes, fetches, hcontrol, hread, hextract])
          rw [stream_deliverReadPacket]
          rfl
        · rename_i hmore
          split
          · rename_i hclosed
            exact a.finishEof_change read chunks deliveries answer hclosed hmore
          · split
            · rename_i hselect
              exact change_quiet rfl (by simp [fetches, hcontrol, hread, Option.isSome_iff_ne_none.1 hselect])
            · exact fetchReadData_change hcontrol read hread answer
        · rename_i hextract
          exact change_quiet (by simp) (by simp [fetches, hcontrol, hread, hextract])

/-- Every step changes the stream in at most one way. -/
theorem handle_change {event : Event} (h : a.handle event = some b) : Change a b event := by
  cases event with
  | drive answer =>
      simp only [handle] at h
      split at h
      · rename_i hcontrol
        obtain rfl := Option.some.inj h
        exact driveRead_change hcontrol answer
      · cases h
  | stackExits =>
      obtain rfl := Option.some.inj h
      exact .same rfl rfl (fun _ _ hevent => by cases hevent)
  | unrecv caller value =>
      simp only [handle] at h
      split at h
      · obtain rfl := Option.some.inj h
        exact a.unrecv_change caller value
      · cases h
  | _ =>
      simp only [handle] at h
      split at h
      · obtain rfl := Option.some.inj h
        exact .same (by simp) rfl (fun _ _ hevent => by cases hevent)
      · cases h

theorem step_change {event : Event} (h : a.step event = some b) : Change a b event := by
  unfold step at h
  split at h
  · have hissued := handle_change h
    refine change_of_stream (a.issue event) rfl rfl rfl rfl ?_ hissued
    cases event <;> rfl
  · cases h

/-! ## Whole runs -/

/-- What has been passed on, followed by the buffer, is what the stack has returned. -/
structure Intact (s : Stream) (running : Prop) : Prop where
  passed : s.passed = s.delivered.map Framed.payload
  whole : s.unreceived = [] → s.discarded = false → running →
    s.delivered.flatMap Framed.wire ++ s.buffer = s.taken

theorem intact_initial (h : Initial a) : Intact a.stream (a.control ≠ .stopped) := by
  obtain ⟨owner, options, rfl | rfl⟩ := h
  · exact ⟨rfl, fun _ _ _ => rfl⟩
  · rw [stream_scheduleActiveRead]
    exact ⟨rfl, fun _ _ _ => rfl⟩

theorem step_running {event : Event} (h : a.step event = some b) (hrunning : b.control ≠ .stopped) :
    a.control ≠ .stopped := by
  unfold step at h
  split at h
  · by_cases hevent : event = .stackExits
    · subst hevent
      obtain rfl := Option.some.inj h
      exact hrunning
    · exact (handle_running hevent h : (a.issue event).control ≠ .stopped)
  · cases h

theorem Intact.step (h : Intact a.stream (a.control ≠ .stopped)) {event : Event}
    (hstep : a.step event = some b) : Intact b.stream (b.control ≠ .stopped) := by
  have hrunning := step_running hstep
  cases step_change hstep with
  | same hstream _ _ =>
      rw [hstream]
      exact ⟨h.passed, fun hunreceived hdiscarded hcontrol => h.whole hunreceived hdiscarded (hrunning hcontrol)⟩
  | append hbytes hstream =>
      rw [hstream]
      refine ⟨h.passed, fun hunreceived hdiscarded hcontrol => ?_⟩
      have hwhole := h.whole hunreceived hdiscarded (hrunning hcontrol)
      show _ ++ (a.readBuffer ++ _) = a.taken ++ _
      rw [← List.append_assoc]
      exact congrArg (· ++ _) hwhole
  | prepend hstream _ =>
      rw [hstream]
      exact ⟨h.passed, fun hunreceived => by simp at hunreceived⟩
  | remove hbuffer _ hstream _ =>
      rw [hstream]
      refine ⟨?_, fun hunreceived hdiscarded hcontrol => ?_⟩
      · show a.stream.passed ++ _ = (a.stream.delivered ++ _).map Framed.payload
        rw [List.map_append, ← h.passed]
        rfl
      · have hwhole := h.whole hunreceived hdiscarded (hrunning hcontrol)
        simp only [stream, hbuffer] at hwhole
        simp [stream, ← hwhole]
  | refuse hbytes hstream hstopped =>
      rw [hstream]
      exact ⟨h.passed, fun _ _ hcontrol => absurd hstopped hcontrol⟩
  | discard _ _ _ hstream _ =>
      rw [hstream]
      exact ⟨h.passed, fun _ hdiscarded => by cases hdiscarded⟩

/-- In every run the buffer changes only at its ends: by what the stack has just returned, by what
was put back, or by a packet that is handed over.  Until the process stops, or drops a frame that the
end of the stream has cut off, no byte is lost, repeated or moved. -/
theorem reaches_stream_intact
    (h : Transition.Reaches Adapter.step (fun _ _ => True) Adapter.Initial a) :
    (∀ event b, a.step event = some b → Change a b event) ∧
      a.outputs.filterMap Output.packet? = a.delivered.map Framed.payload ∧
      (a.unreceived = [] → a.discarded = false → a.control ≠ .stopped →
        a.delivered.flatMap Framed.wire ++ a.readBuffer = a.taken) := by
  have hintact : Intact a.stream (a.control ≠ .stopped) := by
    apply h.invariant (P := fun a => Intact a.stream (a.control ≠ .stopped))
    · intro a ha
      exact intact_initial ha
    · intro a event b ha _ hstep
      exact ha.step hstep
  exact ⟨fun event b hstep => step_change hstep, hintact.passed, hintact.whole⟩

/-- Two frames that arrive in three pieces. -/
def pieces : List Event :=
  [.drainActive, .drive (.ok [2, 7]), .drive (.ok [8, 1]), .drive (.error .other),
    .drive (.selectWith 0 [9]), .drive (.error .other), .drive (.select 1)]

/-- What a run over pieces is looked at for. -/
def streamView (a : Adapter) : List Packet × Packet × Control × List Packet × Bool :=
  (a.delivered.map Framed.payload, a.taken, a.control, a.unreceived, a.discarded)

theorem reaches_pieces : ∃ a, Transition.Reaches Adapter.step (fun _ _ => True) Adapter.Initial a ∧
    a.streamView = ([[7, 8], [9]], [2, 7, 8, 1, 9], .idle, [], false) ∧
    a.delivered.flatMap Framed.wire ++ a.readBuffer = a.taken := by
  have hstart : Adapter.Initial (start 1 (plainOptions .one .on) .draining) := ⟨1, _, .inl rfl⟩
  have hrun : (Transition.execute Adapter.step (fun _ _ => True)
      (start 1 (plainOptions .one .on) .draining) pieces).map streamView =
      some ([[7, 8], [9]], [2, 7, 8, 1, 9], .idle, [], false) := by decide +kernel
  obtain ⟨a, ha, hview⟩ := (Transition.Reaches.start hstart).observe hrun
  refine ⟨a, ha, hview, ?_⟩
  simp only [streamView, Prod.mk.injEq] at hview
  obtain ⟨_, _, hcontrol, hunreceived, hdiscarded⟩ := hview
  exact (reaches_stream_intact ha).2.2 hunreceived hdiscarded (by rw [hcontrol]; decide)

end Adapter

end SmolNet.Inet6.Tcp
