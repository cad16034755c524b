import SmolNet.TcpProcess

/-!
# Calls of the `gen_tcp` process and their answers

A caller is answered at once, or the state remembers it with the operation that it waits for.  Every step
leaves the number of answers to a caller and the number of operations that it waits for the same in
total, but for the call that it handles: so nobody is answered twice, and what is answered is forgotten.
-/

namespace SmolNet.Inet6.Tcp

open Framing InetBackend

def Output.isReplyTo (caller : Caller) : Output → Bool
  | .reply other _ => decide (other = caller)
  | _ => false

def Read.caller? (read : Read) : Option Caller :=
  match read.kind with
  | .passive caller _ => some caller
  | .active => none

/-- One, if the caller is the one that is waited for. -/
def holds (waiting : Option Caller) (caller : Caller) : Nat := if waiting = some caller then 1 else 0

@[simp] theorem holds_none (caller : Caller) : holds none caller = 0 := rfl

/-- The answers to a caller, and who waits for a read and for a write. -/
structure Duties where
  answers : Nat
  reader : Option Caller
  writer : Option Caller
deriving DecidableEq, Repr

def Duties.load (duties : Duties) (caller : Caller) : Nat :=
  duties.answers + holds duties.reader caller + holds duties.writer caller

namespace Adapter

def answers (a : Adapter) (caller : Caller) : Nat := a.outputs.countP (Output.isReplyTo caller)

def duties (a : Adapter) (caller : Caller) : Duties :=
  ⟨a.answers caller, a.read.bind Read.caller?, a.write.map Write.caller⟩

def load (a : Adapter) (caller : Caller) : Nat := (a.duties caller).load caller

variable (a : Adapter) (caller : Caller)

/-! ## What concerns no caller -/

@[simp] theorem duties_keep : a.keep.duties caller = a.duties caller := rfl

@[simp] theorem duties_stop : a.stop.duties caller = a.duties caller := rfl

@[simp] theorem duties_drive (chunks deliveries : Nat) :
    (a.drive chunks deliveries).duties caller = a.duties caller := rfl

@[simp] theorem duties_pass (packet : Packet) : (a.pass packet).duties caller = a.duties caller := rfl

@[simp] theorem duties_issue (event : Event) : (a.issue event).duties caller = a.duties caller := rfl

@[simp] theorem duties_handling (ref : Ref) : (a.handling ref).duties caller = a.duties caller := rfl

@[simp] theorem duties_tell (message : Message) : (a.tell message).duties caller = a.duties caller := by
  simp [duties, answers, tell, Output.isReplyTo]

@[simp] theorem duties_forward (messages : List Message) :
    (a.forward messages).duties caller = a.duties caller := by
  have hnone : (messages.map (Output.forward a.owner)).countP (Output.isReplyTo caller) = 0 := by
    rw [List.countP_map, List.countP_eq_zero]
    intro message _
    simp [Output.isReplyTo]
  simp [duties, answers, forward, List.countP_append, hnone]

@[simp] theorem duties_cancelReadSelect : a.cancelReadSelect.duties caller = a.duties caller := by
  cases hread : a.read <;> simp [duties, answers, cancelReadSelect, hread, Read.caller?]

@[simp] theorem duties_cancelWriteSelect : a.cancelWriteSelect.duties caller = a.duties caller := by
  cases hwrite : a.write <;> simp [duties, answers, cancelWriteSelect, hwrite]

@[simp] theorem duties_ensureActiveRead : a.ensureActiveRead.duties caller = a.duties caller := by
  unfold ensureActiveRead
  split
  · rfl
  · split
    · rfl
    · rename_i hnone
      have hread : a.read = none := by simpa using hnone
      simp [duties, answers, hread, activeRead, Read.caller?]

@[simp] theorem duties_scheduleReadContinuation :
    a.scheduleReadContinuation.duties caller = a.duties caller := by
  unfold scheduleReadContinuation
  split <;> rfl

@[simp] theorem duties_scheduleActiveRead : a.scheduleActiveRead.duties caller = a.duties caller := by
  unfold scheduleActiveRead
  split
  · rfl
  · split <;> simp

@[simp] theorem duties_tellTerminal (reason : Reason) :
    (a.tellTerminal reason).duties caller = a.duties caller := by
  unfold tellTerminal
  split
  · rfl
  · split <;> simp

@[simp] theorem duties_consume : a.consume.duties caller = a.duties caller := by
  unfold consume
  split
  · exact a.duties_tell caller .tcpPassive
  · rfl

@[simp] theorem duties_tellPacket (packet : Packet) :
    (a.tellPacket packet).duties caller = a.duties caller := by
  simp [tellPacket]

/-! ## Answers, and what is forgotten -/

@[simp] theorem duties_reply (other : Caller) (answer : Reply) :
    (a.reply other answer).duties caller =
      { a.duties caller with answers := (a.duties caller).answers + holds (some other) caller } := by
  by_cases hsame : other = caller <;>
    simp [duties, answers, Adapter.reply, List.countP_append, Output.isReplyTo, holds, hsame]

@[simp] theorem duties_endRead : a.endRead.duties caller = { a.duties caller with reader := none } := rfl

@[simp] theorem duties_endActive : a.endActive.duties caller = { a.duties caller with reader := none } := rfl

@[simp] theorem duties_endWrite : a.endWrite.duties caller = { a.duties caller with writer := none } := by
  unfold endWrite
  split
  · rename_i hnone
    simp [duties, hnone]
  · split
    · rfl
    · split <;> rfl

theorem reader_passive {a : Adapter} {read : Read} (hread : a.read = some read) {other : Caller}
    {timer : Option Ref} (hkind : read.kind = .passive other timer) (caller : Caller) :
    (a.duties caller).reader = some other := by
  simp [duties, hread, Read.caller?, hkind]

theorem reader_active {a : Adapter} {read : Read} (hread : a.read = some read) (hkind : read.kind = .active)
    (caller : Caller) : (a.duties caller).reader = none := by
  simp [duties, hread, Read.caller?, hkind]

theorem reader_none {a : Adapter} (hread : a.read = none) (caller : Caller) :
    (a.duties caller).reader = none := by
  simp [duties, hread]

@[simp] theorem duties_replyTerminalRead (reason : Reason) :
    (a.replyTerminalRead reason).duties caller = { a.duties caller with
      answers := (a.duties caller).answers + holds (a.duties caller).reader caller } := by
  unfold replyTerminalRead
  split
  · rename_i hnone
    rw [reader_none hnone]
    rfl
  · rename_i read hread
    split
    · rename_i other timer hkind
      rw [duties_reply, reader_passive hread hkind]
    · rename_i hkind
      rw [duties_tell, duties_tell, reader_active hread hkind]
      rfl

@[simp] theorem duties_replyTerminalWrite (reason : Reason) :
    (a.replyTerminalWrite reason).duties caller = { a.duties caller with
      answers := (a.duties caller).answers + holds (a.duties caller).writer caller } := by
  unfold replyTerminalWrite
  split
  · rename_i hnone
    simp [duties, hnone]
  · rename_i write hwrite
    rw [duties_reply, show (a.duties caller).writer = some write.caller by simp [duties, hwrite]]

@[simp] theorem duties_tellReadClosed :
    a.tellReadClosed.duties caller = { a.duties caller with
      answers := (a.duties caller).answers + holds (a.duties caller).reader caller } := by
  unfold tellReadClosed
  split
  · rename_i hnone
    rw [reader_none hnone]
    rfl
  · rename_i read hread
    split
    · rename_i other timer hkind
      rw [duties_reply, reader_passive hread hkind]
    · rename_i hkind
      rw [reader_active hread hkind]
      split
      · rfl
      · rw [duties_tell]
        rfl

@[simp] theorem duties_failRead (reason : Reason) :
    (a.failRead reason).duties caller = { a.duties caller with
      answers := (a.duties caller).answers + holds (a.duties caller).reader caller } := by
  have htold : ((a.tell (.tcpError reason)).tell .tcpClosed).duties caller = a.duties caller := by
    rw [duties_tell, duties_tell]
  unfold failRead
  split
  · rename_i hnone
    rw [reader_none hnone]
    split
    · rfl
    · exact htold
  · rename_i read hread
    split
    · rename_i other timer hkind
      rw [duties_reply, reader_passive hread hkind]
    · rename_i hkind
      rw [reader_active hread hkind]
      split
      · rfl
      · exact htold

/-! ## Handlers that end a read or a write -/

theorem load_of_duties {b : Adapter} (h : b.duties caller = a.duties caller) : b.load caller = a.load caller :=
  congrArg (Duties.load · caller) h

/-- Whoever is answered is forgotten. -/
theorem Duties.load_answerReader (d : Duties) (caller : Caller) :
    ({ d with answers := d.answers + holds d.reader caller, reader := none } : Duties).load caller =
      d.load caller := by
  simp only [Duties.load, holds_none]
  omega

theorem Duties.load_answerWriter (d : Duties) (caller : Caller) :
    ({ d with answers := d.answers + holds d.writer caller, writer := none } : Duties).load caller =
      d.load caller := by
  simp only [Duties.load, holds_none]
  omega

theorem load_answerRead {read : Read} (hread : a.read = some read) {other : Caller} {timer : Option Ref}
    (hkind : read.kind = .passive other timer) (answer : Reply) :
    (a.reply other answer).endRead.load caller = a.load caller := by
  unfold load
  rw [duties_endRead, duties_reply, ← reader_passive hread hkind caller]
  exact Duties.load_answerReader _ _

theorem load_endRead_of_active (hreader : (a.duties caller).reader = none) :
    a.endRead.load caller = a.load caller := by
  apply load_of_duties
  rw [duties_endRead, ← hreader]

theorem load_terminalConnectionFailure (reason : Reason) :
    (a.terminalConnectionFailure reason).load caller = a.load caller := by
  unfold load
  simp only [terminalConnectionFailure, duties_stop, duties_endActive, duties_endWrite, duties_replyTerminalWrite,
    duties_replyTerminalRead, duties_cancelWriteSelect, duties_cancelReadSelect, Duties.load, holds_none]
  omega

/-- An active read is ended without an answer. -/
theorem load_notifyActiveTerminal (hreader : (a.duties caller).reader = none) (reason : Reason) :
    (a.notifyActiveTerminal reason).load caller = a.load caller := by
  have hended : ((a.tellTerminal reason).endActive).duties caller = a.duties caller := by
    rw [duties_endActive, duties_tellTerminal, ← hreader]
  unfold notifyActiveTerminal
  split
  · exact load_of_duties a caller hended
  · exact load_of_duties a caller hended

theorem load_readFailure (reason : Reason) : (a.readFailure reason).load caller = a.load caller := by
  unfold readFailure
  split
  · rfl
  · rename_i read hread
    split
    · exact load_terminalConnectionFailure a caller reason
    · split
      · rename_i other timer hkind
        split <;> exact load_answerRead a caller hread hkind _
      · rename_i hkind
        exact load_notifyActiveTerminal a caller (reader_active hread hkind caller) reason

theorem load_answerWrite {write : Write} (hwrite : a.write = some write) (answer : Reply) :
    (a.reply write.caller answer).endWrite.load caller = a.load caller := by
  have hwriter : (a.duties caller).writer = some write.caller := by simp [duties, hwrite]
  unfold load
  rw [duties_endWrite, duties_reply, ← hwriter]
  exact Duties.load_answerWriter _ _

theorem load_writeFailure (reason : Reason) : (a.writeFailure reason).load caller = a.load caller := by
  unfold writeFailure
  split
  · rfl
  · rename_i write hwrite
    split
    · exact load_terminalConnectionFailure a caller reason
    · exact load_answerWrite a caller hwrite _

theorem load_driveWrite (answer : SendAnswer) : (a.driveWrite answer).load caller = a.load caller := by
  unfold driveWrite
  split
  · rfl
  · rename_i write hwrite
    have hwriter : (a.duties caller).writer = some write.caller := by simp [duties, hwrite]
    split
    · have hanswered : (a.reply write.caller .ok).duties caller = { a.duties caller with
          answers := (a.duties caller).answers + holds (a.duties caller).writer caller } := by
        rw [duties_reply, hwriter]
      show ({ (a.reply write.caller .ok).duties caller with writer := none } : Duties).load caller =
        (a.duties caller).load caller
      rw [hanswered]
      exact Duties.load_answerWriter _ _
    · apply load_of_duties
      simp [duties, answers, keep, hwrite]
    · exact load_writeFailure a caller _

/-! ## `drive_read` -/

theorem load_deliverReadPacket {read old : Read} (hread : a.read = some old) (hkind : old.kind = read.kind)
    (packet : Packet) (chunks deliveries : Nat) :
    (a.deliverReadPacket read packet chunks deliveries).load caller = a.load caller := by
  unfold deliverReadPacket
  split
  · rename_i other timer hpassive
    exact load_answerRead (a.pass packet) caller hread (hkind.trans hpassive) _
  · rename_i hactive
    have hreader : (a.duties caller).reader = none := reader_active hread (hkind.trans hactive) caller
    have htold : (a.tellPacket packet).load caller = a.load caller :=
      load_of_duties a caller (duties_tellPacket a caller packet)
    split
    · have hreader' : ((a.tellPacket packet).duties caller).reader = none := by
        rw [duties_tellPacket]
        exact hreader
      rw [← htold]
      exact load_endRead_of_active _ caller hreader'
    · exact htold

theorem load_passiveEofReply {read : Read} (hread : a.read = some read) {other : Caller} {timer : Option Ref}
    (hkind : read.kind = .passive other timer) : (a.passiveEofReply other).endRead.load caller = a.load caller := by
  unfold passiveEofReply
  split
  · exact load_answerRead (a.pass a.readBuffer) caller hread hkind _
  · exact load_answerRead a caller hread hkind _

theorem load_afterLastLine (hreader : (a.duties caller).reader = none) (chunks deliveries : Nat) :
    (a.afterLastLine chunks deliveries).load caller = a.load caller := by
  unfold afterLastLine
  split
  · exact load_endRead_of_active a caller hreader
  · split
    · split
      · exact load_notifyActiveTerminal a caller hreader _
      · rw [load_notifyActiveTerminal]
        · exact load_of_duties a caller (duties_scheduleReadContinuation a caller)
        · rw [duties_scheduleReadContinuation]
          exact hreader
    · rfl

theorem load_finishEof {read : Read} (hread : a.read = some read) (chunks deliveries : Nat) :
    (a.finishEof read chunks deliveries).load caller = a.load caller := by
  unfold finishEof
  split
  · rename_i other timer hkind
    exact load_passiveEofReply a caller hread hkind
  · rename_i hkind
    have hreader := reader_active hread hkind caller
    split
    · have htold : (({ a with readBuffer := [] } : Adapter).tellPacket a.readBuffer).duties caller =
          a.duties caller := by
        rw [duties_tellPacket]
        rfl
      rw [load_afterLastLine]
      · exact load_of_duties a caller htold
      · rw [htold]
        exact hreader
    · exact load_notifyActiveTerminal a caller hreader _

theorem load_appendReadData {read : Read} (hread : a.read = some read) (bytes : Packet) (select : Option Ref)
    (chunks deliveries : Nat) :
    (a.appendReadData read bytes select chunks deliveries).load caller = a.load caller := by
  unfold appendReadData
  split
  · apply load_of_duties
    simp [duties, answers, drive, hread, Read.caller?]
  · exact load_readFailure { a with taken := a.taken ++ bytes } caller _

theorem load_fetchReadData {read : Read} (hread : a.read = some read) (chunks deliveries : Nat)
    (answer : RecvAnswer) : (a.fetchReadData read chunks deliveries answer).load caller = a.load caller := by
  unfold fetchReadData
  split
  · exact load_readFailure a caller _
  · split
    · exact load_appendReadData a caller hread _ _ _ _
    · exact load_appendReadData a caller hread _ _ _ _
    · apply load_of_duties
      simp [duties, answers, keep, hread, Read.caller?]
    · split
      · split
        · exact load_readFailure a caller _
        · rfl
      · exact load_readFailure a caller _

theorem load_driveRead (chunks deliveries : Nat) (answer : RecvAnswer) :
    (a.driveRead chunks deliveries answer).load caller = a.load caller := by
  unfold driveRead
  split
  · rfl
  · rename_i read hread
    split
    · rfl
    · split
      · split
        · rfl
        · exact load_of_duties a caller (duties_scheduleReadContinuation a caller)
      · split
        · rename_i packet rest _
          have hcancelled : ({ a.cancelReadSelect with readBuffer := rest } : Adapter).read =
              some { read with select := none } := by
            simp [cancelReadSelect, hread]
          have hload : ({ a.cancelReadSelect with readBuffer := rest } : Adapter).load caller = a.load caller :=
            load_of_duties a caller (duties_cancelReadSelect a caller)
          rw [← hload]
          exact load_deliverReadPacket _ caller hcancelled rfl _ _ _
        · split
          · exact load_finishEof a caller hread chunks deliveries
          · split
            · rfl
            · exact load_fetchReadData a caller hread chunks deliveries answer
        · exact load_readFailure a caller _

/-! ## Calls -/

/-- A call that is answered at once. -/
theorem load_reply {b : Adapter} (h : b.duties caller = a.duties caller) (other : Caller) (answer : Reply) :
    (b.reply other answer).load caller = a.load caller + holds (some other) caller := by
  unfold load
  rw [duties_reply, h]
  simp only [Duties.load]
  omega

theorem load_send (other : Caller) (payload : Option Packet) (timer : Option Ref) (answer : SendAnswer) :
    (a.send other payload timer answer).load caller = a.load caller + holds (some other) caller := by
  unfold send
  split
  · exact load_reply a caller rfl _ _
  · rename_i hidle
    split
    · exact load_reply a caller rfl _ _
    · split
      · exact load_reply a caller rfl _ _
      · split
        · rw [load_driveWrite]
          -- nobody was waiting for a write before
          have hwriter : (a.duties caller).writer = none := by
            cases hwrite : a.write with
            | none => simp [duties, hwrite]
            | some write => simp [hwrite] at hidle
          show ({ a.duties caller with writer := some other } : Duties).load caller =
            (a.duties caller).load caller + _
          simp only [Duties.load, hwriter, holds_none]
          omega
        · exact load_reply a caller rfl _ _

theorem load_recv (other : Caller) (length : Nat) (timer : Option Ref) :
    (a.recv other length timer).load caller = a.load caller + holds (some other) caller := by
  unfold recv
  split
  · exact load_reply a caller rfl _ _
  · split
    · exact load_reply a caller rfl _ _
    · rename_i hidle
      split
      · exact load_reply a caller rfl _ _
      · have hread : a.read = none := by simpa using hidle
        show ({ a.duties caller with reader := some other } : Duties).load caller =
          (a.duties caller).load caller + _
        simp only [Duties.load, reader_none hread, holds_none]
        omega

theorem load_unrecv (other : Caller) (value : Option Packet) :
    (a.unrecv other value).load caller = a.load caller + holds (some other) caller := by
  unfold unrecv
  split
  · exact load_reply a caller rfl _ _
  · split
    · exact load_reply a caller rfl _ _
    · split
      · exact load_reply a caller rfl other .ok
      · exact load_reply a caller rfl _ _

theorem load_closeReadDirection : a.closeReadDirection.load caller = a.load caller := by
  have hclosed : a.closeReadDirection.duties caller = { a.duties caller with
      answers := (a.duties caller).answers + holds (a.duties caller).reader caller, reader := none } := by
    show a.cancelReadSelect.tellReadClosed.endActive.duties caller = _
    rw [duties_endActive, duties_tellReadClosed, duties_cancelReadSelect]
  unfold load
  rw [hclosed]
  exact Duties.load_answerReader _ _

theorem load_replied {b : Adapter} (h : b.load caller = a.load caller) (other : Caller) (answer : Reply) :
    (b.reply other answer).load caller = a.load caller + holds (some other) caller := by
  rw [load_reply b caller rfl, h]

theorem load_shutdown (other : Caller) (how : How) (answer : Option LowReason) :
    (a.shutdown other how answer).load caller = a.load caller + holds (some other) caller := by
  unfold shutdown
  split
  · split
    · exact load_reply a caller rfl _ _
    · exact load_replied a caller (load_closeReadDirection a caller) other .ok
  · exact load_reply a caller rfl _ _

theorem load_applyActiveChange (settings : List Setting) (updated : Options) :
    ((a.restart settings updated).applyActiveChange updated).load caller = a.load caller := by
  have hrestart : (a.restart settings updated).duties caller = a.duties caller := by
    unfold restart
    split <;> rfl
  unfold applyActiveChange
  split
  · rw [← load_of_duties a caller hrestart]
    apply load_of_duties
    generalize a.restart settings updated = c
    cases hread : c.read with
    | none => simp [duties, answers, hread]
    | some read =>
        cases hkind : read.kind <;>
          simp [duties, answers, hread, Option.filter, Kind.isActive, hkind, Read.caller?]
  · apply load_of_duties
    rw [duties_scheduleReadContinuation, duties_ensureActiveRead]
    exact hrestart

theorem load_setOptions (other : Caller) (settings : List Setting) (nodelay keepalive : Option LowReason) :
    (a.setOptions other settings nodelay keepalive).load caller = a.load caller + holds (some other) caller := by
  unfold setOptions
  split
  · exact load_replied a caller (load_applyActiveChange a caller settings _) other .ok
  · exact load_reply a caller rfl _ _

theorem load_beginTransfer (other : Caller) (newOwner : Pid) (alive : Bool) (token : Ref) :
    (a.beginTransfer other newOwner alive token).load caller = a.load caller + holds (some other) caller := by
  unfold beginTransfer
  split_ifs <;> exact load_reply a caller rfl _ _

theorem load_commitWith {resume : Adapter → Adapter}
    (hresume : ∀ b : Adapter, (resume b).duties caller = b.duties caller) (other : Caller) (token : Ref)
    (messages : List Message) (alive : Bool) :
    (a.commitWith resume other token messages alive).load caller = a.load caller + holds (some other) caller := by
  unfold commitWith
  split
  · exact load_reply a caller rfl _ _
  · split
    · exact load_reply a caller rfl _ _
    · split
      · exact load_reply a caller rfl _ _
      · split
        · apply load_reply a caller
          rw [hresume, duties_forward]
          rfl
        · apply load_reply a caller
          rw [hresume]
          rfl

/-! ## Messages -/

theorem load_handleSelect (ref : Ref) (answer : SendAnswer) :
    (a.handleSelect ref answer).load caller = a.load caller := by
  unfold handleSelect
  split
  · exact load_of_duties a caller (duties_cancelReadSelect a caller)
  · split
    · rw [load_driveWrite]
      exact load_of_duties a caller (duties_cancelWriteSelect a caller)
    · rfl

theorem load_failAll (reason : Reason) : (a.failAll reason).load caller = a.load caller := by
  unfold load
  simp only [failAll, duties_endRead, duties_endWrite, duties_replyTerminalWrite, duties_failRead, Duties.load,
    holds_none]
  omega

theorem load_handleAbort (ref : Ref) (reason : LowReason) :
    (a.handleAbort ref reason).load caller = a.load caller := by
  unfold handleAbort
  split
  · exact load_failAll a caller _
  · split
    · rw [load_readFailure]
      exact load_of_duties a caller (duties_cancelReadSelect a caller)
    · split
      · rw [load_writeFailure]
        exact load_of_duties a caller (duties_cancelWriteSelect a caller)
      · rfl

theorem readTimer_eq {a : Adapter} {other : Caller} {token : Ref} (h : a.readTimer = some (other, token)) :
    ∃ read, a.read = some read ∧ read.kind = .passive other (some token) := by
  unfold readTimer at h
  split at h
  · rename_i armed length select hread
    obtain ⟨rfl, rfl⟩ := Prod.mk.inj (Option.some.inj h)
    exact ⟨_, hread, rfl⟩
  · cases h

theorem load_readTimeout (token : Ref) : (a.readTimeout token).load caller = a.load caller := by
  unfold readTimeout
  split
  · rename_i other armed htimer
    obtain ⟨read, hread, hkind⟩ := readTimer_eq htimer
    split
    · exact load_answerRead a caller hread hkind _
    · rfl
  · rfl

theorem load_writeTimeout (token : Ref) : (a.writeTimeout token).load caller = a.load caller := by
  unfold writeTimeout
  split
  · rfl
  · rename_i write hwrite
    split
    · split <;> exact load_answerWrite a caller hwrite _
    · rfl

theorem load_terminateShutdown : a.terminateShutdown.load caller = a.load caller := by
  unfold terminateShutdown
  split
  · exact load_failAll a caller _
  · rfl

/-- Answers and waiting callers stay in balance with the calls. -/
theorem load_handle {b : Adapter} {event : Event} (h : a.handle event = some b) :
    b.load caller = a.load caller + holds event.caller? caller := by
  cases event
  case drive answer =>
    simp only [handle] at h
    split at h
    · obtain rfl := Option.some.inj h
      exact load_driveRead a caller _ _ answer
    · cases h
  case stackExits =>
    obtain rfl := Option.some.inj h
    rfl
  all_goals obtain ⟨-, rfl⟩ := Transition.guarded h
  case drainActive => exact load_of_duties a caller (duties_ensureActiveRead { a with readScheduled := false } caller)
  case continueRead => rfl
  case select ref answer => exact load_handleSelect (a.handling ref) caller ref answer
  case abort ref reason => exact load_handleAbort (a.handling ref) caller ref reason
  case readTimeout token => exact load_readTimeout a caller token
  case writeTimeout token => exact load_writeTimeout a caller token
  case ownerDown => rfl
  case stackDown => exact load_failAll a caller _
  case shutdownExit => exact load_terminateShutdown a caller
  case send other payload timer answer => exact load_send a caller other payload timer answer
  case recv other length timer => exact load_recv a caller other length timer
  case unrecv other value => exact load_unrecv a caller other value
  case shutdown other how answer => exact load_shutdown a caller other how answer
  case close other => exact load_reply a caller rfl other .ok
  case setopts other settings nodelay keepalive => exact load_setOptions a caller other settings nodelay keepalive
  case beginTransfer other newOwner alive token => exact load_beginTransfer a caller other newOwner alive token
  case commitTransfer other token messages alive =>
    exact load_commitWith a caller (duties_scheduleActiveRead · caller) other token messages alive
  case unsupported other => exact load_reply a caller rfl other (.error .enotsup)

theorem load_step {b : Adapter} {event : Event} (h : a.step event = some b) :
    b.load caller = a.load caller + holds event.caller? caller := by
  unfold step at h
  split at h
  · exact load_handle (a.issue event) caller h
  · cases h

end Adapter

/-! ## The whole process -/

namespace Process

/-- The answers to a caller, and the operations that it waits for. -/
def load (p : Process) (caller : Caller) : Nat :=
  p.data.load caller + holds p.connectFrom caller + holds (p.accept.map Accept.caller) caller

variable (p : Process) (caller : Caller)

theorem load_reply (other : Caller) (answer : Reply) :
    (p.reply other answer).load caller = p.load caller + holds (some other) caller := by
  have hdata := Adapter.load_reply p.data caller rfl other answer
  show (p.data.reply other answer).load caller + holds p.connectFrom caller +
    holds (p.accept.map Accept.caller) caller = p.load caller + holds (some other) caller
  rw [hdata, load]
  omega

/-- A change of the connected data carries over to the process. -/
theorem load_data {data : Adapter} {n : Nat} (h : data.load caller = p.data.load caller + n) :
    ({ p with data := data } : Process).load caller = p.load caller + n := by
  show data.load caller + holds p.connectFrom caller + holds (p.accept.map Accept.caller) caller = _
  rw [h, load]
  omega

/-! ### Connecting -/

theorem load_clearConnectWaiter :
    p.clearConnectWaiter.load caller + holds p.connectFrom caller = p.load caller := by
  show p.data.load caller + 0 + holds (p.accept.map Accept.caller) caller + _ = p.load caller
  rw [load]
  omega

theorem load_connected : p.connected.load caller + holds p.connectFrom caller = p.load caller := by
  have hdata := Adapter.load_of_duties p.data caller (Adapter.duties_scheduleActiveRead p.data caller)
  show p.data.scheduleActiveRead.load caller + 0 + holds (p.accept.map Accept.caller) caller + _ = p.load caller
  rw [hdata, load]
  omega

theorem load_completeConnect (result : ConnectResult) :
    (p.completeConnect result).load caller = p.load caller := by
  unfold completeConnect
  split
  · rfl
  · rename_i other hfrom
    have hreply : ∀ answer : Reply, ((p.finishConnect result).reply other answer).load caller =
        p.load caller + holds (some other) caller := load_reply (p.finishConnect result) caller other
    have hwaiter : ∀ answer : Reply, ((p.finishConnect result).reply other answer).connectFrom = some other :=
      fun _ => hfrom
    split
    · rename_i reason
      have hcleared := load_clearConnectWaiter ((p.finishConnect (.error reason)).reply other (.error reason)) caller
      rw [hwaiter, hreply] at hcleared
      show ((p.finishConnect (.error reason)).reply other (.error reason)).clearConnectWaiter.load caller = _
      omega
    · have hcleared := load_connected ((p.finishConnect result).reply other .socket) caller
      rw [hwaiter, hreply] at hcleared
      omega

theorem load_attemptConnect (answer : ConnectAnswer) : (p.attemptConnect answer).load caller = p.load caller := by
  unfold attemptConnect
  split
  · exact load_completeConnect { p with connectSelect := none } caller _
  · rfl
  · exact load_completeConnect p caller _

theorem load_handleContinue (answer : SetupAnswer) : (p.handleContinue answer).load caller = p.load caller := by
  unfold handleContinue
  split
  · exact load_completeConnect { p with setup := false } caller _
  · exact load_completeConnect { p with setup := false, opened := true } caller _
  · exact load_attemptConnect { p with setup := false, opened := true } caller _

theorem load_awaitConnect (other : Caller) (expired : Bool) (timer : Option Ref) :
    (p.awaitConnect other expired timer).load caller = p.load caller + holds (some other) caller := by
  unfold awaitConnect
  split
  · exact load_reply p caller _ _
  · rename_i hidle
    have hnone : p.connectFrom = none := by simpa using hidle
    split
    · have hcleared := load_connected (p.reply other .socket) caller
      rw [load_reply, show (p.reply other .socket).connectFrom = none from hnone, holds_none] at hcleared
      exact hcleared
    · exact load_reply p caller _ _
    · split
      · exact load_reply { p with connectSelect := none } caller _ _
      · show p.data.load caller + holds (some other) caller + holds (p.accept.map Accept.caller) caller = _
        rw [load, hnone, holds_none]
        omega

theorem load_connectTimeout (token : Ref) : (p.connectTimeout token).load caller = p.load caller := by
  unfold connectTimeout
  split
  · exact load_completeConnect { p with connectSelect := none } caller _
  · rfl

theorem load_selectConnect (ref : Ref) (answer : ConnectAnswer) :
    (p.selectConnect ref answer).load caller = p.load caller := by
  unfold selectConnect
  split
  · exact load_attemptConnect { p with connectSelect := none } caller _
  · rfl

/-! ### Listening -/

theorem load_answerAccept {accept : Accept} (haccept : p.accept = some accept) (answer : Reply) :
    ({ p.reply accept.caller answer with accept := none } : Process).load caller = p.load caller := by
  have hdata := Adapter.load_reply p.data caller rfl accept.caller answer
  show (p.data.reply accept.caller answer).load caller + holds p.connectFrom caller + 0 = p.load caller
  rw [hdata, load, haccept]
  show _ = p.data.load caller + holds p.connectFrom caller + holds (some accept.caller) caller
  omega

theorem load_driveAccept (answer : AcceptAnswer) : (p.driveAccept answer).load caller = p.load caller := by
  unfold driveAccept
  split
  · rfl
  · rename_i accept haccept
    split
    · exact load_answerAccept p caller haccept _
    · exact load_answerAccept p caller haccept _
    · show p.data.load caller + holds p.connectFrom caller + holds (some accept.caller) caller = p.load caller
      rw [load, haccept]
      rfl
    · exact load_answerAccept p caller haccept _

theorem load_acceptCall (other : Caller) (timer : Option Ref) (answer : AcceptAnswer) :
    (p.acceptCall other timer answer).load caller = p.load caller + holds (some other) caller := by
  unfold acceptCall
  split
  · exact load_reply p caller _ _
  · rename_i hidle
    have hnone : p.accept = none := by simpa using hidle
    rw [load_driveAccept, load]
    show p.data.load caller + holds p.connectFrom caller + holds (some other) caller = _
    rw [load, hnone]
    rfl

theorem load_selectAccept (ref : Ref) (answer : AcceptAnswer) :
    (p.selectAccept ref answer).load caller = p.load caller := by
  unfold selectAccept
  split
  · rw [load_driveAccept, load, load]
    cases haccept : p.accept <;> simp [forgetAcceptSelect, haccept]
  · rfl

theorem load_failAccept (reason : Reason) : (p.failAccept reason).load caller = p.load caller := by
  unfold failAccept
  split
  · rfl
  · rename_i accept haccept
    exact load_answerAccept p caller haccept _

theorem load_acceptTimeout (token : Ref) : (p.acceptTimeout token).load caller = p.load caller := by
  unfold acceptTimeout
  split
  · exact load_failAccept p caller _
  · rfl

theorem load_setListenerOptions (other : Caller) (settings : List Setting)
    (nodelay keepalive : Option LowReason) :
    (p.setListenerOptions other settings nodelay keepalive).load caller =
      p.load caller + holds (some other) caller := by
  unfold setListenerOptions
  split
  · exact load_reply _ caller other .ok
  · exact load_reply p caller _ _

/-! ### Ends -/

theorem load_failConnect (reason : Reason) : (p.failConnect reason).load caller = p.load caller := by
  unfold failConnect
  split
  · rfl
  · rename_i other hfrom
    have hdata := Adapter.load_reply p.data caller rfl other (.error reason)
    show (p.data.reply other (.error reason)).load caller + 0 + holds (p.accept.map Accept.caller) caller =
      p.load caller
    rw [hdata, load, hfrom]
    omega

theorem load_failAll (reason : Reason) : (p.failAll reason).load caller = p.load caller := by
  have hpending : ((p.failConnect reason).failAccept reason).load caller = p.load caller := by
    rw [load_failAccept, load_failConnect]
  have hdata := Adapter.load_failAll ((p.failConnect reason).failAccept reason).data caller reason
  rw [← hpending]
  exact load_data _ caller (n := 0) hdata

theorem load_terminateShutdown : p.terminateShutdown.load caller = p.load caller := by
  unfold terminateShutdown
  split
  · exact load_failAll p caller _
  · rfl

theorem load_handleAbort (ref : Ref) (reason : LowReason) :
    (p.handleAbort ref reason).load caller = p.load caller := by
  unfold handleAbort
  split
  · exact load_failAll p caller _
  · split
    · split
      · exact load_completeConnect { p with connectSelect := none } caller _
      · rfl
    · split
      · exact load_failAccept p caller _
      · rfl

/-! ### One step -/

theorem load_handleConnecting {q : Process} {event : Event} (h : p.handleConnecting event = some q) :
    q.load caller = p.load caller + holds event.caller? caller := by
  cases event
  case stackDown =>
    obtain ⟨-, rfl⟩ := Transition.guarded h
    exact load_failAll p caller _
  case drive | drainActive | continueRead | select | stackExits => cases h
  all_goals obtain rfl := Option.some.inj h
  case ownerDown | readTimeout | writeTimeout => rfl
  case shutdownExit => exact load_terminateShutdown p caller
  case abort ref reason =>
    split
    · exact load_handleAbort p caller ref reason
    · rfl
  case close other => exact load_reply p caller other .ok
  all_goals exact load_reply p caller _ (.error .ealready)

theorem load_handleListening {q : Process} {event : Event} (h : p.handleListening event = some q) :
    q.load caller = p.load caller + holds event.caller? caller := by
  cases event
  case stackDown =>
    obtain ⟨-, rfl⟩ := Transition.guarded h
    exact load_failAll p caller _
  case drive | drainActive | continueRead | select | stackExits => cases h
  all_goals obtain rfl := Option.some.inj h
  case ownerDown | readTimeout | writeTimeout => rfl
  case shutdownExit => exact load_terminateShutdown p caller
  case abort ref reason => exact load_handleAbort p caller ref reason
  case close other =>
    have hreply := load_reply (p.failAccept .closed) caller other .ok
    rw [load_failAccept] at hreply
    exact hreply
  case setopts other settings nodelay keepalive =>
    exact load_setListenerOptions p caller other settings nodelay keepalive
  case beginTransfer other newOwner alive token =>
    exact load_data p caller (Adapter.load_beginTransfer p.data caller other newOwner alive token)
  case commitTransfer other token messages alive =>
    exact load_data p caller (Adapter.load_commitWith p.data caller (fun _ => rfl) other token messages alive)
  all_goals exact load_reply p caller _ (.error .enotsup)

theorem load_handle {q : Process} {event : ProcessEvent} (h : p.handle event = some q) :
    q.load caller = p.load caller + holds event.caller? caller := by
  unfold handle at h
  split at h
  · cases event
    case selectAccept => cases h
    case adapter event => exact load_handleConnecting p caller (Option.ite_none_right_eq_some.1 h).2
    all_goals obtain ⟨-, rfl⟩ := Transition.guarded h
    case continueSetup answer => exact load_handleContinue p caller answer
    case awaitConnect other expired timer => exact load_awaitConnect p caller other expired timer
    case accept other timer answer => exact load_reply p caller other (.error .ealready)
    case selectConnect ref answer => exact load_selectConnect p caller ref answer
    case connectTimeout token => exact load_connectTimeout p caller token
    case acceptTimeout token => rfl
  · cases event
    case continueSetup | selectConnect => cases h
    case adapter event => exact load_handleListening p caller (Option.ite_none_right_eq_some.1 h).2
    all_goals obtain ⟨-, rfl⟩ := Transition.guarded h
    case accept other timer answer => exact load_acceptCall p caller other timer answer
    case awaitConnect other expired timer => exact load_reply p caller other (.error .enotsup)
    case selectAccept ref answer => exact load_selectAccept p caller ref answer
    case acceptTimeout token => exact load_acceptTimeout p caller token
    case connectTimeout token => rfl
  · cases event
    case continueSetup | selectConnect | selectAccept => cases h
    case adapter event =>
      obtain ⟨data, hdata, rfl⟩ := Option.map_eq_some_iff.1 h
      exact load_data p caller (Adapter.load_step p.data caller hdata)
    all_goals obtain ⟨-, rfl⟩ := Transition.guarded h
    case connectTimeout | acceptTimeout => rfl
    all_goals exact load_reply p caller _ (.error .enotsup)

theorem load_step {q : Process} {event : ProcessEvent} (h : p.step event = some q) :
    q.load caller = p.load caller + holds event.caller? caller := by
  unfold step at h
  split at h
  · rename_i hevent
    obtain rfl := Option.some.inj h
    rw [hevent]
    rfl
  · exact load_handle p caller h

/-! ### Timers, and after the end -/

def outputs : List Output := p.data.outputs

def answers : Nat := p.data.answers caller

/-- How many operations the caller waits for. -/
def waiting : Nat :=
  holds (p.data.read.bind Read.caller?) caller + holds (p.data.write.map Write.caller) caller +
    holds p.connectFrom caller + holds (p.accept.map Accept.caller) caller

theorem load_eq : p.load caller = p.answers caller + p.waiting caller := by
  simp only [load, Adapter.load, Duties.load, Adapter.duties, answers, waiting]
  omega

/-- The timer of the pending operation that a timer's message is for. -/
def timerFor : ProcessEvent → Option Ref
  | .connectTimeout _ => p.connectTimer
  | .acceptTimeout _ => p.accept.bind Accept.timer
  | .adapter (.readTimeout _) => p.data.readTimer.map Prod.snd
  | .adapter (.writeTimeout _) => p.data.write.bind Write.timer
  | _ => none

/-- The token of a timer's message. -/
def token? : ProcessEvent → Option Ref
  | .connectTimeout token | .acceptTimeout token | .adapter (.readTimeout token)
  | .adapter (.writeTimeout token) => some token
  | _ => none

theorem readTimeout_stale {a : Adapter} {token : Ref} (h : a.readTimer.map Prod.snd ≠ some token) :
    (a.readTimeout token).outputs = a.outputs := by
  unfold Adapter.readTimeout
  split
  · rename_i other armed htimer
    rw [htimer] at h
    rw [if_neg (fun hsame => h (congrArg some hsame))]
    rfl
  · rfl

theorem writeTimeout_stale {a : Adapter} {token : Ref} (h : a.write.bind Write.timer ≠ some token) :
    (a.writeTimeout token).outputs = a.outputs := by
  unfold Adapter.writeTimeout
  split
  · rfl
  · rename_i write hwrite
    rw [hwrite] at h
    have hother : write.timer ≠ some token := h
    rw [if_neg hother]
    rfl

/-- A timer that is not the pending operation's causes no answer. -/
theorem outputs_stale_timer {q : Process} {event : ProcessEvent} {token : Ref} (htoken : token? event = some token)
    (hstale : p.timerFor event ≠ some token) (h : p.step event = some q) : q.outputs = p.outputs := by
  have hhandle : p.handle event = some q := by
    unfold step at h
    split at h
    · rename_i hexits
      rw [hexits] at htoken
      cases htoken
    · exact h
  unfold handle at hhandle
  cases event with
  | connectTimeout armed =>
      obtain rfl := Option.some.inj htoken
      split at hhandle <;> obtain ⟨-, rfl⟩ := Transition.guarded hhandle
      · have hother : p.connectTimer ≠ some armed := hstale
        rw [connectTimeout, if_neg hother]
      · rfl
      · rfl
  | acceptTimeout armed =>
      obtain rfl := Option.some.inj htoken
      split at hhandle <;> obtain ⟨-, rfl⟩ := Transition.guarded hhandle
      · rfl
      · have hother : p.accept.bind Accept.timer ≠ some armed := hstale
        rw [acceptTimeout, if_neg hother]
      · rfl
  | adapter event =>
      -- before the socket is connected, such a message is dropped
      have hdropped : ∀ q, p.handleConnecting event = some q ∨ p.handleListening event = some q → q = p := by
        cases event with
        | readTimeout armed | writeTimeout armed => rintro q (h | h) <;> exact (Option.some.inj h).symm
        | _ => cases htoken
      split at hhandle
      · rw [hdropped q (.inl (Option.ite_none_right_eq_some.1 hhandle).2)]
      · rw [hdropped q (.inr (Option.ite_none_right_eq_some.1 hhandle).2)]
      · obtain ⟨data, hdata, rfl⟩ := Option.map_eq_some_iff.1 hhandle
        cases event with
        | readTimeout armed =>
            obtain rfl := Option.some.inj htoken
            obtain ⟨-, rfl⟩ := Transition.guarded hdata
            exact readTimeout_stale (a := p.data.issue (.readTimeout armed)) hstale
        | writeTimeout armed =>
            obtain rfl := Option.some.inj htoken
            obtain ⟨-, rfl⟩ := Transition.guarded hdata
            exact writeTimeout_stale (a := p.data.issue (.writeTimeout armed)) hstale
        | _ => cases htoken
  | _ => cases htoken

/-- A process that has stopped says nothing more. -/
theorem outputs_stopped {q : Process} {event : ProcessEvent} (hstopped : p.data.control = .stopped)
    (h : p.step event = some q) : q.outputs = p.outputs := by
  unfold step at h
  split at h
  · obtain rfl := Option.some.inj h
    rfl
  · rename_i hexits
    exfalso
    unfold handle at h
    split at h
    · cases event <;> simp [hstopped] at h
    · cases event <;> simp [hstopped] at h
    · cases event with
      | adapter event =>
          obtain ⟨data, hdata, -⟩ := Option.map_eq_some_iff.1 h
          have hhandle : (p.data.issue event).handle event = some data := by
            unfold Adapter.step at hdata
            split at hdata
            · exact hdata
            · cases hdata
          have hevent : event ≠ .stackExits := fun hsame => hexits (congrArg _ hsame)
          exact Adapter.handle_running hevent hhandle hstopped
      | _ => simp [hstopped] at h

/-! ### Whole runs -/

/-- A process with all who have called it. -/
structure Served where
  process : Process
  called : List Caller
deriving DecidableEq, Repr

/-- Every call comes with a tag of its own. -/
def Served.step (s : Served) (event : ProcessEvent) : Option Served :=
  if event.caller?.all fun caller => decide (caller ∉ s.called) then
    (s.process.step event).map fun q => ⟨q, event.caller?.toList ++ s.called⟩
  else none

def Served.Initial (s : Served) : Prop := s.process.Initial ∧ s.called = []

theorem Served.step_eq {s s' : Served} {event : ProcessEvent} (h : s.step event = some s') :
    s.process.step event = some s'.process ∧ s'.called = event.caller?.toList ++ s.called ∧
      ∀ caller, event.caller? = some caller → caller ∉ s.called := by
  unfold Served.step at h
  split at h
  · rename_i hfresh
    obtain ⟨q, hq, rfl⟩ := Option.map_eq_some_iff.1 h
    refine ⟨hq, rfl, ?_⟩
    intro caller hcaller
    rw [hcaller] at hfresh
    simpa using hfresh
  · cases h

theorem load_initial {p : Process} (h : p.Initial) (caller : Caller) : p.load caller = 0 := by
  obtain ⟨owner, options, rfl | rfl | rfl⟩ := h <;> rfl

theorem reaches_load {s : Served} (h : Transition.Reaches Served.step (fun _ _ => True) Served.Initial s)
    (caller : Caller) : s.process.load caller = if caller ∈ s.called then 1 else 0 := by
  apply h.invariant (P := fun s => s.process.load caller = if caller ∈ s.called then 1 else 0)
  · rintro ⟨process, called⟩ ⟨hinitial, rfl⟩
    exact load_initial hinitial caller
  · intro s event s' hs _ hstep
    obtain ⟨hprocess, hcalled, hfresh⟩ := Served.step_eq hstep
    rw [load_step s.process caller hprocess, hs, hcalled]
    cases hcaller : event.caller? with
    | none => by_cases hmem : caller ∈ s.called <;> simp [hmem]
    | some other =>
        by_cases hsame : other = caller
        · subst hsame
          simp [hfresh other hcaller, holds]
        · by_cases hmem : caller ∈ s.called <;> simp [hmem, holds, hsame, Ne.symm hsame]

/-- In every run: whoever has called is answered once or waits for one operation; the step that answers a
waiting caller forgets it; a timer that is not the pending operation's causes no answer; and nothing is
said after the end, when whoever was not answered sees the process exit. -/
theorem reaches_answered {s : Served} (h : Transition.Reaches Served.step (fun _ _ => True) Served.Initial s) :
    (∀ caller, s.process.answers caller + s.process.waiting caller = if caller ∈ s.called then 1 else 0) ∧
    (∀ event s' caller, s.step event = some s' → event.caller? ≠ some caller →
      s.process.answers caller < s'.process.answers caller →
      s.process.waiting caller = 1 ∧ s'.process.waiting caller = 0) ∧
    (∀ event token s', token? event = some token → s.process.timerFor event ≠ some token →
      s.step event = some s' → s'.process.outputs = s.process.outputs) ∧
    (s.process.data.control = .stopped →
      (∀ caller ∈ s.called, s.process.answers caller = 1 ∨ s.process.waiting caller = 1) ∧
      ∀ event s', s.step event = some s' → s'.process.outputs = s.process.outputs) := by
  have hbalance : ∀ caller, s.process.answers caller + s.process.waiting caller =
      if caller ∈ s.called then 1 else 0 := by
    intro caller
    rw [← load_eq]
    exact reaches_load h caller
  refine ⟨hbalance, ?_, ?_, ?_⟩
  · intro event s' caller hstep hother hanswered
    obtain ⟨hprocess, -, -⟩ := Served.step_eq hstep
    have hload := load_step s.process caller hprocess
    have hnone : holds event.caller? caller = 0 := if_neg hother
    have hlimit : s.process.answers caller + s.process.waiting caller ≤ 1 := by
      rw [hbalance caller]
      split <;> omega
    rw [load_eq, load_eq, hnone] at hload
    omega
  · intro event token s' htoken hstale hstep
    exact outputs_stale_timer s.process htoken hstale (Served.step_eq hstep).1
  · intro hstopped
    constructor
    · intro caller hcaller
      have hone := hbalance caller
      rw [if_pos hcaller] at hone
      omega
    · intro event s' hstep
      exact outputs_stopped s.process hstopped (Served.step_eq hstep).1

/-- A connection is waited for and made, and data is asked for. -/
def connectsAndAsks : List ProcessEvent :=
  [.continueSetup (.connect (.select 0)), .awaitConnect ⟨1, 0⟩ false (some 5), .selectConnect 0 .ok,
    .adapter (.recv ⟨1, 1⟩ 0 none), .adapter (.drive (.select 1))]

def servedView (s : Served) : List Nat × List Caller :=
  ([s.process.answers ⟨1, 0⟩, s.process.waiting ⟨1, 0⟩, s.process.answers ⟨1, 1⟩, s.process.waiting ⟨1, 1⟩],
    s.called)

theorem connects_and_asks : ∃ s, Transition.Reaches Served.step (fun _ _ => True) Served.Initial s ∧
    servedView s = ([1, 0, 0, 1], [⟨1, 1⟩, ⟨1, 0⟩]) ∧
    s.process.answers ⟨1, 0⟩ + s.process.waiting ⟨1, 0⟩ = 1 := by
  have hstart : Served.Initial
      ⟨start .connecting (Adapter.start 1 (Adapter.plainOptions .raw .off) .idle), []⟩ :=
    ⟨⟨1, _, .inl rfl⟩, rfl⟩
  have hrun : (Transition.execute Served.step (fun _ _ => True)
      ⟨start .connecting (Adapter.start 1 (Adapter.plainOptions .raw .off) .idle), []⟩
      connectsAndAsks).map servedView = some ([1, 0, 0, 1], [⟨1, 1⟩, ⟨1, 0⟩]) := by decide +kernel
  obtain ⟨s, hs, hview⟩ := (Transition.Reaches.start hstart).observe hrun
  refine ⟨s, hs, hview, ?_⟩
  have hcalled : s.called = [⟨1, 1⟩, ⟨1, 0⟩] := congrArg Prod.snd hview
  have hbalance := (reaches_answered hs).1 ⟨1, 0⟩
  rw [hcalled, if_pos (by simp)] at hbalance
  exact hbalance

end Process

end SmolNet.Inet6.Tcp
