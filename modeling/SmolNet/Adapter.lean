import SmolNet.InetOptions
import SmolNet.Transition

/-!
# The `gen_tcp` adapter

One `gen_statem` stands between a stack's stream socket and its owner, in state `:connected`.  Every
message that it handles is one event, and so is every turn of `drive_read`, which calls into the stack
and may have its answer at any later time.  The answers of the stack come with the events.  Behind
the data of the process the state keeps what has happened so far, which no handler reads.
-/

namespace SmolNet.Inet6.Tcp

open Framing InetBackend

abbrev Pid := Nat

/-- References and timer tokens. -/
abbrev Ref := Nat

/-- Who is to be answered. -/
structure Caller where
  pid : Pid
  tag : Ref
deriving DecidableEq, Repr

/-- What is sent to the owner. -/
inductive Message where
  | tcp (mode : Mode) (packet : Packet)
  | tcpPassive
  | tcpClosed
  | tcpError (reason : Reason)
deriving DecidableEq, Repr

inductive Reply where
  | ok
  | socket
  | unchanged
  | token (token : Ref)
  | data (mode : Mode) (packet : Packet)
  | error (reason : Reason)
  | partly (reason : Reason) (remainder : Packet)
deriving DecidableEq, Repr

/-- What leaves the process; a `forward` passes on a message that was sent before. -/
inductive Output where
  | message (recipient : Pid) (message : Message)
  | forward (recipient : Pid) (message : Message)
  | reply (caller : Caller) (reply : Reply)
deriving DecidableEq, Repr

inductive Kind where
  | passive (caller : Caller) (timer : Option Ref)
  | active
deriving DecidableEq, Repr

def Kind.isActive : Kind → Bool
  | .passive _ _ => false
  | .active => true

structure Read where
  kind : Kind
  length : Nat
  select : Option Ref
deriving DecidableEq, Repr

/-- A packet with the framing it is sent or received in. -/
structure Framed where
  option : PacketOption
  payload : Packet
deriving DecidableEq, Repr

def Framed.wire (framed : Framed) : Packet := frame framed.payload framed.option

/-- A send under way; `call` is what it was asked to send. -/
structure Write where
  caller : Caller
  call : Framed
  remainder : Packet
  progressed : Bool
  select : Option Ref
  timer : Option Ref
deriving DecidableEq, Repr

structure Transfer where
  token : Ref
  oldOwner : Pid
  newOwner : Pid
deriving DecidableEq, Repr

/-- Where the process is: the first `:drain_active`, its mailbox, within `drive_read`, or its end. -/
inductive Control where
  | draining
  | idle
  | driving (chunks deliveries : Nat)
  | stopped
deriving DecidableEq, Repr

structure Adapter where
  owner : Pid
  options : Options
  read : Option Read
  readBuffer : Packet
  readScheduled : Bool
  readClosed : Bool
  write : Option Write
  transfer : Option Transfer
  control : Control
  -- the `:continue_read` messages in its mailbox, and whether the stack's process has ended
  continuations : Nat
  stackGone : Bool
  outputs : List Output
  -- the last value that `active` was set to, and the messages since
  setting : Active
  since : List Message
  -- bytes the stack has returned, packets passed on, and values that were put back
  taken : Packet
  delivered : List Framed
  unreceived : List Packet
  discarded : Bool
  -- bytes the stack has accepted, sends in the order of their calls, those accepted as a whole
  accepted : Packet
  calls : List Framed
  complete : List Framed
  -- all that was accepted when a send had ended within its frame, and whether one has failed
  severed : Option Packet
  writeFailed : Bool
  -- waiters the stack has armed, and those whose message has been handled
  issued : List Ref
  handled : List Ref
deriving DecidableEq, Repr

def maxReadChunks : Nat := 16

def maxActiveDeliveries : Nat := 16

/-! ## Answers of the stack -/

inductive RecvAnswer where
  | ok (bytes : Packet)
  | selectWith (ref : Ref) (bytes : Packet)
  | select (ref : Ref)
  | error (reason : LowReason)
deriving DecidableEq, Repr

def RecvAnswer.ref? : RecvAnswer → Option Ref
  | .ok _ | .error _ => none
  | .selectWith ref _ | .select ref => some ref

/-- `select` names how many bytes were accepted. -/
inductive SendAnswer where
  | ok
  | select (ref : Ref) (accepted : Nat)
  | error (reason : LowReason)
deriving DecidableEq, Repr

def SendAnswer.ref? : SendAnswer → Option Ref
  | .ok | .error _ => none
  | .select ref _ => some ref

namespace Adapter

variable (a : Adapter)

/-! ## Sending and returning -/

def reply (caller : Caller) (reply : Reply) : Adapter :=
  { a with outputs := a.outputs ++ [.reply caller reply] }

def tell (message : Message) : Adapter :=
  { a with outputs := a.outputs ++ [.message a.owner message], since := a.since ++ [message] }

def keep : Adapter := { a with control := .idle }

def stop : Adapter := { a with control := .stopped }

/-- Goes on with `drive_read`. -/
def drive (chunks deliveries : Nat) : Adapter := { a with control := .driving chunks deliveries }

/-! ## Reads -/

def cancelReadSelect : Adapter :=
  { a with read := a.read.map fun read => { read with select := none } }

def cancelWriteSelect : Adapter :=
  { a with write := a.write.map fun write => { write with select := none } }

def activeRead : Read := ⟨.active, 0, none⟩

def ensureActiveRead : Adapter :=
  if a.options.active = .off then a
  else if a.read.isSome then a
  else { a with read := some activeRead }

def readReference : Option Ref := a.read.bind Read.select

def awaitingSocket : Bool := a.readReference.isSome && a.readBuffer.isEmpty

def scheduleReadContinuation : Adapter :=
  if a.readScheduled then a
  else { a with continuations := a.continuations + 1, readScheduled := true }

def scheduleActiveRead : Adapter :=
  if a.options.active = .off then a
  else if a.ensureActiveRead.awaitingSocket then a.ensureActiveRead
  else a.ensureActiveRead.scheduleReadContinuation

def endRead : Adapter := { a with read := none }

/-- Ends the read, and active mode with it. -/
def endActive : Adapter := { a with read := none, options := { a.options with active := .off } }

/-- How much may gather for the read in progress. -/
def readCapacity (read : Read) : Nat :=
  if a.options.packet = .raw ∧ read.kind.isActive = false ∧ 0 < read.length then
    max read.length (receiveLimit a.options)
  else receiveLimit a.options

/-- How much the stack is asked for, where so much room is left. -/
def readRequest (read : Read) (available : Nat) : Nat :=
  if a.options.packet = .raw ∧ read.kind.isActive = false ∧ 0 < read.length then
    min (read.length - a.readBuffer.length) available
  else available

/-! ## Ends of reads and writes -/

/-- Ends the send under way: whole, not begun, or within its frame. -/
def endWrite : Adapter :=
  match a.write with
  | none => a
  | some write =>
      if write.remainder = [] then
        { a with write := none, complete := a.complete ++ [write.call] }
      else if write.remainder = write.call.wire then { a with write := none }
      else { a with write := none, severed := a.severed.or (some a.accepted) }

def writeErrorReply (write : Write) (reason : Reason) : Reply :=
  if write.progressed then .partly reason write.remainder else .error reason

def replyTerminalRead (reason : Reason) : Adapter :=
  match a.read with
  | none => a
  | some read =>
      match read.kind with
      | .passive caller _ => a.reply caller (.error reason)
      | .active => (a.tell (.tcpError reason)).tell .tcpClosed

def replyTerminalWrite (reason : Reason) : Adapter :=
  match a.write with
  | none => a
  | some write => a.reply write.caller (writeErrorReply write reason)

def terminalConnectionFailure (reason : Reason) : Adapter :=
  ((a.cancelReadSelect.cancelWriteSelect.replyTerminalRead reason).replyTerminalWrite
    reason).endWrite.endActive.stop

def tellTerminal (reason : Reason) : Adapter :=
  if a.options.active = .off then a
  else if reason = .closed then a.tell .tcpClosed
  else (a.tell (.tcpError reason)).tell .tcpClosed

def notifyActiveTerminal (reason : Reason) : Adapter :=
  if reason = .closed then { (a.tellTerminal reason).endActive with readClosed := true }.keep
  else (a.tellTerminal reason).endActive.stop

def isTerminal (reason : Reason) : Bool := reason == .econnreset || reason == .etimedout

def readFailure (reason : Reason) : Adapter :=
  match a.read with
  | none => a.keep
  | some read =>
      if isTerminal reason then a.terminalConnectionFailure reason
      else
        match read.kind with
        | .passive caller _ =>
            if reason = .emsgsize then (a.reply caller (.error reason)).endRead.stop
            else (a.reply caller (.error reason)).endRead.keep
        | .active => a.notifyActiveTerminal reason

def writeFailure (reason : Reason) : Adapter :=
  match a.write with
  | none => a.keep
  | some write =>
      if isTerminal reason then a.terminalConnectionFailure reason
      else { (a.reply write.caller (writeErrorReply write reason)).endWrite with writeFailed := true }.keep

/-! ## `drive_read` -/

/-- Passes a packet on that has been taken off the buffer. -/
def pass (packet : Packet) : Adapter :=
  { a with delivered := a.delivered ++ [⟨a.options.packet, packet⟩] }

def consume : Adapter :=
  if (consumeActive a.options.active).2 then
    { a.tell .tcpPassive with options := { a.options with active := (consumeActive a.options.active).1 } }
  else { a with options := { a.options with active := (consumeActive a.options.active).1 } }

/-- The owner's message for a packet, with the notice that its quota is used up. -/
def tellPacket (packet : Packet) : Adapter :=
  ((a.pass packet).tell (.tcp a.options.mode packet)).consume

def deliverReadPacket (read : Read) (packet : Packet) (chunks deliveries : Nat) : Adapter :=
  match read.kind with
  | .passive caller _ =>
      ((a.pass packet).reply caller (.data a.options.mode packet)).endRead.keep
  | .active =>
      if (a.tellPacket packet).options.active = .off then (a.tellPacket packet).endRead.keep
      else (a.tellPacket packet).drive chunks (deliveries - 1)

/-- What a passive read is answered with at the end of the stream; an incomplete frame is dropped. -/
def passiveEofReply (caller : Caller) : Adapter :=
  if (a.options.packet = .raw ∨ a.options.packet = .line) ∧ a.readBuffer ≠ [] then
    { (a.pass a.readBuffer).reply caller (.data a.options.mode a.readBuffer) with readBuffer := [] }
  else
    { a.reply caller (.error .closed) with
      readBuffer := [], discarded := a.discarded || !a.readBuffer.isEmpty }

/-- Goes on after the line that the end of the stream has cut off. -/
def afterLastLine (chunks deliveries : Nat) : Adapter :=
  if a.options.active = .off then a.endRead.keep
  else if deliveries ≤ 1 then
    -- `drive_read` has no delivery left and comes back at once, and `finish_eof` goes on
    if a.awaitingSocket then a.notifyActiveTerminal .closed
    else a.scheduleReadContinuation.notifyActiveTerminal .closed
  else a.drive chunks (deliveries - 1)

def finishEof (read : Read) (chunks deliveries : Nat) : Adapter :=
  match read.kind with
  | .passive caller _ => (a.passiveEofReply caller).endRead.keep
  | .active =>
      if a.options.packet = .line ∧ a.readBuffer ≠ [] then
        ({ a with readBuffer := [] }.tellPacket a.readBuffer).afterLastLine chunks deliveries
      else a.notifyActiveTerminal .closed

def appendReadData (read : Read) (bytes : Packet) (select : Option Ref) (chunks deliveries : Nat) : Adapter :=
  if bytes.length + a.readBuffer.length ≤ a.readCapacity read then
    { a with
      taken := a.taken ++ bytes
      readBuffer := a.readBuffer ++ bytes
      read := some { read with select := select.or read.select } }.drive (chunks - 1) deliveries
  else { a with taken := a.taken ++ bytes }.readFailure .emsgsize

def fetchReadData (read : Read) (chunks deliveries : Nat) (answer : RecvAnswer) : Adapter :=
  if a.readCapacity read ≤ a.readBuffer.length then a.readFailure .emsgsize
  else
    match answer with
    | .ok bytes => a.appendReadData read bytes none chunks deliveries
    | .selectWith ref bytes => a.appendReadData read bytes (some ref) chunks deliveries
    | .select ref => { a with read := some { read with select := some ref } }.keep
    | .error reason =>
        if reason = .closed then
          if a.stackGone then a.readFailure .enetdown
          else { a with readClosed := true }.drive (chunks - 1) deliveries
        else a.readFailure (ioReason a.stackGone reason)

/-- One turn; a call of itself is left to the next. -/
def driveRead (chunks deliveries : Nat) (answer : RecvAnswer) : Adapter :=
  match a.read with
  | none => a.keep
  | some read =>
      if a.transfer.isSome then a.keep
      else if chunks = 0 ∨ deliveries = 0 then
        if a.awaitingSocket then a.keep else a.scheduleReadContinuation.keep
      else
        match extract a.readBuffer a.options.packet read.length a.options.packetSize with
        | .ok packet rest =>
            { a.cancelReadSelect with readBuffer := rest }.deliverReadPacket read packet chunks deliveries
        | .more =>
            if a.readClosed then a.finishEof read chunks deliveries
            else if read.select.isSome then a.keep
            else a.fetchReadData read chunks deliveries answer
        | .error _ => a.readFailure .emsgsize

/-! ## Writes -/

def driveWrite (answer : SendAnswer) : Adapter :=
  match a.write with
  | none => a.keep
  | some write =>
      match answer with
      | .ok =>
          { a.reply write.caller .ok with
            write := none
            accepted := a.accepted ++ write.remainder
            complete := a.complete ++ [write.call] }.keep
      | .select ref count =>
          let remainder := write.remainder.drop count
          { a with
            accepted := a.accepted ++ write.remainder.take count
            write := some { write with
              remainder := remainder
              progressed := write.progressed || decide (remainder.length < write.remainder.length)
              select := some ref } }.keep
      | .error reason => a.writeFailure (ioReason a.stackGone reason)

/-! ## Calls -/

def newWrite (caller : Caller) (payload framed : Packet) (timer : Option Ref) : Adapter :=
  { a with
    calls := a.calls ++ [⟨a.options.packet, payload⟩]
    write := some ⟨caller, ⟨a.options.packet, payload⟩, framed, false, none, timer⟩ }

/-- `payload` is `none` for a term that is no `iodata`. -/
def send (caller : Caller) (payload : Option Packet) (timer : Option Ref) (answer : SendAnswer) : Adapter :=
  if a.write.isSome then (a.reply caller (.error .busy)).keep
  else if a.transfer.isSome then (a.reply caller (.error .busy)).keep
  else
    match payload with
    | none => (a.reply caller (.error .einval)).keep
    | some payload =>
        match encode payload a.options.packet a.options.packetSize with
        | .ok framed => (a.newWrite caller payload framed timer).driveWrite answer
        | .error _ => (a.reply caller (.error .emsgsize)).keep

def recv (caller : Caller) (length : Nat) (timer : Option Ref) : Adapter :=
  if a.options.active ≠ .off then (a.reply caller (.error .einval)).keep
  else if a.read.isSome then (a.reply caller (.error .busy)).keep
  else if a.options.packet ≠ .raw ∧ receiveLimit a.options < length then
    (a.reply caller (.error .emsgsize)).keep
  else
    { a with read := some ⟨.passive caller timer, length, none⟩ }.drive maxReadChunks maxActiveDeliveries

/-- Puts a value back; `none` is a term that is no `iodata`. -/
def unrecv (caller : Caller) (value : Option Packet) : Adapter :=
  if a.read.isSome then (a.reply caller (.error .busy)).keep
  else
    match value with
    | none => (a.reply caller (.error .einval)).keep
    | some bytes =>
        if bytes.length + a.readBuffer.length ≤ receiveLimit a.options then
          { a.reply caller .ok with
            readBuffer := bytes ++ a.readBuffer
            unreceived := a.unreceived ++ [bytes] }.keep
        else (a.reply caller (.error .emsgsize)).keep

def tellReadClosed : Adapter :=
  match a.read with
  | none => a
  | some read =>
      match read.kind with
      | .passive caller _ => a.reply caller (.error .closed)
      | .active => if a.options.active = .off then a else a.tell .tcpClosed

def closeReadDirection : Adapter :=
  { a.cancelReadSelect.tellReadClosed.endActive with readClosed := true }

inductive How where
  | read | write | readWrite
deriving DecidableEq, Repr

/-- `answer` is what the stack fails with, if it does. -/
def shutdown (caller : Caller) (how : How) (answer : Option LowReason) : Adapter :=
  match answer with
  | none =>
      if how = .write then (a.reply caller .ok).keep else (a.closeReadDirection.reply caller .ok).keep
  | some reason => (a.reply caller (.error (translateReason reason))).keep

def close (caller : Caller) : Adapter := (a.reply caller .ok).stop

/-! ## Options -/

def optionChangeAllowed (updated : Options) : Except Reason Unit :=
  match a.read with
  | some ⟨.passive _ _, _, _⟩ =>
      if updated.active ≠ .off ∨ updated.mode ≠ a.options.mode ∨ updated.packet ≠ a.options.packet ∨
          updated.packetSize ≠ a.options.packetSize ∨ updated.buffer ≠ a.options.buffer then .error .busy
      else .ok ()
  | _ =>
      if (a.options.packet ≠ updated.packet ∨ a.options.mode ≠ updated.mode ∨
          a.options.packetSize ≠ updated.packetSize) ∧ a.readBuffer ≠ [] then .error .busy
      else if receiveLimit updated < a.readBuffer.length then .error .emsgsize
      else .ok ()

/-- A change is passed on to the stack, which may refuse it. -/
def updateLow (changed : Bool) (answer : Option LowReason) : Except Reason Unit :=
  match changed, answer with
  | true, some reason => .error (translateReason reason)
  | _, _ => .ok ()

def applyActiveChange (updated : Options) : Adapter :=
  if updated.active = .off then
    { a with
      options := updated
      read := a.read.filter fun read => !read.kind.isActive }
  else { a with options := updated }.ensureActiveRead.scheduleReadContinuation

def checkOptions (settings : List Setting) (nodelay keepalive : Option LowReason) :
    Except Reason Options := do
  let updated ← update .runtime a.options settings
  a.optionChangeAllowed updated
  updateLow (decide (a.options.nodelay ≠ updated.nodelay)) nodelay
  updateLow (decide (a.options.keepalive ≠ updated.keepalive)) keepalive
  return updated

/-- Begins to count messages anew where the settings name `active`. -/
def restart (settings : List Setting) (updated : Options) : Adapter :=
  if settings.any Setting.isActive then { a with setting := updated.active, since := [] } else a

def setOptions (caller : Caller) (settings : List Setting) (nodelay keepalive : Option LowReason) : Adapter :=
  match a.checkOptions settings nodelay keepalive with
  | .ok updated => (((a.restart settings updated).applyActiveChange updated).reply caller .ok).keep
  | .error reason => (a.reply caller (.error reason)).keep

/-! ## Change of owner -/

/-- `alive` tells whether the new owner is a living process of this node. -/
def beginTransfer (caller : Caller) (newOwner : Pid) (alive : Bool) (token : Ref) : Adapter :=
  if caller.pid ≠ a.owner then (a.reply caller (.error .notOwner)).keep
  else if a.transfer.isSome then (a.reply caller (.error .busy)).keep
  else if newOwner = a.owner then (a.reply caller .unchanged).keep
  else if alive then
    ({ a with transfer := some ⟨token, a.owner, newOwner⟩ }.reply caller (.token token)).keep
  else (a.reply caller (.error .badarg)).keep

def forward (messages : List Message) : Adapter :=
  { a with outputs := a.outputs ++ messages.map (.forward a.owner) }

/-- `resume` is what `resume_after_transfer` does for the kind of the socket. -/
def commitWith (resume : Adapter → Adapter) (caller : Caller) (token : Ref) (messages : List Message)
    (alive : Bool) : Adapter :=
  match a.transfer with
  | none => (a.reply caller (.error .einval)).keep
  | some transfer =>
      if transfer.token ≠ token then (a.reply caller (.error .einval)).keep
      else if caller.pid ≠ transfer.oldOwner then (a.reply caller (.error .notOwner)).keep
      else if alive then
        ((resume ({ a with owner := transfer.newOwner, transfer := none }.forward messages)).reply caller .ok).keep
      else ((resume { a with transfer := none }).reply caller (.error .badarg)).keep

def commitTransfer (caller : Caller) (token : Ref) (messages : List Message) (alive : Bool) : Adapter :=
  a.commitWith scheduleActiveRead caller token messages alive

/-! ## Messages -/

def drainActive : Adapter :=
  { a with readScheduled := false }.ensureActiveRead.drive maxReadChunks maxActiveDeliveries

def continueRead : Adapter :=
  { a with continuations := a.continuations - 1, readScheduled := false }.drive
    maxReadChunks maxActiveDeliveries

def writeReference : Option Ref := a.write.bind Write.select

def handleSelect (ref : Ref) (answer : SendAnswer) : Adapter :=
  if a.readReference = some ref then a.cancelReadSelect.drive maxReadChunks maxActiveDeliveries
  else if a.writeReference = some ref then a.cancelWriteSelect.driveWrite answer
  else a.keep

def failRead (reason : Reason) : Adapter :=
  match a.read with
  | none => if a.options.active = .off then a else (a.tell (.tcpError reason)).tell .tcpClosed
  | some read =>
      match read.kind with
      | .passive caller _ => a.reply caller (.error reason)
      | .active => if a.options.active = .off then a else (a.tell (.tcpError reason)).tell .tcpClosed

def failAll (reason : Reason) : Adapter :=
  ((a.failRead reason).replyTerminalWrite reason).endWrite.endRead

def stackLost : Adapter := (a.failAll .enetdown).stop

/-- What the stack aborts a waiter with, as the adapter sees it. -/
def handleAbort (ref : Ref) (reason : LowReason) : Adapter :=
  if translateReason reason = .enetdown then a.stackLost
  else if a.readReference = some ref then a.cancelReadSelect.readFailure (translateReason reason)
  else if a.writeReference = some ref then a.cancelWriteSelect.writeFailure (translateReason reason)
  else a.keep

def readTimer : Option (Caller × Ref) :=
  match a.read with
  | some ⟨.passive caller (some token), _, _⟩ => some (caller, token)
  | _ => none

def readTimeout (token : Ref) : Adapter :=
  match a.readTimer with
  | some (caller, armed) =>
      if armed = token then (a.reply caller (.error .timeout)).endRead.keep else a.keep
  | none => a.keep

def writeTimeout (token : Ref) : Adapter :=
  match a.write with
  | none => a.keep
  | some write =>
      if write.timer = some token then
        if a.options.sendTimeoutClose then
          (a.reply write.caller (writeErrorReply write .timeout)).endWrite.stop
        else (a.reply write.caller (writeErrorReply write .timeout)).endWrite.keep
      else a.keep

/-- The supervisor's exit, which may come before the stack's own. -/
def terminateShutdown : Adapter := if a.stackGone then (a.failAll .enetdown).stop else a.stop

end Adapter

/-! ## Runs -/

inductive Event where
  | stackExits
  | drive (answer : RecvAnswer)
  | drainActive
  | continueRead
  | select (ref : Ref) (answer : SendAnswer)
  | abort (ref : Ref) (reason : LowReason)
  | readTimeout (token : Ref)
  | writeTimeout (token : Ref)
  | ownerDown
  | stackDown
  | shutdownExit
  | send (caller : Caller) (payload : Option Packet) (timer : Option Ref) (answer : SendAnswer)
  | recv (caller : Caller) (length : Nat) (timer : Option Ref)
  | unrecv (caller : Caller) (value : Option Packet)
  | shutdown (caller : Caller) (how : Adapter.How) (answer : Option LowReason)
  | close (caller : Caller)
  | setopts (caller : Caller) (settings : List Setting) (nodelay keepalive : Option LowReason)
  | beginTransfer (caller : Caller) (newOwner : Pid) (alive : Bool) (token : Ref)
  | commitTransfer (caller : Caller) (token : Ref) (messages : List Message) (alive : Bool)
  | unsupported (caller : Caller)
deriving DecidableEq, Repr

/-- The waiter that the stack arms in its answer, if it does. -/
def Event.ref? : Event → Option Ref
  | .drive answer => answer.ref?
  | .select _ answer | .send _ _ _ answer => answer.ref?
  | _ => none

namespace Adapter

/-- Notes the waiter that is armed. -/
def issue (a : Adapter) (event : Event) : Adapter := { a with issued := event.ref?.toList ++ a.issued }

def handling (a : Adapter) (ref : Ref) : Adapter := { a with handled := ref :: a.handled }

/-- What the process does with a message, or with the next turn of `drive_read`. -/
def handle (a : Adapter) : Event → Option Adapter
  | .drive answer =>
      match a.control with
      | .driving chunks deliveries => some (a.driveRead chunks deliveries answer)
      | _ => none
  | .stackExits => some { a with stackGone := true }
  | .drainActive => if a.control = .draining then some a.drainActive else none
  | .shutdownExit => if a.control = .idle then some a.terminateShutdown else none
  | .ownerDown => if a.control = .idle then some a.stop else none
  | .stackDown => if a.control = .idle ∧ a.stackGone then some a.stackLost else none
  | .continueRead => if a.control = .idle ∧ 0 < a.continuations then some a.continueRead else none
  | .select ref answer =>
      if a.control = .idle ∧ ref ∈ a.issued then some ((a.handling ref).handleSelect ref answer) else none
  | .abort ref reason =>
      if a.control = .idle ∧ ref ∈ a.issued then some ((a.handling ref).handleAbort ref reason) else none
  | .readTimeout token => if a.control = .idle then some (a.readTimeout token) else none
  | .writeTimeout token => if a.control = .idle then some (a.writeTimeout token) else none
  | .send caller payload timer answer =>
      if a.control = .idle then some (a.send caller payload timer answer) else none
  | .recv caller length timer => if a.control = .idle then some (a.recv caller length timer) else none
  | .unrecv caller value => if a.control = .idle then some (a.unrecv caller value) else none
  | .shutdown caller how answer => if a.control = .idle then some (a.shutdown caller how answer) else none
  | .close caller => if a.control = .idle then some (a.close caller) else none
  | .setopts caller settings nodelay keepalive =>
      if a.control = .idle then some (a.setOptions caller settings nodelay keepalive) else none
  | .beginTransfer caller newOwner alive token =>
      if a.control = .idle then some (a.beginTransfer caller newOwner alive token) else none
  | .commitTransfer caller token messages alive =>
      if a.control = .idle then some (a.commitTransfer caller token messages alive) else none
  | .unsupported caller => if a.control = .idle then some (a.reply caller (.error .enotsup)).keep else none

/-- The stack arms a waiter under a new reference only. -/
def step (a : Adapter) (event : Event) : Option Adapter :=
  if event.ref?.all fun ref => decide (ref ∉ a.issued) then (a.issue event).handle event else none

/-- A socket that has just been connected or accepted, before its first read. -/
def start (owner : Pid) (options : Options) (control : Control) : Adapter where
  owner := owner
  options := options
  read := none
  readBuffer := []
  readScheduled := false
  readClosed := false
  write := none
  transfer := none
  control := control
  continuations := 0
  stackGone := false
  outputs := []
  setting := options.active
  since := []
  taken := []
  delivered := []
  unreceived := []
  discarded := false
  accepted := []
  calls := []
  complete := []
  severed := none
  writeFailed := false
  issued := []
  handled := []

/-- A socket with no send timeout that reads packets in the given framing. -/
def plainOptions (packet : PacketOption) (active : Active) : Options :=
  ⟨.inet6, active, .binary, packet, defaultBuffer, defaultBuffer_pos, defaultBuffer, none, false, false,
    false⟩

/-- An accepted socket drains first; a connected one schedules its first read. -/
def Initial (a : Adapter) : Prop :=
  ∃ owner options,
    a = start owner options .draining ∨ a = (start owner options .idle).scheduleActiveRead

variable {a b : Adapter}

/-- A process that has stopped handles nothing. -/
theorem handle_running {event : Event} (hevent : event ≠ .stackExits) (h : a.handle event = some b) :
    a.control ≠ .stopped := by
  intro hstopped
  cases event with
  | stackExits => exact hevent rfl
  | _ => simp [handle, hstopped] at h

end Adapter

end SmolNet.Inet6.Tcp
