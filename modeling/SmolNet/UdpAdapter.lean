import SmolNet.Adapter
import SmolNet.ActiveQuota

/-!
# The `gen_udp` adapter

The datagram socket's `gen_statem`, in state `:open`.  As for streams, each message it handles and each
turn of `drive_read` is an event.  The waiter that the stack holds for its reads is part of the state: it
is armed by an answer, and goes when it is cancelled or when it fires, which is an event of its own as
its message may be handled much later.
-/

namespace SmolNet.Inet6.Udp

open InetBackend
open Tcp (Caller Kind Pid Read Ref Transfer)

structure Datagram where
  source : IpAddress
  port : Nat
  data : Packet
deriving DecidableEq, Repr

/-- What is sent to the owner. -/
inductive Message where
  | udp (mode : Mode) (datagram : Datagram)
  | udpPassive
  | udpError (reason : Reason)
deriving DecidableEq, Repr

def Message.kind : Message → MessageKind
  | .udp _ _ => .data
  | .udpPassive => .passive
  | .udpError _ => .terminal

inductive Reply where
  | ok
  | unchanged
  | token (token : Ref)
  | datagram (mode : Mode) (datagram : Datagram)
  | error (reason : Reason)
deriving DecidableEq, Repr

inductive Output where
  | message (recipient : Pid) (message : Message)
  | forward (recipient : Pid) (message : Message)
  | reply (caller : Caller) (reply : Reply)
deriving DecidableEq, Repr

structure Write where
  caller : Caller
  select : Option Ref
deriving DecidableEq, Repr

inductive Control where
  | draining
  | idle
  | driving (deliveries : Nat)
  | stopped
deriving DecidableEq, Repr

structure Adapter where
  owner : Pid
  options : Options
  read : Option Read
  readScheduled : Bool
  write : Option Write
  transfer : Option Transfer
  control : Control
  -- the `:continue_read` messages in its mailbox, and whether the stack's process has ended
  continuations : Nat
  stackGone : Bool
  outputs : List Output
  -- the last value that `active` was set to, and the messages since
  setting : Active
  since : List Message
  -- the waiter that the stack holds for reads, and those that have fired and were not handled yet
  waiter : Option Ref
  fired : List Ref
  -- the references of its writes' waiters, and of all waiters
  writeIssued : List Ref
  issued : List Ref
deriving DecidableEq, Repr

def maxActiveDeliveries : Nat := 16

inductive RecvfromAnswer where
  | ok (datagram : Datagram)
  | select (ref : Ref)
  | error (reason : LowReason)
deriving DecidableEq, Repr

/-- The stack refuses a second waiter as `busy`, and nothing else; while it holds one, it returns no
datagram and arms no other. -/
def RecvfromAnswer.possible (waiter : Option Ref) : RecvfromAnswer → Bool
  | .ok _ | .select _ => waiter.isNone
  | .error reason => waiter.isSome || reason != .busy

def RecvfromAnswer.ref? : RecvfromAnswer → Option Ref
  | .ok _ | .error _ => none
  | .select ref => some ref

inductive SendtoAnswer where
  | ok
  | select (ref : Ref)
  | error (reason : LowReason)
deriving DecidableEq, Repr

def SendtoAnswer.ref? : SendtoAnswer → Option Ref
  | .ok | .error _ => none
  | .select ref => some ref

def translateReason : LowReason → Reason
  | .networkUnreachable => .enetunreach
  | .addressInUse => .eaddrinuse
  | .addressNotAvailable => .eaddrnotavail
  | .ephemeralPortsExhausted | .systemLimit => .systemLimit
  | .unsupportedFamily => .eafnosupport
  | .unsupportedSocket => .enotsup
  | .invalidOptions | .invalidAddress | .invalidPort | .scopeRequired | .invalidScope
  | .invalidSocketState | .notBound => .einval
  | .notConnected => .enotconn
  | .messageTooLarge => .emsgsize
  | .invalidSocket => .closed
  | .stackDown | .linkDown => .enetdown
  | .closed => .closed
  | .busy => .busy
  | .timeout => .timeout
  | .connectionRefused | .connectionReset | .connectionTimeout | .unsupportedTimeout | .alreadyConnected
  | .invalidHow | .invalidBacklog | .other => .other

def ioReason (stackGone : Bool) (reason : LowReason) : Reason :=
  if translateReason reason = .closed ∧ stackGone then .enetdown else translateReason reason

/-- What a waiter is aborted with. -/
def abortReason : AbortReason → Reason
  | .closed => .closed
  | .linkDown | .stackDown => .enetdown

namespace Adapter

variable (a : Adapter)

def reply (caller : Caller) (reply : Reply) : Adapter :=
  { a with outputs := a.outputs ++ [.reply caller reply] }

def tell (message : Message) : Adapter :=
  { a with outputs := a.outputs ++ [.message a.owner message], since := a.since ++ [message] }

def keep : Adapter := { a with control := .idle }

def stop : Adapter := { a with control := .stopped }

def drive (deliveries : Nat) : Adapter := { a with control := .driving deliveries }

/-! ## Reads -/

def readReference : Option Ref := a.read.bind Read.select

/-- Takes the read's waiter back, unless it has fired. -/
def cancelReadSelect : Adapter :=
  { a with
    read := a.read.map fun read => { read with select := none }
    waiter := if a.readReference.isSome ∧ a.waiter = a.readReference then none else a.waiter }

def forgetSelect : Adapter := { a with read := a.read.map fun read => { read with select := none } }

def activeRead : Read := ⟨.active, 0, none⟩

def ensureActiveRead : Adapter :=
  if a.options.active = .off then a
  else if a.read.isSome then a
  else { a with read := some activeRead }

def scheduleReadContinuation : Adapter :=
  if a.options.active = .off then a
  else if a.readScheduled then a
  else if a.readReference.isSome then a
  else { a with continuations := a.continuations + 1, readScheduled := true }

def endRead : Adapter := { a with read := none }

def endActive : Adapter := { a with read := none, options := { a.options with active := .off } }

def readFailure (reason : Reason) : Adapter :=
  match a.read with
  | none => a.keep
  | some read =>
      match read.kind with
      | .passive caller _ => (a.reply caller (.error reason)).endRead.keep
      | .active => (a.tell (.udpError reason)).endActive.keep

def consume : Adapter :=
  if (consumeActive a.options.active).2 then
    { a.tell .udpPassive with options := { a.options with active := (consumeActive a.options.active).1 } }
  else { a with options := { a.options with active := (consumeActive a.options.active).1 } }

def tellDatagram (datagram : Datagram) : Adapter := (a.tell (.udp a.options.mode datagram)).consume

def deliverDatagram (read : Read) (datagram : Datagram) (deliveries : Nat) : Adapter :=
  match read.kind with
  | .passive caller _ => (a.reply caller (.datagram a.options.mode datagram)).endRead.keep
  | .active =>
      if (a.tellDatagram datagram).options.active = .off then (a.tellDatagram datagram).endRead.keep
      else (a.tellDatagram datagram).drive (deliveries - 1)

/-- Whether a turn of `drive_read` with so many deliveries left asks the stack for a datagram. -/
def asks (deliveries : Nat) : Bool := a.read.isSome && a.transfer.isNone && decide (0 < deliveries)

/-- One turn; a call of itself is left to the next. -/
def driveRead (deliveries : Nat) (answer : RecvfromAnswer) : Adapter :=
  match a.read with
  | none => a.keep
  | some read =>
      if a.transfer.isSome then a.keep
      else if deliveries = 0 then
        if a.readReference.isSome then a.keep else a.scheduleReadContinuation.keep
      else
        match answer with
        | .ok datagram => a.cancelReadSelect.deliverDatagram read datagram deliveries
        | .select ref => { a with read := some { read with select := some ref }, waiter := some ref }.keep
        | .error reason => a.readFailure (ioReason a.stackGone reason)

/-! ## Calls -/

def driveWrite (answer : SendtoAnswer) : Adapter :=
  match a.write with
  | none => a.keep
  | some write =>
      match answer with
      | .ok => { a.reply write.caller .ok with write := none }.keep
      | .select ref =>
          { a with write := some { write with select := some ref }, writeIssued := ref :: a.writeIssued }.keep
      | .error reason => { a.reply write.caller (.error (ioReason a.stackGone reason)) with write := none }.keep

/-- `refused` is what the destination or the data is refused with, if they are. -/
def send (caller : Caller) (refused : Option Reason) (answer : SendtoAnswer) : Adapter :=
  if a.write.isSome then (a.reply caller (.error .busy)).keep
  else if a.transfer.isSome then (a.reply caller (.error .busy)).keep
  else
    match refused with
    | some reason => (a.reply caller (.error reason)).keep
    | none => { a with write := some ⟨caller, none⟩ }.driveWrite answer

def recv (caller : Caller) (length : Nat) (timer : Option Ref) : Adapter :=
  if a.options.active ≠ .off then (a.reply caller (.error .einval)).keep
  else if a.read.isSome then (a.reply caller (.error .busy)).keep
  else if a.transfer.isSome then (a.reply caller (.error .busy)).keep
  else { a with read := some ⟨.passive caller timer, length, none⟩ }.drive maxActiveDeliveries

def failRead (reason : Reason) : Adapter :=
  match a.read with
  | none => if a.options.active = .off then a else a.tell (.udpError reason)
  | some read =>
      match read.kind with
      | .passive caller _ => a.reply caller (.error reason)
      | .active => if a.options.active = .off then a else a.tell (.udpError reason)

def failWrite (reason : Reason) : Adapter :=
  match a.write with
  | none => a
  | some write => { a.reply write.caller (.error reason) with write := none }

def failOperations (reason : Reason) : Adapter := ((a.failRead reason).failWrite reason).endRead

def close (caller : Caller) : Adapter := ((a.failOperations .closed).reply caller .ok).stop

/-! ## Options -/

def optionChangeAllowed (updated : Options) : Except Reason Unit :=
  match a.read with
  | some ⟨.passive _ _, _, _⟩ =>
      if updated.active ≠ .off ∨ updated.mode ≠ a.options.mode ∨ updated.buffer ≠ a.options.buffer then
        .error .busy
      else .ok ()
  | _ => .ok ()

def hasActiveRead : Bool := a.read.any fun read => read.kind.isActive

def applyActiveChange (updated : Options) : Adapter :=
  if updated.active = .off then
    if a.hasActiveRead then { a.cancelReadSelect with options := updated, read := none }
    else { a with options := updated }
  else { a with options := updated }.ensureActiveRead.scheduleReadContinuation

/-- Begins to count messages anew where the settings name `active`. -/
def restart (settings : List Setting) (updated : Options) : Adapter :=
  if settings.any Setting.isActive then { a with setting := updated.active, since := [] } else a

def checkOptions (settings : List Setting) : Except Reason Options := do
  let updated ← update .udpRuntime a.options settings
  a.optionChangeAllowed updated
  return updated

def setOptions (caller : Caller) (settings : List Setting) : Adapter :=
  match a.checkOptions settings with
  | .ok updated => (((a.restart settings updated).applyActiveChange updated).reply caller .ok).keep
  | .error reason => (a.reply caller (.error reason)).keep

/-! ## Change of owner -/

def beginTransfer (caller : Caller) (newOwner : Pid) (alive : Bool) (token : Ref) : Adapter :=
  if caller.pid ≠ a.owner then (a.reply caller (.error .notOwner)).keep
  else if a.transfer.isSome then (a.reply caller (.error .busy)).keep
  else if a.read.any fun read => !read.kind.isActive then (a.reply caller (.error .busy)).keep
  else if newOwner = a.owner then (a.reply caller .unchanged).keep
  else if alive then
    ({ a with transfer := some ⟨token, a.owner, newOwner⟩ }.reply caller (.token token)).keep
  else (a.reply caller (.error .badarg)).keep

def forward (messages : List Message) : Adapter :=
  { a with outputs := a.outputs ++ messages.map (.forward a.owner) }

def commitTransfer (caller : Caller) (token : Ref) (messages : List Message) (alive : Bool) : Adapter :=
  match a.transfer with
  | none => (a.reply caller (.error .einval)).keep
  | some transfer =>
      if transfer.token ≠ token then (a.reply caller (.error .einval)).keep
      else if caller.pid ≠ transfer.oldOwner then (a.reply caller (.error .notOwner)).keep
      else if alive then
        (({ a with owner := transfer.newOwner, transfer := none }.forward
          messages).scheduleReadContinuation.reply caller .ok).keep
      else ({ a with transfer := none }.scheduleReadContinuation.reply caller (.error .badarg)).keep

/-! ## Messages -/

def drainActive : Adapter := { a with readScheduled := false }.ensureActiveRead.drive maxActiveDeliveries

def continueRead : Adapter :=
  { a with continuations := a.continuations - 1, readScheduled := false }.drive maxActiveDeliveries

def writeReference : Option Ref := a.write.bind Write.select

def forgetWriteSelect : Adapter :=
  { a with write := a.write.map fun write => { write with select := none } }

def handleSelect (ref : Ref) (answer : SendtoAnswer) : Adapter :=
  if a.readReference = some ref then a.forgetSelect.drive maxActiveDeliveries
  else if a.writeReference = some ref then a.forgetWriteSelect.driveWrite answer
  else a.keep

def stackLost : Adapter := (a.failOperations .enetdown).stop

def handleAbort (ref : Ref) (reason : AbortReason) : Adapter :=
  if abortReason reason = .enetdown then a.stackLost
  else if a.readReference = some ref then a.forgetSelect.readFailure (abortReason reason)
  else if a.writeReference = some ref then (a.failWrite (abortReason reason)).keep
  else a.keep

def readTimer : Option (Caller × Ref) :=
  match a.read with
  | some ⟨.passive caller (some token), _, _⟩ => some (caller, token)
  | _ => none

def readTimeout (token : Ref) : Adapter :=
  match a.readTimer with
  | some (caller, armed) =>
      if armed = token then (a.cancelReadSelect.reply caller (.error .timeout)).endRead.keep else a.keep
  | none => a.keep

def terminateShutdown : Adapter := if a.stackGone then (a.failOperations .enetdown).stop else a.stop

end Adapter

/-! ## Runs -/

inductive Event where
  | stackExits
  | fires
  | drive (answer : RecvfromAnswer)
  | drainActive
  | continueRead
  | select (ref : Ref) (answer : SendtoAnswer)
  | abort (ref : Ref) (reason : AbortReason)
  | readTimeout (token : Ref)
  | ownerDown
  | stackDown
  | shutdownExit
  | send (caller : Caller) (refused : Option Reason) (answer : SendtoAnswer)
  | recv (caller : Caller) (length : Nat) (timer : Option Ref)
  | connect (caller : Caller) (answer : Option LowReason)
  | close (caller : Caller)
  | setopts (caller : Caller) (settings : List Setting)
  | beginTransfer (caller : Caller) (newOwner : Pid) (alive : Bool) (token : Ref)
  | commitTransfer (caller : Caller) (token : Ref) (messages : List Message) (alive : Bool)
  | unsupported (caller : Caller)
deriving DecidableEq, Repr

/-- The waiter that the stack arms in its answer, if it does. -/
def Event.ref? : Event → Option Ref
  | .drive answer => answer.ref?
  | .select _ answer | .send _ _ answer => answer.ref?
  | _ => none

/-- The caller that an event is a call of. -/
def Event.caller? : Event → Option Caller
  | .send caller _ _ | .recv caller _ _ | .connect caller _ | .close caller | .setopts caller _
  | .beginTransfer caller _ _ _ | .commitTransfer caller _ _ _ | .unsupported caller => some caller
  | _ => none

namespace Adapter

/-- Notes the waiter that is armed. -/
def issue (a : Adapter) (event : Event) : Adapter := { a with issued := event.ref?.toList ++ a.issued }

/-- The message of a waiter leaves the mailbox. -/
def handling (a : Adapter) (ref : Ref) : Adapter := { a with fired := a.fired.erase ref }

/-- What the process, or the stack that it reads from, does next. -/
def handle (a : Adapter) : Event → Option Adapter
  | .drive answer =>
      match a.control with
      | .driving deliveries =>
          if a.asks deliveries = false ∨ answer.possible a.waiter = true then
            some (a.driveRead deliveries answer)
          else none
      | _ => none
  | .stackExits => some { a with stackGone := true }
  | .fires =>
      if a.waiter.isSome then some { a with waiter := none, fired := a.waiter.toList ++ a.fired } else none
  | .drainActive => if a.control = .draining then some a.drainActive else none
  | .continueRead => if a.control = .idle ∧ 0 < a.continuations then some a.continueRead else none
  | .select ref answer =>
      if a.control = .idle ∧ (ref ∈ a.fired ∨ ref ∈ a.writeIssued) then
        some ((a.handling ref).handleSelect ref answer)
      else none
  | .abort ref reason =>
      if a.control = .idle ∧ (ref ∈ a.fired ∨ ref ∈ a.writeIssued) then
        some ((a.handling ref).handleAbort ref reason)
      else none
  | .readTimeout token => if a.control = .idle then some (a.readTimeout token) else none
  | .ownerDown => if a.control = .idle then some a.stop else none
  | .stackDown => if a.control = .idle ∧ a.stackGone then some a.stackLost else none
  | .shutdownExit => if a.control = .idle then some a.terminateShutdown else none
  | .send caller refused answer => if a.control = .idle then some (a.send caller refused answer) else none
  | .recv caller length timer => if a.control = .idle then some (a.recv caller length timer) else none
  | .connect caller answer =>
      if a.control = .idle then
        some (a.reply caller ((answer.map fun reason => .error (translateReason reason)).getD .ok)).keep
      else none
  | .close caller => if a.control = .idle then some (a.close caller) else none
  | .setopts caller settings => if a.control = .idle then some (a.setOptions caller settings) else none
  | .beginTransfer caller newOwner alive token =>
      if a.control = .idle then some (a.beginTransfer caller newOwner alive token) else none
  | .commitTransfer caller token messages alive =>
      if a.control = .idle then some (a.commitTransfer caller token messages alive) else none
  | .unsupported caller => if a.control = .idle then some (a.reply caller (.error .enotsup)).keep else none

/-- The stack arms a waiter under a new reference only. -/
def step (a : Adapter) (event : Event) : Option Adapter :=
  if event.ref?.all fun ref => decide (ref ∉ a.issued) then (a.issue event).handle event else none

/-- A socket that has just been opened, before its first read. -/
def start (owner : Pid) (options : Options) : Adapter where
  owner := owner
  options := options
  read := none
  readScheduled := false
  write := none
  transfer := none
  control := .draining
  continuations := 0
  stackGone := false
  outputs := []
  setting := options.active
  since := []
  waiter := none
  fired := []
  writeIssued := []
  issued := []

def Initial (a : Adapter) : Prop := ∃ owner options, a = start owner options

end Adapter

end SmolNet.Inet6.Udp
