import SmolNet.Adapter

/-!
# The states of the `gen_tcp` process

The process of a stream socket begins in `:connecting`, in `:listening`, or, for a connection that was
accepted, in `:connected`.  Its data is one record for all three; in `:connected` it is handled as an
`Adapter`, and around that stand what `connect` and `accept` are waiting for.
-/

namespace SmolNet.Inet6.Tcp

open InetBackend

inductive StateName where
  | connecting | listening | connected
deriving DecidableEq, Repr

inductive ConnectResult where
  | none | ok
  | error (reason : Reason)
deriving DecidableEq, Repr

structure Accept where
  caller : Caller
  select : Option Ref
  timer : Option Ref
deriving DecidableEq, Repr

structure Process where
  name : StateName
  data : Adapter
  -- `:continue_setup` comes before everything else; it opens the low-level socket
  setup : Bool
  opened : Bool
  connectResult : ConnectResult
  connectSelect : Option Ref
  connectFrom : Option Caller
  connectTimer : Option Ref
  accept : Option Accept
deriving DecidableEq, Repr

inductive ConnectAnswer where
  | ok
  | select (ref : Ref)
  | error (reason : LowReason)
deriving DecidableEq, Repr

/-- What opening and connecting comes to: each may fail, and so may what is set before `connect`. -/
inductive SetupAnswer where
  | notOpened (reason : LowReason)
  | notPrepared (reason : LowReason)
  | connect (answer : ConnectAnswer)
deriving DecidableEq, Repr

/-- The process for an accepted connection may fail to start. -/
inductive AcceptAnswer where
  | ok
  | notStarted (reason : Reason)
  | select (ref : Ref)
  | error (reason : LowReason)
deriving DecidableEq, Repr

namespace Process

variable (p : Process)

def reply (caller : Caller) (reply : Reply) : Process := { p with data := p.data.reply caller reply }

def stop : Process := { p with data := p.data.stop }

/-! ## Connecting -/

def clearConnectWaiter : Process :=
  { p with connectFrom := none, connectTimer := none, connectSelect := none, connectResult := .ok }

/-- Enters `:connected`, where active mode begins to read. -/
def connected : Process :=
  { p.clearConnectWaiter with name := .connected, data := p.data.scheduleActiveRead }

def finishConnect (result : ConnectResult) : Process := { p with connectTimer := none, connectResult := result }

def completeConnect (result : ConnectResult) : Process :=
  match p.connectFrom with
  | none => p.finishConnect result
  | some caller =>
      match result with
      | .error reason => ((p.finishConnect result).reply caller (.error reason)).clearConnectWaiter.stop
      | _ => ((p.finishConnect result).reply caller .socket).connected

def attemptConnect (answer : ConnectAnswer) : Process :=
  match answer with
  | .ok => { p with connectSelect := none }.completeConnect .ok
  | .select ref => { p with connectSelect := some ref }
  | .error reason => p.completeConnect (.error (ioReason p.data.stackGone reason))

def handleContinue (answer : SetupAnswer) : Process :=
  match answer with
  | .notOpened reason => { p with setup := false }.completeConnect (.error (ioReason p.data.stackGone reason))
  | .notPrepared reason =>
      { p with setup := false, opened := true }.completeConnect (.error (ioReason p.data.stackGone reason))
  | .connect answer => { p with setup := false, opened := true }.attemptConnect answer

/-- `expired` tells whether the deadline has passed when the call is handled. -/
def awaitConnect (caller : Caller) (expired : Bool) (timer : Option Ref) : Process :=
  if p.connectFrom.isSome then p.reply caller (.error .ealready)
  else
    match p.connectResult with
    | .ok => (p.reply caller .socket).connected
    | .error reason => (p.reply caller (.error reason)).stop
    | .none =>
        if expired then ({ p with connectSelect := none }.reply caller (.error .timeout)).stop
        else { p with connectFrom := some caller, connectTimer := timer }

def connectTimeout (token : Ref) : Process :=
  if p.connectTimer = some token then { p with connectSelect := none }.completeConnect (.error .timeout)
  else p

def selectConnect (ref : Ref) (answer : ConnectAnswer) : Process :=
  if p.opened ∧ p.connectSelect = some ref then { p with connectSelect := none }.attemptConnect answer
  else p

/-! ## Listening -/

def driveAccept (answer : AcceptAnswer) : Process :=
  match p.accept with
  | none => p
  | some accept =>
      match answer with
      | .ok => { p.reply accept.caller .socket with accept := none }
      | .notStarted reason => { p.reply accept.caller (.error reason) with accept := none }
      | .select ref => { p with accept := some { accept with select := some ref } }
      | .error reason =>
          { p.reply accept.caller (.error (ioReason p.data.stackGone reason)) with accept := none }

def acceptCall (caller : Caller) (timer : Option Ref) (answer : AcceptAnswer) : Process :=
  if p.accept.isSome then p.reply caller (.error .busy)
  else { p with accept := some ⟨caller, none, timer⟩ }.driveAccept answer

def acceptReference : Option Ref := p.accept.bind Accept.select

def forgetAcceptSelect : Process :=
  { p with accept := p.accept.map fun accept => { accept with select := none } }

def selectAccept (ref : Ref) (answer : AcceptAnswer) : Process :=
  if p.acceptReference = some ref then p.forgetAcceptSelect.driveAccept answer else p

/-- Answers the pending `accept`. -/
def failAccept (reason : Reason) : Process :=
  match p.accept with
  | none => p
  | some accept => { p.reply accept.caller (.error reason) with accept := none }

def acceptTimeout (token : Ref) : Process :=
  if p.accept.bind Accept.timer = some token then p.failAccept .timeout else p

def setListenerOptions (caller : Caller) (settings : List Setting) (nodelay keepalive : Option LowReason) :
    Process :=
  match (do
    let updated ← update .runtime p.data.options settings
    Adapter.updateLow (decide (p.data.options.nodelay ≠ updated.nodelay)) nodelay
    Adapter.updateLow (decide (p.data.options.keepalive ≠ updated.keepalive)) keepalive
    return updated : Except Reason Options) with
  | .ok updated => { p with data := { p.data with options := updated } }.reply caller .ok
  | .error reason => p.reply caller (.error reason)

/-! ## Ends -/

def failConnect (reason : Reason) : Process :=
  match p.connectFrom with
  | none => p
  | some caller => { p.reply caller (.error reason) with connectFrom := none }

/-- Fails what is pending in any state. -/
def failAll (reason : Reason) : Process :=
  { (p.failConnect reason).failAccept reason with
    data := ((p.failConnect reason).failAccept reason).data.failAll reason }

def stackLost : Process := (p.failAll .enetdown).stop

def terminateShutdown : Process := if p.data.stackGone then (p.failAll .enetdown).stop else p.stop

def handleAbort (ref : Ref) (reason : LowReason) : Process :=
  if translateReason reason = .enetdown then p.stackLost
  else if p.name = .connecting then
    if p.connectSelect = some ref then
      { p with connectSelect := none }.completeConnect (.error (translateReason reason))
    else p
  else if p.acceptReference = some ref then p.failAccept (translateReason reason)
  else p

end Process

/-! ## Runs -/

/-- The caller that an event is a call of. -/
def Event.caller? : Event → Option Caller
  | .send caller _ _ _ | .recv caller _ _ | .unrecv caller _ | .shutdown caller _ _ | .close caller
  | .setopts caller _ _ _ | .beginTransfer caller _ _ _ | .commitTransfer caller _ _ _
  | .unsupported caller => some caller
  | _ => none

inductive ProcessEvent where
  | continueSetup (answer : SetupAnswer)
  | awaitConnect (caller : Caller) (expired : Bool) (timer : Option Ref)
  | accept (caller : Caller) (timer : Option Ref) (answer : AcceptAnswer)
  | selectConnect (ref : Ref) (answer : ConnectAnswer)
  | selectAccept (ref : Ref) (answer : AcceptAnswer)
  | connectTimeout (token : Ref)
  | acceptTimeout (token : Ref)
  | adapter (event : Event)
deriving DecidableEq, Repr

def ProcessEvent.caller? : ProcessEvent → Option Caller
  | .awaitConnect caller _ _ | .accept caller _ _ => some caller
  | .adapter event => event.caller?
  | _ => none

namespace Process

variable (p : Process)

/-- Messages and calls in `:connecting` that have no handler of their own there. -/
def handleConnecting : Event → Option Process
  | .ownerDown => some p.stop
  | .stackDown => if p.data.stackGone then some p.stackLost else none
  | .shutdownExit => some p.terminateShutdown
  | .abort ref reason => some (if p.opened then p.handleAbort ref reason else p)
  | .close caller => some (p.reply caller .ok).stop
  | .send caller _ _ _ | .recv caller _ _ | .unrecv caller _ | .shutdown caller _ _
  | .setopts caller _ _ _ | .beginTransfer caller _ _ _ | .commitTransfer caller _ _ _
  | .unsupported caller => some (p.reply caller (.error .ealready))
  | .readTimeout _ | .writeTimeout _ => some p
  | .stackExits | .drive _ | .drainActive | .continueRead | .select _ _ => none

/-- A listener has no read that a transfer would resume. -/
def handleListening : Event → Option Process
  | .ownerDown => some p.stop
  | .stackDown => if p.data.stackGone then some p.stackLost else none
  | .shutdownExit => some p.terminateShutdown
  | .abort ref reason => some (p.handleAbort ref reason)
  | .close caller => some ((p.failAccept .closed).reply caller .ok).stop
  | .setopts caller settings nodelay keepalive =>
      some (p.setListenerOptions caller settings nodelay keepalive)
  | .beginTransfer caller newOwner alive token =>
      some { p with data := p.data.beginTransfer caller newOwner alive token }
  | .commitTransfer caller token messages alive =>
      some { p with data := p.data.commitWith id caller token messages alive }
  | .send caller _ _ _ | .recv caller _ _ | .unrecv caller _ | .shutdown caller _ _
  | .unsupported caller => some (p.reply caller (.error .enotsup))
  | .readTimeout _ | .writeTimeout _ => some p
  | .stackExits | .drive _ | .drainActive | .continueRead | .select _ _ => none

/-- Calls of the other states get the answer that any call without a handler gets; messages are ignored. -/
def handle (event : ProcessEvent) : Option Process :=
  match p.name with
  | .connecting =>
      match event with
      | .continueSetup answer => if p.data.control = .idle ∧ p.setup then some (p.handleContinue answer) else none
      | .awaitConnect caller expired timer =>
          if p.data.control = .idle ∧ p.setup = false then some (p.awaitConnect caller expired timer) else none
      | .accept caller _ _ =>
          if p.data.control = .idle ∧ p.setup = false then some (p.reply caller (.error .ealready)) else none
      | .selectConnect ref answer =>
          if p.data.control = .idle ∧ p.setup = false then some (p.selectConnect ref answer) else none
      | .connectTimeout token =>
          if p.data.control = .idle ∧ p.setup = false then some (p.connectTimeout token) else none
      | .acceptTimeout _ => if p.data.control = .idle ∧ p.setup = false then some p else none
      | .selectAccept _ _ => none
      | .adapter event =>
          if p.data.control = .idle ∧ p.setup = false then p.handleConnecting event else none
  | .listening =>
      match event with
      | .accept caller timer answer =>
          if p.data.control = .idle then some (p.acceptCall caller timer answer) else none
      | .awaitConnect caller _ _ =>
          if p.data.control = .idle then some (p.reply caller (.error .enotsup)) else none
      | .selectAccept ref answer => if p.data.control = .idle then some (p.selectAccept ref answer) else none
      | .acceptTimeout token => if p.data.control = .idle then some (p.acceptTimeout token) else none
      | .connectTimeout _ => if p.data.control = .idle then some p else none
      | .continueSetup _ | .selectConnect _ _ => none
      | .adapter event => if p.data.control = .idle then p.handleListening event else none
  | .connected =>
      match event with
      | .adapter event => (p.data.step event).map fun data => { p with data := data }
      | .awaitConnect caller _ _ | .accept caller _ _ =>
          if p.data.control = .idle then some (p.reply caller (.error .enotsup)) else none
      | .connectTimeout _ | .acceptTimeout _ => if p.data.control = .idle then some p else none
      | .continueSetup _ | .selectConnect _ _ | .selectAccept _ _ => none

/-- The stack's process may end at any time. -/
def step (event : ProcessEvent) : Option Process :=
  if event = .adapter .stackExits then some { p with data := { p.data with stackGone := true } }
  else p.handle event

/-- A process that has just been started. -/
def start (name : StateName) (data : Adapter) : Process where
  name := name
  data := data
  setup := decide (name = .connecting)
  opened := decide (name ≠ .connecting)
  connectResult := .none
  connectSelect := none
  connectFrom := none
  connectTimer := none
  accept := none

/-- To connect, to listen, or for a connection that was accepted. -/
def Initial (p : Process) : Prop :=
  ∃ owner options, p = start .connecting (Adapter.start owner options .idle) ∨
    p = start .listening (Adapter.start owner options .idle) ∨
    p = start .connected (Adapter.start owner options .draining)

end Process

end SmolNet.Inet6.Tcp
