import SmolNet.Access

/-!
# The end of a call

`finish_call`: within the call's readiness quota and budget it sends the queued abort
notifications, delivers the keys that wakers have marked ready, and resumes the sweep that an
overflow of the ready queue asked for.  Nothing here fails, so the steps are functions on states.
-/

namespace SmolNet.NativeStack

open Std Program

/-- The state after a budget checkpoint. -/
def spend (s : NativeStack) : NativeStack := { s with callBudget := s.callBudget.checkpoint.2 }

def popLock (s : NativeStack) : NativeStack :=
  { s with world := { s.world with locks := s.world.locks.tail } }

/-- Whether `try_lock` on the ready set succeeds. -/
def lockFree (s : NativeStack) : Bool := s.world.locks.headD true

/-! ## Messages -/

def observeNotification (s : NativeStack) : NativeStack :=
  { s with
    counters :=
      if s.world.deliveries.headD true then
        { s.counters with notificationsDelivered := s.counters.notificationsDelivered + 1 }
      else { s.counters with notificationsDropped := s.counters.notificationsDropped + 1 }
    world := { s.world with deliveries := s.world.deliveries.tail } }

/-- The reason an abort gives: why the stack shuts down, or that the socket closed. -/
def abortReason (s : NativeStack) : AbortReason :=
  match s.lifecycle with
  | .running => .closed
  | .shuttingDown | .shutdown => s.shutdownReason

def sendAbort (s : NativeStack) (notification : PendingNotification) : NativeStack :=
  s.observeNotification.logEvent
    (.notified notification.key notification.waiter s.abortReason)

def dropReadiness (s : NativeStack) : NativeStack :=
  { s with counters := { s.counters with readinessDropped := s.counters.readinessDropped + 1 } }

def deliverReady (s : NativeStack) (key : ReadyKey) : NativeStack :=
  match s.socketTable.takeReadyWaiter key with
  | (.notify waiter, table) =>
      { s.observeNotification with
        socketTable := table.rememberSent key.identity key.direction waiter }.logEvent
          (.selected key waiter)
  | (_, table) => { s with socketTable := table }.dropReadiness

def deliverOrDiscardReady (s : NativeStack) (key : ReadyKey) : NativeStack :=
  if s.lifecycle = .running then s.deliverReady key else s.dropReadiness

/-! ## The loops

Each takes what is left of the readiness quota and returns what it leaves of it. -/

def queueAborts (s : NativeStack) (aborts : List PendingNotification) : NativeStack :=
  { s with
    pendingNotifications := s.pendingNotifications ++ aborts
    history := { s.history with inHand := [] } }

def abortLoop : Nat → NativeStack → Nat × NativeStack
  | 0, s => (0, s)
  | n + 1, s =>
      match s.pendingNotifications with
      | [] => (n + 1, s)
      | notification :: rest =>
          if s.callBudget.checkpoint.1 then
            abortLoop n ({ s.spend with pendingNotifications := rest }.sendAbort notification)
          else (n + 1, s.spend)

/-- An overflow starts a sweep, or asks the one under way to run again from the start. -/
def takeOverflow (s : NativeStack) : NativeStack :=
  let s' := { s with ready := { s.ready with overflow := false } }
  if s.ready.overflow = true ∧ s.lifecycle = .running then
    if s.readySweep then { s' with readySweepResweep := true }
    else { s' with readySweep := true, readySweepCursor := none }
  else s'

/-- `drain_while`. -/
def drainReady (left : Nat) (s : NativeStack) : List ReadyKey × NativeStack :=
  if left = 0 then ([], s)
  else if s.callBudget.checkpoint.1 = false then ([], s.spend)
  else
    let s' := s.spend.popLock
    if s.lockFree then
      let drained := ReadyQueue.drainLoop left s'.ready.entries s'.callBudget
      (drained.1,
        { s' with ready := { s'.ready with entries := drained.2.1 }, callBudget := drained.2.2 })
    else ([], { s' with ready := { s'.ready with overflow := true } })

/-- Delivers keys in hand, and keeps those the budget does not reach for a later call. -/
def deliverKeys : List ReadyKey → Nat → NativeStack → Nat × NativeStack
  | [], left, s => (left, s)
  | key :: rest, left, s =>
      if s.callBudget.checkpoint.1 then
        deliverKeys rest (left - 1) (s.spend.deliverOrDiscardReady key)
      else
        deliverKeys rest left { s.spend with readySweepPending := s.readySweepPending ++ [key] }

def pendingLoop : Nat → NativeStack → Nat × NativeStack
  | 0, s => (0, s)
  | n + 1, s =>
      match s.readySweepPending with
      | [] => (n + 1, s)
      | key :: rest =>
          if s.callBudget.checkpoint.1 then
            pendingLoop n ({ s.spend with readySweepPending := rest }.deliverOrDiscardReady key)
          else (n + 1, s.spend)

/-- Where the sweep stands after a scan. -/
def advanceSweep (s : NativeStack) (scan : ReadyScan) : NativeStack :=
  if scan.complete = true ∧ s.readySweepResweep = true then
    { s with readySweepResweep := false, readySweepCursor := none }
  else
    { s with
      readySweep := !scan.complete
      readySweepCursor := if scan.complete then none else scan.cursor }

/-- One slice of the sweep; also returns what it cost. -/
def sweepReady (left : Nat) (s : NativeStack) : Nat × NativeStack :=
  if s.readySweep = true ∧ s.readySweepPending = [] ∧ 0 < left then
    let scanned := s.socketTable.scanReady s.readySweepCursor left left s.callBudget
    let delivered := deliverKeys scanned.1.keys left { s with callBudget := scanned.2 }
    (max scanned.1.entriesScanned scanned.1.keys.length, delivered.2.advanceSweep scanned.1)
  else (0, s)

/-- `has_pending`: a set whose lock is taken counts as pending. -/
def readyPending (s : NativeStack) : Bool × NativeStack :=
  if s.ready.overflow then (true, s)
  else (!s.lockFree || !s.ready.entries.isEmpty, s.popLock)

/-- The readiness work of a call: the work units it took, and the state it leaves. -/
def deliverReadiness (aborts : List PendingNotification) (s : NativeStack) : Nat × NativeStack :=
  let aborted := abortLoop s.limits.readyEvents (s.queueAborts aborts)
  let drained := drainReady aborted.1 aborted.2.takeOverflow
  let delivered := deliverKeys drained.1 aborted.1 drained.2
  let resumed := pendingLoop delivered.1 delivered.2
  let swept := sweepReady resumed.1 resumed.2
  (s.limits.readyEvents - resumed.1 + swept.1, swept.2)

/-- Whether readiness work is left, asked only if nothing else already is. -/
def readinessLeft (more : Bool) (s : NativeStack) : Bool × NativeStack :=
  if more || !s.pendingNotifications.isEmpty then (true, s)
  else
    let pending := s.readyPending
    (pending.1 || !s.readySweepPending.isEmpty || s.readySweep, pending.2)

/-- `finish_call` as a function. -/
def finish (result : Reply) (effects : Effects) (aborts : List PendingNotification)
    (s : NativeStack) : Envelope × NativeStack :=
  let delivered := deliverReadiness aborts s
  let left := delivered.2.readinessLeft effects.more
  let counted := { left.2 with
    counters := left.2.counters.observe {
      readyEvents := delivered.1
      maintenanceWork := effects.maintenanceWork } }
  -- An envelope without a continuation and with a poll time replaces the caller's timer.
  let scheduled :=
    match left.1, effects.pollAt with
    | false, some millis => { counted with scheduledPollAt := some (fromMillis millis) }
    | _, _ => counted
  (⟨result, effects.output, effects.pollAt, left.1⟩, scheduled)

def finishCall {ε : Type} (result : Reply) (effects : Effects) (aborts : List PendingNotification) :
    Op ε Envelope := fun s =>
  .ok (finish result effects aborts s).1 (finish result effects aborts s).2

@[simp] theorem wp_finishCall {ε : Type} {result : Reply} {effects : Effects}
    {aborts : List PendingNotification} {Q : Envelope → NativeStack → Prop}
    {E : ε → NativeStack → Prop} {s : NativeStack} :
    wp (finishCall result effects aborts : Op ε Envelope) Q E s ↔
      Q (finish result effects aborts s).1 (finish result effects aborts s).2 := Iff.rfl

end SmolNet.NativeStack
