import SmolNet.UdpReads

/-!
# What the `gen_udp` adapter asks of the stack, and what it answers

Where no continuation is left over when a read is accepted, the stack is asked for a datagram only while it
holds no waiter of the adapter, so that no read is refused as `busy`.  A continuation that is left over
from active mode runs into the waiter of the passive read.
-/

namespace SmolNet.Inet6.Udp

open InetBackend
open Tcp (Caller Kind Pid Read Ref Transfer)
open ReadSide

namespace Adapter

variable {P : Prop} {a b : Adapter}

/-! ## Reads that are refused as `busy` -/

theorem busy_of_ioReason {stackGone : Bool} {reason : LowReason} (h : ioReason stackGone reason = .busy) :
    reason = .busy := by
  unfold ioReason at h
  split at h
  · cases h
  · cases reason <;> first | rfl | cases h

/-- How often a caller was answered `busy`. -/
def refusals (a : Adapter) (caller : Caller) : Nat := a.outputs.count (.reply caller (.error .busy))

variable {caller : Caller}

theorem refusals_reply {other : Caller} {answer : Reply} (h : other ≠ caller ∨ answer ≠ .error .busy) :
    (a.reply other answer).refusals caller = a.refusals caller := by
  have hother : (Output.reply other answer == Output.reply caller (.error .busy)) = false := by
    rw [beq_eq_false_iff_ne]
    intro hsame
    injection hsame with hcaller hanswer
    exact h.elim (absurd hcaller) (absurd hanswer)
  simp [refusals, Adapter.reply, List.count_append, List.count_singleton, hother]

theorem refusals_tell (message : Message) : (a.tell message).refusals caller = a.refusals caller := by
  simp [refusals, tell, List.count_append]

theorem refusals_forward (messages : List Message) :
    (a.forward messages).refusals caller = a.refusals caller := by
  have hnone : (messages.map (Output.forward a.owner)).count (.reply caller (.error .busy)) = 0 := by
    rw [List.count_eq_zero]
    simp
  simp [refusals, forward, List.count_append, hnone]

theorem refusals_scheduleReadContinuation :
    a.scheduleReadContinuation.refusals caller = a.refusals caller := by
  unfold scheduleReadContinuation
  split_ifs <;> rfl

theorem refusals_ensureActiveRead : a.ensureActiveRead.refusals caller = a.refusals caller := by
  unfold ensureActiveRead
  split_ifs <;> rfl

theorem refusals_readFailure {reason : Reason} (hreason : reason ≠ .busy) :
    (a.readFailure reason).refusals caller = a.refusals caller := by
  unfold readFailure
  split
  · rfl
  · split
    · exact refusals_reply (.inr (by simpa using hreason))
    · exact refusals_tell _

theorem refusals_tellDatagram (datagram : Datagram) :
    (a.tellDatagram datagram).refusals caller = a.refusals caller := by
  unfold tellDatagram consume
  split
  · exact (refusals_tell (a := a.tell _) .udpPassive).trans (refusals_tell _)
  · exact refusals_tell (a := a) _

theorem refusals_deliverDatagram {read : Read} {datagram : Datagram} {deliveries : Nat} :
    (a.deliverDatagram read datagram deliveries).refusals caller = a.refusals caller := by
  unfold deliverDatagram
  split
  · exact refusals_reply (.inr (by simp))
  · split <;> exact refusals_tellDatagram datagram

theorem refusals_driveRead {deliveries : Nat} {answer : RecvfromAnswer}
    (h : a.asks deliveries = false ∨ answer ≠ .error .busy) :
    (a.driveRead deliveries answer).refusals caller = a.refusals caller := by
  unfold driveRead
  split
  · rfl
  · rename_i read hread
    split
    · rfl
    · rename_i htransfer
      split
      · split
        · rfl
        · exact refusals_scheduleReadContinuation
      · rename_i hmore
        split
        · exact refusals_deliverDatagram
        · rfl
        · rename_i reason
          apply refusals_readFailure
          intro hbusy
          rcases h with hasks | hanswer
          · simp [asks, hread, htransfer, Nat.pos_of_ne_zero hmore] at hasks
          · exact hanswer (congrArg _ (busy_of_ioReason hbusy))

theorem refusals_driveWrite {answer : SendtoAnswer}
    (hwrite : ∀ write, a.write = some write → write.caller ≠ caller) :
    (a.driveWrite answer).refusals caller = a.refusals caller := by
  unfold driveWrite
  split
  · rfl
  · rename_i write hpending
    split
    · exact refusals_reply (.inl (hwrite write hpending))
    · rfl
    · exact refusals_reply (.inl (hwrite write hpending))

theorem refusals_failRead {reason : Reason} (hreason : reason ≠ .busy) :
    (a.failRead reason).refusals caller = a.refusals caller := by
  unfold failRead
  split
  · split
    · rfl
    · exact refusals_tell _
  · split
    · exact refusals_reply (.inr (by simpa using hreason))
    · split
      · rfl
      · exact refusals_tell _

theorem refusals_failWrite {reason : Reason} (hreason : reason ≠ .busy) :
    (a.failWrite reason).refusals caller = a.refusals caller := by
  unfold failWrite
  split
  · rfl
  · exact refusals_reply (.inr (by simpa using hreason))

theorem refusals_failOperations {reason : Reason} (hreason : reason ≠ .busy) :
    (a.failOperations reason).refusals caller = a.refusals caller :=
  (refusals_failWrite (a := a.failRead reason) hreason).trans (refusals_failRead hreason)

theorem refusals_applyActiveChange (settings : List Setting) (updated : Options) :
    ((a.restart settings updated).applyActiveChange updated).refusals caller = a.refusals caller := by
  have hrestart : (a.restart settings updated).refusals caller = a.refusals caller := by
    unfold restart
    split <;> rfl
  unfold applyActiveChange
  split
  · split <;> exact hrestart
  · rw [refusals_scheduleReadContinuation, refusals_ensureActiveRead]
    exact hrestart

theorem abortReason_ne_busy (reason : AbortReason) : abortReason reason ≠ .busy := by
  cases reason <;> simp [abortReason]

/-- Nobody but the caller of an event is refused as `busy` by it, unless the stack refuses a read. -/
theorem refusals_handle {event : Event} (hcaller : event.caller? ≠ some caller)
    (hwrite : ∀ write, a.write = some write → write.caller ≠ caller)
    (hanswer : ∀ deliveries answer, a.control = .driving deliveries → event = .drive answer →
      a.asks deliveries = true → answer ≠ .error .busy)
    (hstep : a.handle event = some b) : b.refusals caller = a.refusals caller := by
  have hreply : ∀ (c : Adapter) (other : Caller) (answer : Reply), event.caller? = some other →
      (c.reply other answer).refusals caller = c.refusals caller := by
    intro c other answer hother
    apply refusals_reply
    left
    rintro rfl
    exact hcaller hother
  cases event
  case stackExits =>
    obtain rfl := Option.some.inj hstep
    rfl
  case drive answer =>
    simp only [handle] at hstep
    split at hstep
    · rename_i deliveries hcontrol
      obtain ⟨-, rfl⟩ := Transition.guarded hstep
      apply refusals_driveRead
      cases hasks : a.asks deliveries with
      | false => exact .inl rfl
      | true => exact .inr (hanswer deliveries answer hcontrol rfl hasks)
    · cases hstep
  all_goals obtain ⟨-, rfl⟩ := Transition.guarded hstep
  case fires => rfl
  case drainActive => exact refusals_ensureActiveRead (a := { a with readScheduled := false })
  case continueRead => rfl
  case select ref answer =>
    unfold handleSelect
    split
    · rfl
    · split
      · apply refusals_driveWrite (a := (a.handling ref).forgetWriteSelect)
        intro write hpending
        obtain ⟨old, hold, rfl⟩ := Option.map_eq_some_iff.1 hpending
        exact hwrite old hold
      · rfl
  case abort ref reason =>
    unfold handleAbort
    split
    · exact refusals_failOperations (a := a.handling ref) (by simp)
    · split
      · exact refusals_readFailure (a := (a.handling ref).forgetSelect) (abortReason_ne_busy reason)
      · split
        · exact refusals_failWrite (a := a.handling ref) (abortReason_ne_busy reason)
        · rfl
  case readTimeout token =>
    unfold readTimeout
    split
    · split
      · exact refusals_reply (a := a.cancelReadSelect) (.inr (by simp))
      · rfl
    · rfl
  case ownerDown => rfl
  case stackDown => exact refusals_failOperations (by simp)
  case shutdownExit =>
    unfold terminateShutdown
    split
    · exact refusals_failOperations (by simp)
    · rfl
  case send other refused answer =>
    unfold send
    split
    · exact hreply _ _ _ rfl
    · split
      · exact hreply _ _ _ rfl
      · split
        · exact hreply _ _ _ rfl
        · apply refusals_driveWrite (a := { a with write := some ⟨other, none⟩ })
          intro write hpending
          obtain rfl := Option.some.inj hpending
          rintro rfl
          exact hcaller rfl
  case recv other length timer =>
    unfold recv
    split
    · exact hreply _ _ _ rfl
    · split
      · exact hreply _ _ _ rfl
      · split
        · exact hreply _ _ _ rfl
        · rfl
  case connect other answer => exact hreply _ _ _ rfl
  case close other => exact (hreply _ _ _ rfl).trans (refusals_failOperations (by simp))
  case setopts other settings =>
    unfold setOptions
    split
    · exact (hreply _ _ _ rfl).trans (refusals_applyActiveChange settings _)
    · exact hreply _ _ _ rfl
  case beginTransfer other newOwner alive token =>
    unfold beginTransfer
    split_ifs <;> exact hreply _ _ _ rfl
  case commitTransfer other token messages alive =>
    unfold commitTransfer
    split
    · exact hreply _ _ _ rfl
    · rename_i transfer _
      split
      · exact hreply _ _ _ rfl
      · split
        · exact hreply _ _ _ rfl
        · split
          · apply (hreply _ _ _ rfl).trans
            rw [refusals_scheduleReadContinuation]
            exact refusals_forward (a := { a with owner := transfer.newOwner, transfer := none }) messages
          · apply (hreply _ _ _ rfl).trans
            exact refusals_scheduleReadContinuation (a := { a with transfer := none })
  case unsupported other => exact hreply _ _ _ rfl

instance (a : Adapter) (event : Event) : Decidable (a.Calm event) := by
  cases event <;> unfold Calm <;> infer_instance

theorem step_handle {event : Event} (h : a.step event = some b) : (a.issue event).handle event = some b := by
  unfold step at h
  split at h
  · exact h
  · cases h

/-- An accepted read is not answered at once. -/
theorem step_recv {length : Nat} {timer : Option Ref} (hoff : a.options.active = .off) (hread : a.read = none)
    (htransfer : a.transfer = none) (hstep : a.step (.recv caller length timer) = some b) :
    b.outputs = a.outputs ∧ b.read = some ⟨.passive caller timer, length, none⟩ := by
  obtain ⟨-, rfl⟩ := Transition.guarded (step_handle hstep)
  simp [recv, issue, hoff, hread, htransfer, drive]

theorem possible_answer {deliveries : Nat} {answer : RecvfromAnswer} (hcontrol : a.control = .driving deliveries)
    (hstep : a.handle (.drive answer) = some b) :
    a.asks deliveries = false ∨ answer.possible a.waiter = true := by
  simp only [handle, hcontrol] at hstep
  exact (Transition.guarded hstep).1

theorem refusals_step (hquiet : ∀ deliveries, a.control = .driving deliveries → a.waiter = none) {event : Event}
    (hcaller : event.caller? ≠ some caller) (hwrite : ∀ write, a.write = some write → write.caller ≠ caller)
    (hstep : a.step event = some b) : b.refusals caller = a.refusals caller := by
  have hhandle := step_handle hstep
  apply refusals_handle (a := a.issue event) hcaller hwrite _ hhandle
  rintro deliveries answer hcontrol rfl hasks rfl
  -- the stack refuses a read as `busy` only over a waiter that it holds
  have hnone : (a.issue (.drive (.error .busy))).waiter = none := hquiet deliveries hcontrol
  rcases possible_answer hcontrol hhandle with hidle | hpossible
  · rw [hasks] at hidle
    cases hidle
  · rw [hnone] at hpossible
    cases hpossible

/-- Where no `:continue_read` is on its way when a read is accepted: the stack is asked for a datagram only
while it holds no waiter of the adapter; a waiter belongs to the pending read; and a read that was accepted
is not refused as `busy`, neither at once nor later. -/
theorem reaches_alone (h : Transition.Reaches Adapter.step Calm Initial a) :
    (∀ deliveries, a.control = .driving deliveries → a.asks deliveries = true →
      a.readReference = none ∧ a.waiter = none) ∧
    (a.control ≠ .stopped → ∀ ref, a.waiter = some ref → a.readReference = some ref) ∧
    (∀ caller length timer b, a.options.active = .off → a.read = none → a.transfer = none →
      a.step (.recv caller length timer) = some b →
      b.outputs = a.outputs ∧ b.read = some ⟨.passive caller timer, length, none⟩) ∧
    (∀ caller timer length select event b, a.read = some ⟨.passive caller timer, length, select⟩ →
      event.caller? ≠ some caller → (∀ write, a.write = some write → write.caller ≠ caller) →
      a.step event = some b → b.refusals caller = a.refusals caller) := by
  have hsafe : Safe True a := reaches_safe (fun _ _ hok _ => hok) h
  have hquiet : ∀ deliveries, a.control = .driving deliveries → a.readReference = none ∧ a.waiter = none := by
    intro deliveries hcontrol
    rcases hsafe with hsound | ⟨hstopped, -⟩
    · have hquiet := hsound.driving trivial deliveries hcontrol
      refine ⟨?_, hsound.side.no_waiter trivial hquiet.2⟩
      cases hread : a.read with
      | none => simp [readReference, hread]
      | some read =>
          have hnone := hquiet.2 read hread
          simp [readReference, hread, hnone]
    · rw [hcontrol] at hstopped
      cases hstopped
  refine ⟨fun deliveries hcontrol _ => hquiet deliveries hcontrol, ?_, ?_, ?_⟩
  · intro hrunning ref hwaiter
    rcases hsafe with hsound | ⟨hstopped, -⟩
    · obtain ⟨read, hread, hselect⟩ := hsound.side.waiter trivial ref hwaiter
      exact Option.bind_eq_some_iff.2 ⟨read, hread, hselect⟩
    · exact absurd hstopped hrunning
  · intro caller length timer b hoff hread htransfer hstep
    exact step_recv hoff hread htransfer hstep
  · intro caller timer length select event b _ hcaller hwrite hstep
    exact refusals_step (fun deliveries hcontrol => (hquiet deliveries hcontrol).2) hcaller hwrite hstep

/-- Process 1 asks for a datagram, and waits. -/
def asksAlone : List Event :=
  [.drainActive, .drive (.error .other), .recv ⟨1, 0⟩ 0 none, .drive (.select 0), .fires, .select 0 .ok]

/-- What a read is looked at for. -/
structure ReadView where
  control : Control
  asking : Bool
  read : Option Read
  waiter : Option Ref
  refusals : Nat
deriving DecidableEq, Repr

def readView (a : Adapter) : ReadView :=
  ⟨a.control, a.asks maxActiveDeliveries, a.read, a.waiter, a.refusals ⟨1, 2⟩⟩

theorem reaches_reading : ∃ a, Transition.Reaches Adapter.step Calm Initial a ∧
    a.readView = ⟨.driving 16, true, some ⟨.passive ⟨1, 0⟩ none, 0, none⟩, none, 0⟩ ∧
    a.readReference = none := by
  have hstart : Initial (start 1 (Tcp.Adapter.plainOptions .raw .off)) := ⟨1, _, rfl⟩
  have hrun : (Transition.execute Adapter.step Calm (start 1 (Tcp.Adapter.plainOptions .raw .off))
      asksAlone).map readView =
      some ⟨.driving 16, true, some ⟨.passive ⟨1, 0⟩ none, 0, none⟩, none, 0⟩ := by decide +kernel
  obtain ⟨a, ha, hview⟩ := (Transition.Reaches.start hstart).observe hrun
  have hcontrol : a.control = .driving 16 := congrArg ReadView.control hview
  have hasks : a.asks 16 = true := congrArg ReadView.asking hview
  exact ⟨a, ha, hview, ((reaches_alone ha).1 16 hcontrol hasks).1⟩

/-- Active mode is set and taken back before its first continuation is handled; that meets the read. -/
def asksTwice : List Event :=
  [.drainActive, .drive (.error .other), .setopts ⟨1, 0⟩ [.active (.bool true)],
    .setopts ⟨1, 1⟩ [.active (.bool false)], .recv ⟨1, 2⟩ 0 none, .drive (.select 0), .continueRead]

/-- The read before and after the stack refuses it. -/
def refusedView (a : Adapter) : ReadView × Option ReadView :=
  (a.readView, (a.step (.drive (.error .busy))).map readView)

/-- The stack is asked again over the waiter of the read.  Its refusal ends the read, whose waiter stays. -/
theorem reads_over_waiter : ∃ a b, Transition.Reaches Adapter.step (fun _ _ => True) Initial a ∧
    a.readView = ⟨.driving 16, true, some ⟨.passive ⟨1, 2⟩ none, 0, some 0⟩, some 0, 0⟩ ∧
    a.step (.drive (.error .busy)) = some b ∧ b.readView = ⟨.idle, false, none, some 0, 1⟩ := by
  have hstart : Initial (start 1 (Tcp.Adapter.plainOptions .raw .off)) := ⟨1, _, rfl⟩
  have hrun : (Transition.execute Adapter.step (fun _ _ => True)
      (start 1 (Tcp.Adapter.plainOptions .raw .off)) asksTwice).map refusedView =
      some (⟨.driving 16, true, some ⟨.passive ⟨1, 2⟩ none, 0, some 0⟩, some 0, 0⟩,
        some ⟨.idle, false, none, some 0, 1⟩) := by decide +kernel
  obtain ⟨a, ha, hview⟩ := (Transition.Reaches.start hstart).observe hrun
  obtain ⟨hbefore, hafter⟩ := Prod.mk.inj hview
  obtain ⟨b, hstep, hb⟩ := Option.map_eq_some_iff.1 hafter
  exact ⟨a, b, ha, hbefore, hstep, hb⟩

end Adapter

end SmolNet.Inet6.Udp
