import SmolNet.Partition

/-!
# What a call leaves

A call that drives the stack announces the work that it leaves and the next close deadline, and a call
that fails leaves every socket, table and queue as it was.
-/

namespace SmolNet.NativeStack

open Program

variable {s s' : NativeStack} {call : Call} {world : World}

/-- The calls that announce what they leave: those that drive the stack last.  A close removes a record
after its drive, which may ask for a scan of the listeners. -/
def Announcing (s : NativeStack) : Call → Prop
  | .ingress .. | .ingressBatch .. | .poll .. | .grantEgress .. | .tcpListen .. | .tcpSend .. | .tcpRecv ..
  | .tcpShutdown .. | .tcpSetNodelay .. | .tcpSetKeepalive .. | .udpSendto .. | .udpRecvfrom ..
  | .udpClose .. => True
  | .tcpClose identity _ => s.QuietClose identity
  | _ => False

/-- What a failed call leaves: a connect may have set a timeout or latched the failure that it reports. -/
def FailedBy (s s' : NativeStack) : Call → Prop
  | .tcpConnect .. => ConnectFailed s s'
  | _ => Unaffected s s'

theorem Rejects.unaffected (h : Rejects s s') : Unaffected s s' := by
  obtain ⟨rejected, rfl⟩ := h
  exact ⟨rfl, rfl, rfl, rfl, rfl, rfl, rfl, rfl, rfl, rfl, rfl⟩

/-- Neither the start of a call nor its end touches what a failed call leaves alone. -/
theorem Unaffected.observed (h : Unaffected (s.beginCall world) s') : Unaffected s s'.observeCall :=
  ⟨h.1, h.2, h.3, h.4, h.5, h.6, h.7, h.8, h.9, h.10, h.11⟩

theorem FailedBy.observed (h : FailedBy (s.beginCall world) s' call) : FailedBy s s'.observeCall call := by
  cases call with
  | tcpConnect =>
      cases h with
      | unaffected h => exact .unaffected h.observed
      | timed timeout hsocket h => exact .timed timeout hsocket (Unaffected.observed h)
      | latched hrecord hphase hsocket hclosed h =>
          exact .latched hrecord hphase hsocket hclosed (Unaffected.observed h)
  | _ => exact Unaffected.observed h

theorem program_outcome (hs : s.Regular) (hin : s.history.inHand = []) (call : Call) :
    wp call.program (fun envelope s' => Announcing s call → s'.lifecycle = .running → EnvelopeAnnounces s' envelope)
      (fun _ s' => s.QueuesOpen → FailedBy s s' call) s := by
  have hsound := hs.sound
  have hroom := hs.waiterRoom
  have hany : ∀ t label, Gentle t label → (fun _ _ => True : NativeStack → StepLabel → Prop) t label :=
    fun _ _ _ => trivial
  have hsocket : ∀ {P : Prop} {Q : Envelope → NativeStack → Prop} {program : Op SocketError Envelope},
      (∀ envelope t, Q envelope t → P → EnvelopeAnnounces t envelope) →
      wp program Q (fun _ s' => Fails s s') s →
      wp (Call.onSocket program) (fun envelope s' => P → s'.lifecycle = .running → EnvelopeAnnounces s' envelope)
        (fun _ s' => s.QueuesOpen → Unaffected s s') s := by
    intro P Q program hannounces h
    rw [Call.onSocket, wp_mapError]
    exact wp_mono h (fun _ _ h hP _ => hannounces _ _ h hP) fun _ _ h _ => h.unaffected
  have hquery : ∀ envelope t, Undriven s envelope t → False → EnvelopeAnnounces t envelope :=
    fun _ _ _ h => h.elim
  have hdriven : ∀ envelope t, Driven Gentle s [] envelope t → True → EnvelopeAnnounces t envelope :=
    fun _ _ h _ => h.announces
  have hingress : ∀ (packets : List Packet) (now : Instant) (result : Reply),
      wp (Call.onStack (do
        let effects ← NativeStack.ingressBatch packets now
        finishCall result effects []))
        (fun envelope s' => True → s'.lifecycle = .running → EnvelopeAnnounces s' envelope)
        (fun _ s' => s.QueuesOpen → Unaffected s s') s := by
    intro packets now result
    rw [Call.onStack, wp_mapError]
    exact wp_mono (ingressBatch_spec hsound hin packets now result) (fun _ _ h _ _ => h.1.announces)
      fun _ _ h _ => h.unaffected
  cases call with
  | ingress => exact hingress [_] _ _
  | ingressBatch => exact hingress _ _ _
  | poll =>
      rw [Call.program, Call.onStack, wp_mapError]
      refine wp_mono (pollCall_spec hsound hin _) (fun _ _ h _ hruns => ?_) fun _ _ h => h
      rcases h with ⟨-, h⟩ | h
      · exact h.announces
      · exact (h.lifecycle hruns).elim
  | grantEgress =>
      rw [Call.program, Call.onStack, wp_mapError]
      refine wp_mono (grantEgressCall_spec hsound hin _ _ _) ?_ ?_
      · rintro envelope t ⟨device, -, -, h⟩ _ _
        exact h.announces
      · rintro _ t rfl _
        exact .refl _
  | shutdown =>
      rw [Call.program, Call.onStack, wp_mapError]
      exact wp_mono (shutdown_spec hsound hin _) (fun _ _ _ h => h.elim) fun _ _ h => h
  | cancel =>
      rw [Call.program, Call.onSocket, wp_mapError]
      refine wp_mono (cancel_spec hin hany _ _ _ trivial) (fun _ _ _ h => h.elim) ?_
      rintro _ t rfl _
      exact .refl _
  | tcpAccept =>
      rw [Call.program, Call.onSocket, wp_mapError]
      exact wp_mono (tcpAccept_spec hsound hin hroom _ _ _) (fun _ _ _ h => h.elim) fun _ _ h => h.2
  | tcpConnect =>
      rw [Call.program, Call.onSocket, wp_mapError]
      exact wp_mono (tcpConnect_spec hsound hin hroom hs.idleQuiet hany _ _ (fun _ _ _ _ _ _ _ _ => trivial)
        _ _ _) (fun _ _ _ h => h.elim) fun _ _ h _ => h.2
  | tcpClose =>
      exact hsocket (fun _ _ h => h.2) (tcpClose_spec hsound hin hs.capped.logical hany _
        ⟨trivial, fun _ _ _ _ => trivial, fun _ _ _ _ => trivial⟩ _)
  | tcpListen => exact hsocket hdriven (tcpListen_spec hsound hin _ _ _)
  | tcpSend => exact hsocket hdriven (tcpSend_spec hsound hin _ _ _ _ _)
  | tcpRecv => exact hsocket (fun _ _ h => hdriven _ _ h.1) (tcpRecv_spec hsound hin _ _ _ _ _)
  | tcpShutdown => exact hsocket hdriven (tcpShutdown_spec hsound hin _ _ _)
  | tcpSetNodelay => exact hsocket hdriven (tcpSetNodelay_spec hsound hin _ _ _)
  | tcpSetKeepalive => exact hsocket hdriven (tcpSetKeepalive_spec hsound hin _ _ _)
  | udpSendto => exact hsocket hdriven (udpSendto_spec hsound hin hroom _ _ _ _ _ _)
  | udpRecvfrom => exact hsocket hdriven (udpRecvfrom_spec hsound hin hroom _ _ _ _ _)
  | udpClose => exact hsocket hdriven (udpClose_spec hsound hin _ _)
  | socketValidate => exact hsocket hquery (socketValidate_spec hin _)
  | tcpOpen => exact hsocket hquery (tcpOpen_spec hsound hin _ _ _)
  | tcpBind => exact hsocket hquery (tcpBind_spec hsound hin _ _)
  | tcpSockname => exact hsocket hquery (tcpSockname_spec hin _)
  | tcpPeername => exact hsocket hquery (tcpPeername_spec hin _)
  | tcpNodelay => exact hsocket hquery (tcpOption_spec hsound hin _ _ _)
  | tcpKeepalive => exact hsocket hquery (tcpOption_spec hsound hin _ _ _)
  | udpOpen => exact hsocket hquery (udpOpen_spec hsound hin _)
  | udpBind => exact hsocket hquery (udpBind_spec hsound hin _ _)
  | udpConnect => exact hsocket hquery (udpConnect_spec hin _ _)
  | udpSockname => exact hsocket hquery (udpName_spec hin _ _ _)
  | udpPeername => exact hsocket hquery (udpName_spec hin _ _ _)

/-- In every reachable state, a call that drives the stack and leaves it running announces what is left:
`more` if the head of the transmit queue is covered, input waits and fits, or a cleanup or a scan is pending,
and otherwise a time to poll that is no later than the next close deadline. -/
theorem call_announces (h : Reachable s) (hcall : Announcing s call) {envelope : Envelope}
    (hanswer : (s.call call world).1 = .envelope envelope)
    (hrunning : (s.call call world).2.lifecycle = .running) :
    EnvelopeAnnounces (s.call call world).2 envelope := by
  obtain ⟨hregular, hin⟩ := h.regular
  have hspec := program_outcome (hregular.beginCall world) hin call
  unfold NativeStack.call at hanswer hrunning ⊢
  cases hprogram : call.program (s.beginCall world) with
  | ok other t =>
      rw [hprogram] at hanswer hrunning
      obtain rfl := Answer.envelope.inj hanswer
      obtain ⟨hwork, hdeadline⟩ := wp_ok hspec hprogram (by cases call <;> exact hcall) hrunning
      exact ⟨hwork, hdeadline⟩
  | error fault t =>
      rw [hprogram] at hanswer
      cases fault <;> cases hanswer

/-- An accepted connection is closed; its deadline is announced. -/
theorem close_announces :
    let s := (Script.waiting.call (.tcpAccept ⟨1, 1⟩ 9 1) {}).2
    Reachable s ∧ Announcing s (.tcpClose ⟨2, 2⟩ 7) ∧
      (s.call (.tcpClose ⟨2, 2⟩ 7) {}).1 = .envelope ⟨.ok, [], some 30007, false⟩ ∧
      EnvelopeAnnounces (s.call (.tcpClose ⟨2, 2⟩ 7) {}).2 ⟨.ok, [], some 30007, false⟩ := by
  intro s
  have hs : Reachable s := .call _ _ (Script.reachable_stack.run _)
  have hquiet : Announcing s (.tcpClose ⟨2, 2⟩ 7) :=
    .inr (.inr ⟨_, Script.eq_ok_get _ (by decide +kernel), by decide +kernel⟩)
  have hanswer : (s.call (.tcpClose ⟨2, 2⟩ 7) {}).1 = .envelope ⟨.ok, [], some 30007, false⟩ := by
    decide +kernel
  exact ⟨hs, hquiet, hanswer, call_announces hs hquiet hanswer (by decide +kernel)⟩

/-- In every state that is reached without closing a connection that waits to be accepted, a call that
fails leaves the sockets and their buffers, every table and the device as they were; a connect may have set
the timeout of its socket, or latched the failure that it found. -/
theorem failed_call_unaffected (h : ReachableBy SparesQueued s) (hrunning : s.lifecycle = .running)
    {error : CallError} (hanswer : (s.call call world).1 = .error error) :
    FailedBy s (s.call call world).2 call := by
  obtain ⟨hregular, hin⟩ := h.reachable.regular
  have hspec := program_outcome (hregular.beginCall world) hin call
  unfold NativeStack.call at hanswer ⊢
  cases hprogram : call.program (s.beginCall world) with
  | ok envelope t =>
      rw [hprogram] at hanswer
      cases hanswer
  | error fault t =>
      cases fault with
      | error error => exact (wp_error hspec hprogram (h.queuesOpen hrunning)).observed
      | panic =>
          rw [hprogram] at hanswer
          cases hanswer

theorem failed_recv_unaffected :
    (Script.waiting.call (.tcpRecv ⟨1, 1⟩ 4 7 1 0) {}).1 = .error (.socket .invalidState) ∧
      FailedBy Script.waiting (Script.waiting.call (.tcpRecv ⟨1, 1⟩ 4 7 1 0) {}).2 (.tcpRecv ⟨1, 1⟩ 4 7 1 0) := by
  have hanswer : (Script.waiting.call (.tcpRecv ⟨1, 1⟩ 4 7 1 0) {}).1 = .error (.socket .invalidState) := by
    decide +kernel
  exact ⟨hanswer, failed_call_unaffected reachableBy_waiting (by decide +kernel) hanswer⟩

/-! ## Stale identities -/

/-- An identity that was issued and names no socket. -/
def Gone (s : NativeStack) (identity : SocketIdentity) : Prop :=
  identity.id < s.nextSocketId ∧ s.socketTable.lookup identity = none

theorem SlotStep.gone {P : ReadyKey → Prop} (h : SlotStep P s s') {identity : SocketIdentity}
    (hgone : s.Gone identity) : s'.Gone identity := by
  obtain ⟨hid, hnone⟩ := hgone
  cases h with
  | rest _ hentries _ hposts =>
      exact ⟨hid.trans_le hposts.nextSocketId, by rwa [SocketTable.lookup, hentries]⟩
  | enroll hnew hentries _ _ hposts =>
      refine ⟨hid.trans_le hposts.nextSocketId, ?_⟩
      rwa [SocketTable.lookup, hentries, Std.ExtTreeMap.getElem?_insert, if_neg]
      rw [Std.compare_eq_iff_eq]
      exact (hid.trans_le hnew).ne'
  | turn hlookup hentries _ _ _ _ _ _ hposts =>
      refine ⟨hid.trans_le hposts.nextSocketId, ?_⟩
      rw [SocketTable.lookup_insert (SocketTable.generation_of_lookup hlookup) hentries, if_neg, hnone]
      rintro rfl
      cases hnone.symm.trans hlookup
  | drop hlookup hentries _ hposts =>
      have herased := SocketTable.lookup_erase hlookup hentries identity
      exact ⟨hid.trans_le hposts.nextSocketId, by rw [herased, hnone, ite_self]⟩
  | send htable hnext => exact ⟨hnext ▸ hid, htable ▸ hnone⟩

/-- An identity that was closed never names a socket again, whatever calls follow. -/
theorem stale_identity (h : Reachable s) {identity : SocketIdentity} (hgone : s.Gone identity)
    (calls : List (Call × World)) : (s.run calls).2.Gone identity := by
  induction calls generalizing s with
  | nil => exact hgone
  | cons first rest ih =>
      obtain ⟨hregular, hin⟩ := h.regular
      obtain ⟨t, ht, hpath, -⟩ := hregular.call_path hin (fun _ _ _ => trivial) first.1 first.2 (allowed_any _ _)
      refine ih (.call first.1 first.2 h) ?_
      rw [ht]
      refine hpath.keeps (P := fun t => t.Gone identity) (fun t _ _ ht hstep _ => ?_) hgone
      exact hstep.slots.rec ht fun _ hslot hgone => hslot.gone hgone

theorem stale_identity_closed : (closedWaiting.run (Script.handshake 5001 80 1)).2.Gone ⟨2, 2⟩ := by
  refine stale_identity (.call _ _ reachableBy_waiting.reachable) ⟨by decide +kernel, ?_⟩ _
  exact Option.isNone_iff_eq_none.1 (by decide +kernel)

end SmolNet.NativeStack
