import SmolNet.ShutdownSpecs
import SmolNet.Waiters

/-!
# Runs of calls

Every call from a regular state ends without a panic.  What it has done is a path of steps, a change
of the device that depends on the call alone, and no waiter left in hand; so what steps keep holds in
every state that a run of calls reaches.
-/

namespace SmolNet

open Std Program NativeStack

/-! ## Ingress, polls, grants and cancellation -/

namespace NativeStack

open BeamDevice

variable {s : NativeStack}

/-- A batch that was refused has been counted at most. -/
def Rejects (s s' : NativeStack) : Prop :=
  ∃ rejected, s' = { s with counters := { s.counters with rejectedPackets := rejected } }

theorem Rejects.refl (s : NativeStack) : Rejects s s := ⟨s.counters.rejectedPackets, rfl⟩

theorem Rejects.prepares {s' : NativeStack} (h : Rejects s s') : Prepares Gentle s [] s' := by
  obtain ⟨rejected, rfl⟩ := h
  exact .step (.drive (.tick { s with counters := { s.counters with rejectedPackets := rejected } } le_rfl
    (.of_polls rfl rfl))) trivial rfl rfl

theorem validatePacket_spec (packet : Packet) :
    wp (validatePacket packet) (fun _ s' => s' = s) (fun _ s' => Rejects s s') s := by
  unfold validatePacket
  rw [wp_bind, wp_get]
  cases Wire.validateRawPacket packet s.mtu s.limits.bytesCopied with
  | ok _ => exact rfl
  | error e => exact ⟨_, rfl⟩

theorem validateBatch_spec (packets : List Packet) (copied : Nat) :
    wp (validateBatch packets copied) (fun _ s' => s' = s) (fun _ s' => Rejects s s') s := by
  induction packets generalizing copied with
  | nil => exact rfl
  | cons packet rest ih =>
      unfold validateBatch
      rw [wp_bind]
      refine wp_mono (validatePacket_spec packet) ?_ fun _ _ h => h
      rintro _ _ rfl
      rw [wp_bind, wp_get, wp_bind, wp_require]
      exact ⟨fun _ => ih _, fun _ => .refl _⟩

theorem ingressBatch_spec (hs : s.Sound) (hin : s.history.inHand = []) (packets : List Packet)
    (now : Instant) (result : Reply) :
    wp (do
        let effects ← ingressBatch packets now
        finishCall result effects [])
      (fun envelope s' => Driven Gentle s packets envelope s' ∧ s.device.receiveFits packets.length = true)
      (fun _ s' => Rejects s s') s := by
  unfold ingressBatch
  simp only [wp_bind, wp_get, wp_require]
  refine ⟨fun _ => ⟨fun _ => ?_, fun _ => .refl s⟩, fun _ => .refl s⟩
  refine wp_mono (validateBatch_spec packets 0) ?_ fun _ _ h => h
  intro copied t ht
  obtain rfl : s = t := ht.symm
  refine ⟨fun hfits => ?_, fun _ => .refl _⟩
  rw [wp_set]
  have hcounted : Prepares Gentle s [] { s with
      counters := { s.counters with ingressPackets := s.counters.ingressPackets + packets.length } } :=
    .step (.drive (.tick { s with
      counters := { s.counters with ingressPackets := s.counters.ingressPackets + packets.length } }
      le_rfl (.of_polls rfl rfl))) trivial rfl rfl
  refine wp_mono (driveBatch_spec (hcounted.sound hs) now copied fun _ => hfits) (fun effects t ht => ?_)
    fun _ _ h => h.elim
  exact ⟨hcounted.driven hs hin (fun _ _ h => h) ht result, hfits⟩

theorem pollCall_spec (hs : s.Sound) (hin : s.history.inHand = []) (now : Instant)
    {E : StackError → NativeStack → Prop} :
    wp (pollCall now) (fun envelope s' => (s.lifecycle = .running ∧ Driven Gentle s [] envelope s') ∨
      ShutsDown s envelope s') E s := by
  unfold pollCall
  rw [wp_bind, wp_get]
  cases hlifecycle : s.lifecycle with
  | running =>
      rw [wp_bind, wp_set, wp_bind, ← hlifecycle]
      have hcounted : Prepares Gentle s [] { s with
          counters := { s.counters with pollCalls := s.counters.pollCalls + 1 } } :=
        .step (.drive (.tick { s with
          counters := { s.counters with pollCalls := s.counters.pollCalls + 1 } } le_rfl
          (.of_polls rfl rfl))) trivial rfl rfl
      refine wp_mono (hcounted.drives hs hin (fun _ _ h => h) now 0 .ok) (fun effects t ht => ?_)
        fun _ _ h => h
      exact .inl ⟨rfl, ht⟩
  | shuttingDown =>
      have hdown : s.lifecycle ≠ .running := by
        rw [hlifecycle]
        exact fun h => nomatch h
      exact wp_mono (continueShutdown_spec hs hin hdown) (fun _ _ h => .inr h) fun _ _ h => h
  | shutdown =>
      refine .inr ⟨.refl s, .refl _, hin, ?_, rfl⟩
      rw [hlifecycle]
      exact fun h => nomatch h

theorem grantEgressCall_spec (hs : s.Sound) (hin : s.history.inHand = []) (packets bytes : Nat)
    (now : Instant) :
    wp (grantEgressCall packets bytes now)
      (fun envelope s' => ∃ device, s.device.grantEgress packets bytes = some device ∧
        Path Gentle s { s with device := device } ∧
        Driven Gentle { s with device := device } [] envelope s')
      (fun _ s' => s' = s) s := by
  unfold grantEgressCall
  simp only [wp_bind, wp_get, wp_require, wp_orFail, wp_set]
  refine ⟨fun _ => ⟨fun device hdevice => ?_, fun _ => trivial⟩, fun _ => trivial⟩
  have hgranted : Step s .silent { s with device := device } := .drive (.device device)
  refine wp_mono (Prepares.drives (.refl { s with device := device }) (hs.step hgranted) hin
    (fun _ _ h => h) now 0 .ok) (fun effects t ht => ?_) fun _ _ h => h
  exact ⟨device, hdevice, .single hgranted trivial, ht⟩

end NativeStack

/-! ## What a call amounts to -/

namespace Call

/-- The packets a call brings. -/
def input : Call → List Packet
  | .ingress packet _ => [packet]
  | .ingressBatch packets _ => packets
  | _ => []

/-- What a call does to the device before it drives the stack. -/
def Grants : Call → BeamDevice → BeamDevice → Prop
  | .grantEgress packets bytes _, device, granted => device.grantEgress packets bytes = some granted
  | _, device, granted => granted = device

/-- The cancellations, closes and connects that a call asks for are `ok`. -/
def Allowed (ok : NativeStack → StepLabel → Prop) (s : NativeStack) : Call → Prop
  | .cancel identity operation _ => ok s (.cancels ⟨identity, operation.direction⟩)
  | .tcpClose identity _ => AllowsClose ok s identity
  | .tcpConnect identity endpoint _ _ _ => ∀ (t : NativeStack) (record : TcpRecord)
      (remote : ValidatedEndpoint) (selected : IpEndpoint), Unaffected s t →
      s.tcpRecord? identity = .ok record → endpoint.remoteEndpoint = .ok remote →
      s.Selects record selected → ok t (.connects identity selected remote.ipEndpoint)
  | _ => True

end Call

namespace NativeStack

open BeamDevice

variable {s s' : NativeStack} {ok : NativeStack → StepLabel → Prop}

/-- What a call does to a device: nothing, one drive, or a part of the shutdown. -/
inductive DeviceMoves (s : NativeStack) (device : BeamDevice) (input output : List Packet)
    (s' : NativeStack) : Prop
  | still (hinput : input = []) (houtput : output = []) (h : s'.device = device)
  | drives (hrunning : s.lifecycle = .running)
      (h : Span (device.beginCall s.limits.outputPackets) input output s'.device)
  | discards (hinput : input = []) (houtput : output = []) (hdown : s'.lifecycle ≠ .running)
      (h : device.Discards s'.device)

/-- What a call that has returned has done. -/
structure Completes (ok : NativeStack → StepLabel → Prop) (call : Call) (s : NativeStack)
    (envelope : Envelope) (s' : NativeStack) : Prop where
  path : Path ok s s'
  inHand : s'.history.inHand = []
  settled : s'.lifecycle = .running → envelope.more = false → s'.Settled
  device : ∃ granted, call.Grants s.device granted ∧
    DeviceMoves s granted call.input envelope.output s'
  fits : call.input ≠ [] → s.device.receiveFits call.input.length = true

variable {call : Call} {envelope : Envelope}

theorem Undriven.completes (h : Undriven s envelope s') (hok : ∀ t label, Gentle t label → ok t label)
    (hinput : call.input = []) (hgrants : call.Grants s.device s.device) :
    Completes ok call s envelope s' :=
  ⟨h.path.mono hok, h.inHand, fun _ => h.settled, ⟨s.device, hgrants, .still hinput h.output h.device⟩,
    fun hne => (hne hinput).elim⟩

theorem Delivers.completes (h : Delivers ok s call.input envelope s') (hrunning : s.lifecycle = .running)
    (hgrants : call.Grants s.device s.device)
    (hfits : call.input ≠ [] → s.device.receiveFits call.input.length = true) :
    Completes ok call s envelope s' :=
  ⟨h.path, h.inHand, fun _ => h.settled, ⟨s.device, hgrants, .drives hrunning h.span⟩, hfits⟩

theorem ShutsDown.completes (h : ShutsDown s envelope s') (hok : ∀ t label, Gentle t label → ok t label)
    (hinput : call.input = []) (hgrants : call.Grants s.device s.device) :
    Completes ok call s envelope s' :=
  ⟨h.path.mono hok, h.inHand, fun hrunning => (h.lifecycle hrunning).elim,
    ⟨s.device, hgrants, .discards hinput h.output h.lifecycle h.device⟩, fun hne => (hne hinput).elim⟩

/-- What a cancellation does before it finishes. -/
theorem cancel_prepares {identity : SocketIdentity} {operation : Operation} {reference : Nat}
    {outcome : CancelResult} {table : SocketTable}
    (hcancels : ok s (.cancels ⟨identity, operation.direction⟩))
    (hcancelled : s.socketTable.cancel identity operation reference = .ok (outcome, table)) :
    Prepares ok s [] (if outcome = .cancelled then
      { s with socketTable := table }.logCancelled ⟨identity, operation.direction⟩
        ((s.socketTable.lookup identity).bind fun entry => entry.waiter operation.direction)
      else { s with socketTable := table }) := by
  cases outcome with
  | cancelled =>
      obtain ⟨entry, waiter, hlookup, hwaiter, -, -⟩ := SocketTable.cancel_cancelled hcancelled
      simp only [hlookup, hwaiter, Option.bind_some, if_true, logCancelled, Option.elim_some]
      exact .step (.cancel hcancelled hlookup hwaiter) hcancels rfl rfl
  | alreadySent => exact .of_eq (by rw [SocketTable.cancel_unchanged hcancelled (by simp)]; rfl)
  | notFound => exact .of_eq (by rw [SocketTable.cancel_unchanged hcancelled (by simp)]; rfl)

theorem cancel_spec (hin : s.history.inHand = []) (hok : ∀ t label, Gentle t label → ok t label)
    (identity : SocketIdentity) (operation : Operation) (reference : Nat)
    (hcancels : ok s (.cancels ⟨identity, operation.direction⟩)) :
    wp (NativeStack.cancel identity operation reference)
      (fun envelope s' => Completes ok (.cancel identity operation reference) s envelope s')
      (fun _ s' => s' = s) s := by
  unfold NativeStack.cancel
  simp only [wp_bind, wp_ensureRunning, wp_get, wp_ofExcept, wp_set, wp_finishCall]
  refine ⟨fun _ => ⟨fun cancelled hcancelled => ?_, fun _ _ => trivial⟩, fun _ => trivial⟩
  obtain ⟨hpath, hinHand, hdevice⟩ := (cancel_prepares hcancels hcancelled).finishes hin
    (fun _ => hok _ _ trivial) (CancelResult.reply cancelled.1) {}
  exact ⟨hpath, hinHand, fun _ => finish_settled, ⟨s.device, rfl, .still rfl rfl hdevice⟩,
    fun hne => (hne rfl).elim⟩

/-- A stack that does not run refuses everything but polls and shutdowns. -/
theorem program_refuses (hdown : s.lifecycle ≠ .running) (hpoll : ∀ now, call ≠ .poll now)
    (hshutdown : ∀ reason, call ≠ .shutdown reason) :
    wp call.program (fun _ _ => False) (fun _ s' => s' = s) s := by
  have hguarded : ∀ rest : Unit → Op SocketError Envelope,
      wp (Call.onSocket (ensureRunning >>= rest)) (fun _ _ => False) (fun _ s' => s' = s) s := by
    intro rest
    rw [Call.onSocket, wp_mapError, wp_bind, wp_ensureRunning]
    exact ⟨fun hrunning => (hdown hrunning).elim, fun _ => rfl⟩
  have hstack : ∀ rest : NativeStack → Unit → Op StackError Envelope,
      wp (Call.onStack (do
        let s ← get
        require (s.lifecycle = .running) .closed >>= rest s)) (fun _ _ => False) (fun _ s' => s' = s) s := by
    intro rest
    rw [Call.onStack, wp_mapError, wp_bind, wp_get, wp_bind, wp_require]
    exact ⟨fun hrunning => (hdown hrunning).elim, fun _ => rfl⟩
  cases call with
  | poll now => exact (hpoll now rfl).elim
  | shutdown reason => exact (hshutdown reason rfl).elim
  | ingress packet now =>
      rw [Call.program, Call.onStack, wp_mapError, NativeStack.ingress, NativeStack.ingressBatch]
      simp only [wp_bind, wp_get, wp_require]
      exact ⟨fun hrunning => (hdown hrunning).elim, fun _ => trivial⟩
  | ingressBatch packets now =>
      rw [Call.program, Call.onStack, wp_mapError, NativeStack.ingressBatch]
      simp only [wp_bind, wp_get, wp_require]
      exact ⟨fun hrunning => (hdown hrunning).elim, fun _ => trivial⟩
  | grantEgress packets bytes now => exact hstack _
  | _ => exact hguarded _

/-- What a running stack does with the calls that it refuses when it does not run. -/
theorem program_spec_running (hs : s.Regular) (hin : s.history.inHand = [])
    (hok : ∀ t label, Gentle t label → ok t label) (call : Call) (hallowed : call.Allowed ok s)
    (hrunning : s.lifecycle = .running) (hpoll : ∀ now, call ≠ .poll now)
    (hshutdown : ∀ reason, call ≠ .shutdown reason) :
    wp call.program (fun envelope s' => Completes ok call s envelope s')
      (fun _ s' => Prepares Gentle s [] s') s := by
  have hsound := hs.sound
  have hroom := hs.waiterRoom
  -- The three shapes that nearly all calls have.
  have hquery : ∀ {call : Call} {program : Op SocketError Envelope}, call.input = [] →
      call.Grants s.device s.device → call.program = Call.onSocket program →
      wp program (fun envelope s' => Undriven s envelope s') (fun _ s' => Fails s s') s →
      wp call.program (fun envelope s' => Completes ok call s envelope s')
        (fun _ s' => Prepares Gentle s [] s') s := by
    intro call program hinput hgrants hprogram h
    rw [hprogram, Call.onSocket, wp_mapError]
    exact wp_mono h (fun _ _ h => h.completes hok hinput hgrants) fun _ _ h => h.prepares
  have hdriven : ∀ {call : Call} {program : Op SocketError Envelope}, call.input = [] →
      call.Grants s.device s.device → call.program = Call.onSocket program →
      wp program (fun envelope s' => Driven Gentle s [] envelope s') (fun _ s' => Fails s s') s →
      wp call.program (fun envelope s' => Completes ok call s envelope s')
        (fun _ s' => Prepares Gentle s [] s') s := by
    intro call program hinput hgrants hprogram h
    rw [hprogram, Call.onSocket, wp_mapError]
    refine wp_mono h (fun _ _ h => ?_) fun _ _ h => h.prepares
    have hdelivers := (h.mono hok).toDelivers
    rw [← hinput] at hdelivers
    exact hdelivers.completes hrunning hgrants fun hne => (hne hinput).elim
  have hingress : ∀ {call : Call} {packets : List Packet} {now : Instant} {result : Reply},
      call.input = packets → call.Grants s.device s.device →
      call.program = Call.onStack (do
        let effects ← NativeStack.ingressBatch packets now
        finishCall result effects []) →
      wp call.program (fun envelope s' => Completes ok call s envelope s')
        (fun _ s' => Prepares Gentle s [] s') s := by
    intro call packets now result hinput hgrants hprogram
    rw [hprogram, Call.onStack, wp_mapError]
    refine wp_mono (ingressBatch_spec hsound hin packets now result) (fun _ _ h => ?_)
      fun _ _ h => h.prepares
    have hdelivers := (h.1.mono hok).toDelivers
    rw [← hinput] at hdelivers
    refine hdelivers.completes hrunning hgrants fun _ => ?_
    rw [hinput]
    exact h.2
  cases call with
  | ingress packet now => exact hingress rfl rfl rfl
  | ingressBatch packets now => exact hingress rfl rfl rfl
  | poll now => exact (hpoll now rfl).elim
  | grantEgress packets bytes now =>
      rw [Call.program, Call.onStack, wp_mapError]
      refine wp_mono (grantEgressCall_spec hsound hin packets bytes (fromMillis now)) ?_ ?_
      · rintro envelope t ⟨device, hdevice, hpath, h⟩
        exact ⟨(hpath.trans h.path).mono hok, h.inHand, fun _ => h.settled,
          ⟨device, hdevice, .drives hrunning h.span⟩, fun hne => (hne rfl).elim⟩
      · rintro _ t rfl
        exact .refl _
  | shutdown reason => exact (hshutdown reason rfl).elim
  | cancel identity operation reference =>
      rw [Call.program, Call.onSocket, wp_mapError]
      exact wp_mono (cancel_spec hin hok identity operation reference hallowed) (fun _ _ h => h)
        fun _ _ h => .of_eq h
  | socketValidate identity => exact hquery rfl rfl rfl (socketValidate_spec hin identity)
  | tcpOpen family rcvbuf sndbuf => exact hquery rfl rfl rfl (tcpOpen_spec hsound hin family rcvbuf sndbuf)
  | tcpBind identity endpoint => exact hquery rfl rfl rfl (tcpBind_spec hsound hin identity endpoint)
  | tcpListen identity backlog now =>
      exact hdriven rfl rfl rfl (tcpListen_spec hsound hin identity backlog (fromMillis now))
  | tcpAccept identity pid reference =>
      rw [Call.program, Call.onSocket, wp_mapError]
      exact wp_mono (tcpAccept_spec hsound hin hroom identity pid reference)
        (fun _ _ h => h.completes hok rfl rfl) fun _ _ h => h.1
  | tcpConnect identity endpoint pid reference now =>
      rw [Call.program, Call.onSocket, wp_mapError]
      refine wp_mono (tcpConnect_spec hsound hin hroom hs.idleQuiet hok identity endpoint hallowed pid
        reference (fromMillis now)) (fun _ _ h => ?_) fun _ _ h => h.1
      rcases h with h | h
      · exact h.completes hok rfl rfl
      · have hdelivers := h.toDelivers
        change Delivers ok s (Call.tcpConnect identity endpoint pid reference now).input _ _ at hdelivers
        exact hdelivers.completes hrunning rfl fun hne => (hne rfl).elim
  | tcpSend identity data pid reference now =>
      exact hdriven rfl rfl rfl (tcpSend_spec hsound hin identity data pid reference (fromMillis now))
  | tcpRecv identity length pid reference now =>
      exact hdriven rfl rfl rfl (wp_mono (tcpRecv_spec hsound hin identity length pid reference (fromMillis now))
        (fun _ _ h => h.1) fun _ _ h => h)
  | tcpShutdown identity how now =>
      exact hdriven rfl rfl rfl (tcpShutdown_spec hsound hin identity how (fromMillis now))
  | tcpSockname identity => exact hquery rfl rfl rfl (tcpSockname_spec hin identity)
  | tcpPeername identity => exact hquery rfl rfl rfl (tcpPeername_spec hin identity)
  | tcpSetNodelay identity nodelay now =>
      exact hdriven rfl rfl rfl (tcpSetNodelay_spec hsound hin identity nodelay (fromMillis now))
  | tcpNodelay identity => exact hquery rfl rfl rfl (tcpOption_spec hsound hin identity _ _)
  | tcpSetKeepalive identity keepalive now =>
      exact hdriven rfl rfl rfl (tcpSetKeepalive_spec hsound hin identity keepalive (fromMillis now))
  | tcpKeepalive identity => exact hquery rfl rfl rfl (tcpOption_spec hsound hin identity _ _)
  | tcpClose identity now =>
      rw [Call.program, Call.onSocket, wp_mapError]
      refine wp_mono (tcpClose_spec hsound hin hs.capped.logical hok identity hallowed (fromMillis now))
        (fun _ _ h => ?_) fun _ _ h => h.prepares
      have hdelivers := h.1
      change Delivers ok s (Call.tcpClose identity now).input _ _ at hdelivers
      exact hdelivers.completes hrunning rfl fun hne => (hne rfl).elim
  | udpOpen family => exact hquery rfl rfl rfl (udpOpen_spec hsound hin family)
  | udpBind identity endpoint => exact hquery rfl rfl rfl (udpBind_spec hsound hin identity endpoint)
  | udpConnect identity endpoint => exact hquery rfl rfl rfl (udpConnect_spec hin identity endpoint)
  | udpSendto identity endpoint data pid reference now =>
      exact hdriven rfl rfl rfl
        (udpSendto_spec hsound hin hroom identity endpoint data pid reference (fromMillis now))
  | udpRecvfrom identity length pid reference now =>
      exact hdriven rfl rfl rfl
        (udpRecvfrom_spec hsound hin hroom identity length pid reference (fromMillis now))
  | udpSockname identity => exact hquery rfl rfl rfl (udpName_spec hin identity _ _)
  | udpPeername identity => exact hquery rfl rfl rfl (udpName_spec hin identity _ _)
  | udpClose identity now => exact hdriven rfl rfl rfl (udpClose_spec hsound hin identity (fromMillis now))

/-- Every call returns, or fails and leaves the device alone. -/
theorem program_spec (hs : s.Regular) (hin : s.history.inHand = [])
    (hok : ∀ t label, Gentle t label → ok t label) (call : Call) (hallowed : call.Allowed ok s) :
    wp call.program (fun envelope s' => Completes ok call s envelope s')
      (fun _ s' => Prepares Gentle s [] s') s := by
  by_cases hpoll : ∃ now, call = .poll now
  · obtain ⟨now, rfl⟩ := hpoll
    rw [Call.program, Call.onStack, wp_mapError]
    refine wp_mono (pollCall_spec hs.sound hin (fromMillis now)) (fun _ _ h => ?_) fun _ _ h => h
    rcases h with ⟨hrunning, h⟩ | h
    · have hdelivers := (h.mono hok).toDelivers
      change Delivers ok s (Call.poll now).input _ _ at hdelivers
      exact hdelivers.completes hrunning rfl fun hne => (hne rfl).elim
    · exact h.completes hok rfl rfl
  by_cases hshutdown : ∃ reason, call = .shutdown reason
  · obtain ⟨reason, rfl⟩ := hshutdown
    rw [Call.program, Call.onStack, wp_mapError]
    exact wp_mono (shutdown_spec hs.sound hin reason) (fun _ _ h => h.completes hok rfl rfl) fun _ _ h => h
  by_cases hrunning : s.lifecycle = .running
  · exact program_spec_running hs hin hok call hallowed hrunning
      (fun now h => hpoll ⟨now, h⟩) fun reason h => hshutdown ⟨reason, h⟩
  · exact wp_mono (program_refuses hrunning (fun now h => hpoll ⟨now, h⟩)
      fun reason h => hshutdown ⟨reason, h⟩) (fun _ _ h => h.elim) fun _ _ h => .of_eq h

/-! ## Calls -/

theorem Regular.beginCall (h : s.Regular) (world : World) : (s.beginCall world).Regular := by
  obtain ⟨hsound, hcapped, haccounted, hmax, hquiet⟩ := h
  refine ⟨hsound.inert ⟨rfl, rfl, rfl, rfl, rfl, rfl, le_rfl⟩, ⟨hcapped.1, hcapped.2, hcapped.3⟩,
    haccounted.slotStep (P := fun _ => False) (.quiet rfl rfl rfl le_rfl), hmax, hquiet⟩

theorem Regular.observeCall (h : s.Regular) : s.observeCall.Regular := by
  obtain ⟨hsound, hcapped, haccounted, hmax, hquiet⟩ := h
  refine ⟨hsound.inert ⟨rfl, rfl, rfl, rfl, rfl, rfl, le_rfl⟩, ⟨hcapped.1, hcapped.2, hcapped.3⟩,
    haccounted.slotStep (P := fun _ => False) (.quiet rfl rfl rfl le_rfl), hmax, hquiet⟩

/-- A call either completes or fails. -/
theorem Regular.completes_or_fails (hs : s.Regular) (hin : s.history.inHand = [])
    (hok : ∀ t label, Gentle t label → ok t label) (call : Call) (world : World)
    (hallowed : call.Allowed ok (s.beginCall world)) :
    (∃ envelope t, s.call call world = (.envelope envelope, t.observeCall) ∧
      Completes ok call (s.beginCall world) envelope t) ∨
    ∃ error t, s.call call world = (.error error, t.observeCall) ∧
      Prepares Gentle (s.beginCall world) [] t := by
  have hspec := program_spec (hs.beginCall world) hin hok call hallowed
  unfold NativeStack.call
  cases hprogram : call.program (s.beginCall world) with
  | ok envelope t => exact .inl ⟨envelope, t, rfl, wp_ok hspec hprogram⟩
  | error fault t =>
      cases fault with
      | error error =>
          have hfailed := wp_error hspec hprogram
          exact .inr ⟨error, t, rfl, hfailed⟩
      | panic => simp [wp, hprogram] at hspec

/-- The path of a call. -/
theorem Regular.call_path (hs : s.Regular) (hin : s.history.inHand = [])
    (hok : ∀ t label, Gentle t label → ok t label) (call : Call) (world : World)
    (hallowed : call.Allowed ok (s.beginCall world)) :
    ∃ t, (s.call call world).2 = t.observeCall ∧ Path ok (s.beginCall world) t ∧
      t.history.inHand = [] := by
  rcases hs.completes_or_fails hin hok call world hallowed with ⟨envelope, t, hcall, h⟩ | ⟨error, t, hcall, h⟩
  · exact ⟨t, by rw [hcall], h.path, h.inHand⟩
  · refine ⟨t, by rw [hcall], h.path.mono hok, h.inHand.trans ?_⟩
    rw [List.append_nil]
    exact hin

/-! ## Reachable states -/

/-- The states that are reached by calls each of which meets the condition `C`. -/
inductive ReachableBy (C : NativeStack → Call → World → Prop) : NativeStack → Prop
  | new {limits : Limits} {config : StackConfig} {id generation : Nat} {s : NativeStack} :
      NativeStack.new limits config id generation = .ok s → ReachableBy C s
  | call {s : NativeStack} (call : Call) (world : World) :
      ReachableBy C s → C s call world → ReachableBy C (s.call call world).2

theorem ReachableBy.reachable {C : NativeStack → Call → World → Prop} (h : ReachableBy C s) :
    Reachable s := by
  induction h with
  | new h => exact .new h
  | call call world _ _ ih => exact .call call world ih

theorem ReachableBy.mono {C C' : NativeStack → Call → World → Prop} (h : ReachableBy C s)
    (hC : ∀ s call world, C s call world → C' s call world) : ReachableBy C' s := by
  induction h with
  | new h => exact .new h
  | call call world _ hcall ih => exact .call call world ih (hC _ _ _ hcall)

theorem Reachable.by_any (h : Reachable s) : ReachableBy (fun _ _ _ => True) s := by
  induction h with
  | new h => exact .new h
  | call call world _ ih => exact .call call world ih trivial

theorem allowed_any (call : Call) (s : NativeStack) : call.Allowed (fun _ _ => True) s := by
  cases call with
  | tcpClose identity now => exact ⟨trivial, fun _ _ _ _ => trivial, fun _ _ _ _ => trivial⟩
  | _ => simp [Call.Allowed]

theorem inHand_new {limits : Limits} {config : StackConfig} {id generation : Nat}
    (h : NativeStack.new limits config id generation = .ok s) : s.history.inHand = [] := by
  unfold NativeStack.new at h
  split at h
  · simp at h
  · split at h
    · simp at h
    · obtain rfl := Except.ok.inj h
      rfl

/-- Every reachable state is regular, and its calls have left nothing in hand. -/
theorem Reachable.regular (h : Reachable s) : s.Regular ∧ s.history.inHand = [] := by
  induction h with
  | new h => exact ⟨.new h, inHand_new h⟩
  | call call world _ ih =>
      obtain ⟨t, ht, hpath, hin⟩ := ih.1.call_path ih.2 (fun _ _ _ => trivial) call world
        (allowed_any call _)
      rw [ht]
      exact ⟨((ih.1.beginCall world).path hpath).observeCall, hin⟩

/-- What new stacks have, and the start and the end of a call and every step keep, holds in every
state that is reached. -/
theorem ReachableBy.keeps (ok : NativeStack → StepLabel → Prop) {C : NativeStack → Call → World → Prop}
    {P : NativeStack → Prop} (hok : ∀ t label, Gentle t label → ok t label)
    (hallowed : ∀ (s : NativeStack) (call : Call) (world : World), Reachable s → C s call world →
      call.Allowed ok (s.beginCall world))
    (hnew : ∀ {limits : Limits} {config : StackConfig} {id generation : Nat} {s : NativeStack},
      NativeStack.new limits config id generation = .ok s → P s)
    (hbegin : ∀ (s : NativeStack) (call : Call) (world : World), C s call world → P s →
      P (s.beginCall world))
    (hobserve : ∀ s : NativeStack, P s → P s.observeCall)
    (hstep : ∀ (s : NativeStack) (label : StepLabel) (s' : NativeStack), s.Regular → P s →
      Step s label s' → ok s label → P s')
    (h : ReachableBy C s) : P s := by
  induction h with
  | new h => exact hnew h
  | @call s call world hreachable hC ih =>
      obtain ⟨hregular, hin⟩ := hreachable.reachable.regular
      obtain ⟨t, ht, hpath, -⟩ := hregular.call_path hin hok call world
        (hallowed _ call world hreachable.reachable hC)
      rw [ht]
      refine hobserve t (hpath.keeps (P := fun u => u.Regular ∧ P u) ?_ ⟨hregular.beginCall world,
        hbegin s call world hC ih⟩).2
      rintro u label u' ⟨hu, hPu⟩ hstep' hok'
      exact ⟨hu.step hstep', hstep u label u' hu hPu hstep' hok'⟩

theorem Reachable.keeps {P : NativeStack → Prop}
    (hnew : ∀ {limits : Limits} {config : StackConfig} {id generation : Nat} {s : NativeStack},
      NativeStack.new limits config id generation = .ok s → P s)
    (hbegin : ∀ (s : NativeStack) (world : World), P s → P (s.beginCall world))
    (hobserve : ∀ s : NativeStack, P s → P s.observeCall)
    (hstep : ∀ (s : NativeStack) (label : StepLabel) (s' : NativeStack), s.Regular → P s →
      Step s label s' → P s')
    (h : Reachable s) : P s :=
  h.by_any.keeps (fun _ _ => True) (fun _ _ _ => trivial) (fun _ call _ _ _ => allowed_any call _) hnew
    (fun s _ world _ => hbegin s world) hobserve fun s label s' hs hP hstep' _ => hstep s label s' hs hP hstep'

end NativeStack

end SmolNet
