import SmolNet.DeviceSpecs
import SmolNet.MaintenanceSpecs

/-!
# A drive is a path of steps

On a sound stack a drive neither fails nor panics if the receive queue has room for its batch.  It is
a sequence of drive steps, what it does to the device is a span, and its effects announce the work
that remains.
-/

namespace SmolNet.NativeStack

open Std Program Ownership BeamDevice

variable {ε : Type} {s s' t u : NativeStack} {E : ε → NativeStack → Prop} {packet : Packet}

/-- A sequence of drive steps that gives the device `input` and hands out `output`. -/
structure Advances (s : NativeStack) (input output : List Packet) (s' : NativeStack) : Prop where
  path : DrivePath s s'
  span : Span s.device input output s'.device

namespace Advances

theorem trans {input input' output output' : List Packet} (h : Advances s input output t)
    (h' : Advances t input' output' u) : Advances s (input ++ input') (output ++ output') u :=
  ⟨h.path.trans h'.path, h.span.trans h'.span⟩

theorem of_maintains (h : Maintains s s') : Advances s [] [] s' := by
  refine ⟨h.path, ?_⟩
  rw [h.device]
  exact .refl _

theorem refl (s : NativeStack) : Advances s [] [] s := of_maintains (.refl s)

theorem andThen {input output : List Packet} (h : Advances s input output t) (h' : Maintains t u) :
    Advances s input output u := by
  simpa using h.trans (of_maintains h')

theorem after {input output : List Packet} (h : Maintains s t) (h' : Advances t input output u) :
    Advances s input output u := (of_maintains h).trans h'

theorem sound {input output : List Packet} (h : Advances s input output s') (hs : s.Sound) :
    s'.Sound := h.path.sound hs

end Advances

theorem takeOutput_spec (packetLimit byteLimit : Nat) :
    wp (takeOutput packetLimit byteLimit : Op ε (List Packet))
      (fun output s' => Advances s [] output s') E s := by
  unfold takeOutput
  simp only [wp_bind, wp_get, wp_set, wp_pure]
  refine ⟨?_, s.device.span_takeTransmit packetLimit byteLimit s.callBudget⟩
  have hdevice : DrivePath s { s with
      device := (s.device.takeTransmit packetLimit byteLimit s.callBudget).2.1 } := .single (.device _)
  exact hdevice.trans (.tick rfl le_rfl (.of_polls rfl rfl))

/-! ## Ingress -/

/-- Only the native sockets differ, and wakers have fired. -/
def SocketsChanged (s : NativeStack) (sockets : SocketSet) (s' : NativeStack) : Prop :=
  ∃ keys, s' = { s with sockets := sockets }.wakeAll keys

theorem wake_withSockets (s : NativeStack) (sockets : SocketSet) (key : ReadyKey) :
    { s.wake key with sockets := sockets } = { s with sockets := sockets }.wake key := by
  unfold wake
  dsimp only [logEvent]
  split <;> rfl

namespace SocketsChanged

variable {set : SocketSet}

theorem trans {set' : SocketSet} (h : SocketsChanged s set t) (h' : SocketsChanged t set' u) :
    SocketsChanged s set' u := by
  obtain ⟨keys, rfl⟩ := h
  obtain ⟨keys', rfl⟩ := h'
  refine ⟨keys ++ keys', ?_⟩
  have hcomm := wakeAll_comm (f := fun t => { t with sockets := set' })
    (fun t key => t.wake_withSockets set' key) { s with sockets := set } keys
  simp only at hcomm
  rw [hcomm, wakeAll, wakeAll, wakeAll, List.foldl_append]

theorem sockets (h : SocketsChanged s set s') : s'.sockets = set := by
  obtain ⟨keys, rfl⟩ := h
  exact (undisturbed_wakeAll _ keys).sockets

theorem tcpListeners (h : SocketsChanged s set s') : s'.tcpListeners = s.tcpListeners := by
  obtain ⟨keys, rfl⟩ := h
  exact (undisturbed_wakeAll { s with sockets := set } keys).tcpListeners

/-- Changing the sockets and waking are steps. -/
theorem maintains (h : SocketsChanged s set s') (hreshapes : s.Reshapes set)
    (hmoved : s.world.Faithful → s.Moved set) : Maintains s s' := by
  obtain ⟨keys, rfl⟩ := h
  exact .trans (.step (.native hreshapes hmoved) rfl) (.wakeAll _ keys)

end SocketsChanged

/-- A change of one native socket and the wakers it fires. -/
theorem Maintains.put {handle : Nat} {socket changed : TcpSocket}
    (hsocket : s.sockets[handle]? = some (.tcp socket))
    (h : s.Reshapes (s.sockets.insert handle (.tcp changed))) (hmoves : s.Moves handle socket changed)
    (wakes : List ReadyKey) : Maintains s ((s.putSocket handle (.tcp changed)).wakeAll wakes) :=
  SocketsChanged.maintains ⟨wakes, rfl⟩ h fun _ => moved_insert hsocket hmoves

/-- A pool member that listens after an abort. -/
theorem listen_abort (socket : TcpSocket) {endpoint : IpListenEndpoint} (hport : endpoint.port ≠ 0) :
    ∃ changed wakes, TcpSocket.listen
        { socket.abort.1 with timeout := some connectTimeoutMillis } endpoint = .ok (changed, wakes) ∧
      (NativeSocket.tcp socket).SameShape (.tcp changed) ∧ changed.Listens endpoint := by
  unfold TcpSocket.listen
  rw [if_neg hport, if_neg (by simp [TcpSocket.isOpen, TcpSocket.abort, TcpSocket.setState])]
  exact ⟨_, _, rfl, ⟨rfl, rfl⟩, ⟨rfl, rfl, rfl⟩, rfl, rfl, rfl⟩

/-- The endpoint is one the listener may be asked for. -/
structure Targets (listener : ListenerRecord) (endpoint : IpListenEndpoint) (address : IpAddress) :
    Prop where
  port : endpoint.port = listener.localEndpoint.port
  addr : endpoint.addr = some address
  family : AddressFamily.of address = AddressFamily.of listener.localEndpoint.addr

theorem retargetMember_spec (hs : s.Sound) {id handle : Nat} {listener : ListenerRecord}
    {endpoint : IpListenEndpoint} {addr : IpAddress} (hlistener : s.tcpListeners[id]? = some listener)
    (hpool : handle ∈ listener.pool) (htargets : Targets listener endpoint addr) :
    wp (retargetMember endpoint handle : Op ε Unit)
      (fun _ s' => Maintains s s' ∧ s'.tcpListeners = s.tcpListeners) E s := by
  have hport : endpoint.port ≠ 0 := by
    rw [htargets.port]
    exact (hs.filed.listener id listener hlistener).2.localPort
  obtain ⟨socket, hsocket⟩ := hs.typed.listener id listener hlistener handle hpool
  unfold retargetMember
  rw [wp_bind, wp_getTcp]
  refine ⟨socket, hsocket, ?_⟩
  rw [wp_ite]
  refine ⟨fun hlistens => ?_, fun _ => ⟨.refl s, rfl⟩⟩
  rw [wp_bind, wp_updateTcp]
  refine ⟨socket, hsocket, ?_⟩
  have haborted : SocketsChanged s (s.sockets.insert handle (.tcp socket.abort.1))
      ((s.putSocket handle (.tcp socket.abort.1)).wakeAll socket.abort.2) := ⟨socket.abort.2, rfl⟩
  generalize (s.putSocket handle (.tcp socket.abort.1)).wakeAll socket.abort.2 = middle at haborted ⊢
  rw [wp_bind, wp_getTcp]
  refine ⟨socket.abort.1, by rw [haborted.sockets]; simp, ?_⟩
  obtain ⟨changed, wakes, hlisten, hshape, hchanged⟩ := listen_abort socket hport
  rw [hlisten]
  -- The abort and the new listen are one change of the member.
  have hrelistened : SocketsChanged s (s.sockets.insert handle (.tcp changed))
      ((middle.putSocket handle (.tcp changed)).wakeAll wakes) := by
    refine haborted.trans ⟨wakes, ?_⟩
    rw [putSocket, haborted.sockets, SmolNet.TreeMap.insert_insert_self]
  have hmoves : s.Moves handle socket changed :=
    .retargets hlistener hpool hlistens.1 htargets.port htargets.addr htargets.family hchanged
  have hreshapes := hs.reshapes_pool hlistener hpool hsocket hshape
  exact ⟨hrelistened.maintains hreshapes fun _ => moved_insert hsocket hmoves, hrelistened.tcpListeners⟩

/-- A wildcard member belongs to a listener that the destination may be asked of. -/
theorem Sound.wildcardMembers_pool (hs : s.Sound) {destination : IpAddress} {port handle : Nat}
    (h : handle ∈ s.wildcardMembers (AddressFamily.of destination) port) :
    ∃ (id : Nat) (listener : ListenerRecord), s.tcpListeners[id]? = some listener ∧
      handle ∈ listener.pool ∧ Targets listener ⟨some destination, port⟩ destination := by
  unfold wildcardMembers at h
  simp only [List.mem_flatMap, List.mem_filter, Prod.exists, ExtTreeMap.mem_toList_iff_getElem?_eq_some,
    Bool.and_eq_true, beq_iff_eq, ExtTreeSet.mem_toList, AddressFamily.includes] at h
  obtain ⟨id, listener, ⟨hlistener, ⟨-, hfamily⟩, hport⟩, hpool⟩ := h
  obtain ⟨-, hvalid⟩ := hs.filed.listener id listener hlistener
  exact ⟨id, listener, hlistener, hpool, hport.symm, rfl, by rw [hfamily, hvalid.endpoint]⟩

theorem retargetWildcardListener_spec (hs : s.Sound) (packet : Packet) :
    wp (retargetWildcardListener packet : Op ε Unit) (fun _ s' => Maintains s s') E s := by
  unfold retargetWildcardListener
  split
  · exact .refl s
  · rename_i destination port _
    rw [wp_bind, wp_get]
    -- The members are those the loop found at its start, so the listeners must stay put.
    have hloop : wp (each (retargetMember ⟨some destination, port⟩)
        (s.wildcardMembers (AddressFamily.of destination) port) : Op ε Unit)
        (fun _ s' => Maintains s s' ∧ s'.tcpListeners = s.tcpListeners) E s := by
      refine wp_each (I := fun t => Maintains s t ∧ t.tcpListeners = s.tcpListeners)
        (fun handle hmember t ht => ?_) ⟨.refl s, rfl⟩
      obtain ⟨id, listener, hlistener, hpool, htargets⟩ := hs.wildcardMembers_pool hmember
      have hlistener' : t.tcpListeners[id]? = some listener := by
        rw [ht.2]
        exact hlistener
      refine wp_mono (retargetMember_spec (ht.1.sound hs) hlistener' hpool htargets) ?_ fun _ _ h => h
      exact fun _ u hu => ⟨ht.1.trans hu.1, hu.2.trans ht.2⟩
    exact wp_mono hloop (fun _ _ h => h.1) fun _ _ h => h

theorem inboundReset_spec (hs : s.Sound) (packet : Packet) :
    wp (inboundReset packet : Op ε (Option (SocketIdentity × ConnectFailure)))
      (fun reset s' => s' = s ∧
        reset = (s.resetTarget packet).map fun target => (target.1.identity, target.2)) E s := by
  unfold inboundReset resetTarget
  rw [wp_bind, wp_get]
  cases hidentity : (Wire.resetKey packet).bind fun key => s.tcpConnections[key]? with
  | none => exact ⟨rfl, rfl⟩
  | some identity =>
      dsimp only
      cases hrecord : s.tcpRecord? identity with
      | error => exact ⟨rfl, rfl⟩
      | ok record =>
          obtain ⟨hfound, rfl⟩ := tcpRecord?_eq_ok hrecord
          obtain ⟨socket, hsocket, -⟩ := hs.typed.tcp _ record hfound
          dsimp only
          rw [wp_bind, wp_getTcp]
          refine ⟨socket, hsocket, ?_⟩
          rw [SocketSet.tcp?_eq_some.2 hsocket, Option.map_some]
          cases hstate : socket.state <;> exact ⟨rfl, rfl⟩

/-- Recording a reset, in the state `t` that smoltcp has left `s` in. -/
theorem recordInboundReset_spec {t : NativeStack} (hrecords : t.tcpRecords = s.tcpRecords)
    (hlisteners : t.tcpListeners = s.tcpListeners) (hevolves : s.sockets.Evolves t.sockets) :
    wp (recordInboundReset ((s.resetTarget packet).map fun target => (target.1.identity, target.2)) :
        Op ε Unit)
      (fun _ u => ∃ records, s.ResetRecords packet t.sockets records ∧
        u = { t with tcpRecords := records }) E t := by
  cases htarget : s.resetTarget packet with
  | none => exact ⟨s.tcpRecords, .unnamed htarget, by rw [← hrecords]⟩
  | some target =>
      obtain ⟨record, failure⟩ := target
      obtain ⟨key, before, -, -, hok, hbefore, -⟩ := resetTarget_eq_some htarget
      obtain ⟨after, hafter, -⟩ := hevolves.tcp hbefore
      have hok' : t.tcpRecord? record.identity = .ok record := by
        unfold tcpRecord? listener? at hok ⊢
        rw [hrecords, hlisteners]
        exact hok
      unfold recordInboundReset
      rw [Option.map_some]
      dsimp only
      rw [wp_bind, wp_get, hok']
      dsimp only
      rw [wp_bind, wp_getTcp]
      refine ⟨after, hafter, ?_⟩
      rw [wp_ite]
      refine ⟨fun hclosed => ?_, fun hopen => ?_⟩
      · exact ⟨_, .failed htarget hafter hclosed, by rw [← hrecords]⟩
      · exact ⟨s.tcpRecords, .standing htarget hafter hopen, by rw [← hrecords]⟩

/-- smoltcp took the packet, or did not ask for it and left the device alone. -/
inductive Offered (s : NativeStack) (packet : Packet) : Bool → NativeStack → Prop
  | taken {s' : NativeStack} (path : DrivePath s s') (room : s.device.canReceive = true)
      (reply : Option Packet) (device : s'.device = (s.device.noteTaken packet).emitAll reply) :
      Offered s packet true s'
  | left {s' : NativeStack} (h : Maintains s s') : Offered s packet false s'

theorem Offered.after {taken : Bool} (h : Maintains s t) (h' : Offered t packet taken u) :
    Offered s packet taken u := by
  cases h' with
  | taken path room reply device =>
      rw [h.device] at room device
      exact .taken (h.path.trans path) room reply device
  | left h' => exact .left (h.trans h')

theorem Offered.andThen (h : Offered s packet true t) (h' : Maintains t u) : Offered s packet true u := by
  cases h with
  | taken path room reply device => exact .taken (path.trans h'.path) room reply (h'.device.trans device)

theorem Offered.path {taken : Bool} (h : Offered s packet taken s') : DrivePath s s' := by
  cases h with
  | taken path _ _ _ => exact path
  | left h => exact h.path

/-- The state after smoltcp has taken a packet. -/
def offered (s : NativeStack) (packet : Packet) : NativeStack :=
  let outcome := (s.world.ingressPolls.headD .idle).respond packet s.sockets
  { s with
    world := { s.world with ingressPolls := s.world.ingressPolls.tail }
    sockets := outcome.sockets
    device := (s.device.noteTaken packet).emitAll outcome.reply }

theorem offerPacket_spec (packet : Packet) :
    wp (offerPacket packet : Op ε Bool)
      (fun taken s' => (taken = true → s.device.canReceive = true ∧ s' = (s.offered packet).wakeAll
          ((s.world.ingressPolls.headD .idle).respond packet s.sockets).wakes) ∧
        (taken = false → Maintains s s')) E s := by
  unfold offerPacket
  rw [wp_bind, wp_get]
  dsimp only
  rw [wp_ite, Bool.and_eq_true]
  refine ⟨fun hasks => ⟨fun _ => ⟨hasks.2, rfl⟩, fun h => nomatch h⟩,
    fun _ => ⟨fun h => (nomatch h), fun _ => ?_⟩⟩
  exact .tick rfl le_rfl ⟨List.tail_suffix _, List.suffix_rfl⟩

theorem wake_withRecords (s : NativeStack) (records : ExtTreeMap Nat TcpRecord) (key : ReadyKey) :
    { s.wake key with tcpRecords := records } = { s with tcpRecords := records }.wake key := by
  unfold wake
  dsimp only [logEvent]
  split <;> rfl

/-- A packet smoltcp has taken, with the reset it may carry recorded. -/
theorem Sound.ingests (hs : s.Sound) {records : ExtTreeMap Nat TcpRecord} (hroom : s.device.canReceive = true)
    (hrecords : s.ResetRecords packet (s.offered packet).sockets records) (wakes : List ReadyKey) :
    Offered s packet true { (s.offered packet).wakeAll wakes with tcpRecords := records } := by
  rw [wakeAll_comm (f := fun t => { t with tcpRecords := records })
    (fun t key => t.wake_withRecords records key)]
  generalize hpoll : s.world.ingressPolls.headD .idle = poll
  have hoffered : s.offered packet =
      { s with
        world := { s.world with ingressPolls := s.world.ingressPolls.tail }
        sockets := (poll.respond packet s.sockets).sockets
        device := (s.device.noteTaken packet).emitAll (poll.respond packet s.sockets).reply } := by
    rw [offered, hpoll]
  rw [hoffered] at hrecords ⊢
  -- smoltcp changes the sockets and the stack the records, then the device and the world change.
  have hreceives : s.world.Faithful → s.sockets.Receives packet (poll.respond packet s.sockets).sockets :=
    fun h => hpoll ▸ h.ingressPoll packet s.sockets
  have hapart : s.world.Exclusive → s.sockets.OpensApart (poll.respond packet s.sockets).sockets :=
    fun h => hpoll ▸ h.ingressPoll packet s.sockets
  have hingest : DriveStep s .silent
      { s with sockets := (poll.respond packet s.sockets).sockets, tcpRecords := records } :=
    .ingest packet (hs.reshapes_evolves (poll.lawful packet s.sockets)) hreceives hapart hrecords
  refine .taken (.trans ((DrivePath.single hingest).step (.device
    ((s.device.noteTaken packet).emitAll (poll.respond packet s.sockets).reply)) |>.trans ?_)
    (.wakeAll _ wakes)) hroom (poll.respond packet s.sockets).reply (undisturbed_wakeAll _ _).device
  exact .tick rfl le_rfl ⟨List.tail_suffix _, List.suffix_rfl⟩

theorem ingestPacket_spec (hs : s.Sound) (packet : Packet) :
    wp (ingestPacket packet : Op ε Bool) (fun taken s' => Offered s packet taken s') E s := by
  unfold ingestPacket
  rw [wp_bind]
  refine wp_mono (retargetWildcardListener_spec hs packet) (fun _ t ht => ?_) fun _ _ h => h
  have hst := ht.sound hs
  rw [wp_bind]
  refine wp_mono (inboundReset_spec hst packet) ?_ fun _ _ h => h
  rintro reset _ ⟨rfl, rfl⟩
  rw [wp_bind]
  refine wp_mono (offerPacket_spec packet) (fun taken u hu => ?_) fun _ _ h => h
  rw [wp_ite]
  refine ⟨fun htaken => ?_, fun htaken => ?_⟩
  · obtain ⟨hroom, rfl⟩ := hu.1 htaken
    obtain rfl : taken = true := htaken
    rw [wp_bind]
    rename_i v
    have hkept := undisturbed_wakeAll (v.offered packet)
      ((v.world.ingressPolls.headD .idle).respond packet v.sockets).wakes
    have hevolves : v.sockets.Evolves (v.offered packet).sockets :=
      (v.world.ingressPolls.headD .idle).lawful packet v.sockets
    refine wp_mono (recordInboundReset_spec (s := v) hkept.tcpRecords hkept.tcpListeners
      (by rw [hkept.sockets]; exact hevolves)) ?_ fun _ _ h => h
    rintro _ _ ⟨records, hrecords, rfl⟩
    rw [hkept.sockets] at hrecords
    have hingests := hst.ingests hroom hrecords
      ((v.world.ingressPolls.headD .idle).respond packet v.sockets).wakes
    simp only [wp_bind, wp_modify, wp_pure]
    refine .after ht (hingests.andThen ?_)
    exact .trans (.requestClosingCleanup _) (.requestListenerScan _)
  · obtain rfl : taken = false := by simpa using htaken
    exact .after ht (.left (hu.2 rfl))

/-- Taking a packet and emitting the reply to it. -/
theorem Offered.span (h : Offered s packet true s') {d : BeamDevice} {input : List Packet}
    (hspan : Span d input [] (s.device.noteTaken packet)) : Span d input [] s'.device := by
  cases h with
  | taken _ room reply device =>
      rw [device]
      simpa using hspan.trans (span_emitAll (d := s.device.noteTaken packet) room reply)

/-- One packet held from an earlier call: it is taken, or it goes back to the front. -/
theorem ingestHeld_spec (hs : s.Sound) {rest : List Packet} (hreceive : s.device.receive = packet :: rest) :
    wp (ingestPacket packet : Op ε Bool)
      (fun taken s' => (taken = true → Advances s [] [] s') ∧ (taken = false → Advances s [] []
        { s' with device := { s'.device with receive := packet :: s'.device.receive } }))
      E { s with device := { s.device with receive := rest } } := by
  have hpop : DrivePath s { s with device := { s.device with receive := rest } } :=
    .single (.device _)
  refine wp_mono (ingestPacket_spec (hpop.sound hs) packet) (fun taken t ht => ?_) fun _ _ h => h
  refine ⟨?_, ?_⟩
  · rintro rfl
    exact ⟨hpop.trans ht.path, ht.span (span_takeHeld hreceive)⟩
  · rintro rfl
    cases ht with
    | left h =>
        refine ⟨(hpop.trans h.path).trans (.single (.device _)), ?_⟩
        rw [h.device]
        dsimp only
        rw [← hreceive]
        exact .refl _

/-- The ingress loop takes a front part of the batch, after what was held. -/
theorem ingressLoop_spec (hs : s.Sound) (n : Nat) (batch : List Packet) (work : Nat) :
    wp (ingressLoop n batch work : Op ε (List Packet × Nat × Bool))
      (fun result s' => ∃ consumed, batch = consumed ++ result.1 ∧ Advances s consumed [] s') E s := by
  induction n generalizing s batch work with
  | zero => exact ⟨[], rfl, .refl s⟩
  | succ n ih =>
      unfold ingressLoop
      have hspend := Maintains.spend s
      have hs' := hspend.sound hs
      rw [wp_bind, wp_get, wp_ite]
      refine ⟨fun _ => ⟨[], rfl, .refl s⟩, fun _ => ?_⟩
      rw [wp_bind, wp_withinBudget, wp_ite]
      refine ⟨fun _ => ?_, fun _ => ⟨[], rfl, .of_maintains hspend⟩⟩
      rw [wp_bind, wp_get]
      dsimp only
      cases hreceive : s.device.receive with
      | cons packet rest =>
          dsimp only
          rw [wp_bind, wp_set, wp_bind]
          refine wp_mono (ingestHeld_spec hs' hreceive) (fun taken t ht => ?_) fun _ _ h => h
          rw [wp_ite]
          refine ⟨fun htaken => ?_, fun htaken => ?_⟩
          · have ht := ht.1 htaken
            refine wp_mono (ih (ht.sound hs') batch _) ?_ fun _ _ h => h
            rintro result u ⟨consumed, hbatch, hu⟩
            exact ⟨consumed, hbatch, .after hspend (ht.trans hu)⟩
          · rw [wp_bind, wp_modify, wp_pure]
            exact ⟨[], rfl, .after hspend (ht.2 (by simpa using htaken))⟩
      | nil =>
          cases batch with
          | nil => exact ⟨[], rfl, .of_maintains hspend⟩
          | cons packet rest =>
              dsimp only
              rw [wp_bind]
              refine wp_mono (ingestPacket_spec hs' packet) (fun taken t ht => ?_) fun _ _ h => h
              rw [wp_ite]
              refine ⟨fun htaken => ?_, fun htaken => ?_⟩
              · obtain rfl : taken = true := htaken
                have hadvance : Advances s [packet] [] t :=
                  .after hspend ⟨ht.path, ht.span (span_takeOffered hreceive packet)⟩
                refine wp_mono (ih (hadvance.sound hs) rest _) ?_ fun _ _ h => h
                rintro result u ⟨consumed, hbatch, hu⟩
                exact ⟨packet :: consumed, by rw [hbatch]; rfl, hadvance.trans hu⟩
              · obtain rfl : taken = false := by simpa using htaken
                cases ht with
                | left h => exact ⟨[], rfl, .of_maintains (hspend.trans h)⟩

theorem enqueueUnprocessed_spec {unprocessed : List Packet} (hfits : unprocessed ≠ [] →
      s.device.receive.length + unprocessed.length ≤ s.device.receiveLimit) :
    wp (enqueueUnprocessed unprocessed) (fun _ s' => Advances s unprocessed [] s')
      (fun _ _ => False) s := by
  unfold enqueueUnprocessed
  rw [wp_ite]
  refine ⟨fun hnil => ?_, fun hsome => ?_⟩
  · rw [hnil]
    exact .refl s
  · simp only [wp_bind, wp_get, wp_orFail, wp_set]
    refine ⟨fun device hdevice => ?_, fun hnone => ?_⟩
    · exact ⟨.single (.device _), span_enqueueReceiveBatch hdevice⟩
    · simp [enqueueReceiveBatch, receiveFits, hfits hsome] at hnone

/-! ## Sweeps and egress -/

theorem cleanupSweep_spec (hs : s.Sound) (now : Instant) (limit : Nat) (sweeps : Sweeps) :
    wp (cleanupSweep now limit sweeps : Op ε Sweeps) (fun _ s' => Maintains s s') E s := by
  unfold cleanupSweep
  rw [wp_bind]
  exact wp_mono (reapClosingTcp_spec hs now limit) (fun _ _ h => h) fun _ _ h => h

theorem listenerSweep_spec (hs : s.Sound) (limit : Nat) (sweeps : Sweeps) :
    wp (listenerSweep limit sweeps : Op ε Sweeps) (fun _ s' => Maintains s s') E s := by
  unfold listenerSweep
  rw [wp_bind]
  exact wp_mono (refreshListeners_spec hs limit) (fun _ _ h => h) fun _ _ h => h

/-- The listeners' sweep after the close sweep. -/
theorem Maintains.listenerSweep {t : NativeStack} (hs : s.Sound) (ht : Maintains s t) (limit : Nat)
    (sweeps : Sweeps) :
    wp (listenerSweep limit sweeps : Op ε Sweeps) (fun _ s' => Maintains s s') E t :=
  wp_mono (listenerSweep_spec (ht.sound hs) limit sweeps) (fun _ _ hu => ht.trans hu) fun _ _ h => h

theorem sweepsBeforeEgress_spec (hs : s.Sound) (now : Instant) :
    wp (sweepsBeforeEgress now : Op ε Sweeps) (fun _ s' => Maintains s s') E s := by
  unfold sweepsBeforeEgress
  simp only [wp_bind, wp_get, wp_ite, wp_pure]
  refine ⟨fun _ => ?_, fun _ => ⟨fun _ => Maintains.listenerSweep hs (.refl s) _ _, fun _ => .refl s⟩⟩
  refine wp_mono (cleanupSweep_spec hs now _ _) (fun sweeps t ht => ?_) fun _ _ h => h
  exact ⟨fun _ => Maintains.listenerSweep hs ht _ _, fun _ => ht⟩

theorem sweepsAfterEgress_spec (hs : s.Sound) (now : Instant) (sweeps : Sweeps) :
    wp (sweepsAfterEgress now sweeps : Op ε Sweeps) (fun _ s' => Maintains s s') E s := by
  unfold sweepsAfterEgress
  simp only [wp_bind, wp_get, wp_ite, wp_pure]
  refine ⟨fun _ => ?_, fun _ => ⟨fun _ => Maintains.listenerSweep hs (.refl s) _ _, fun _ => .refl s⟩⟩
  refine wp_mono (cleanupSweep_spec hs now _ _) (fun sweeps t ht => ?_) fun _ _ h => h
  exact ⟨fun _ => Maintains.listenerSweep hs ht _ _, fun _ => ht⟩

theorem pollEgress_spec (hs : s.Sound) :
    wp (pollEgress : Op ε Bool) (fun _ s' => Advances s [] [] s') E s := by
  unfold pollEgress
  simp only [wp_bind, wp_get, wp_set, wp_pure]
  generalize hpoll : s.world.egressPolls.headD .idle = poll
  have hnative : DrivePath s { s with sockets := (poll.run s.device s.sockets).2.sockets } := by
    refine .single (.native (hs.reshapes_evolves (poll.run_evolves s.device s.sockets)) ?_)
    intro h handle a b ha hb
    rw [← hpoll] at hb
    exact .expires (h.egressPoll.run s.device s.sockets handle a b ha hb)
  have hdevice : DrivePath s { s with
      sockets := (poll.run s.device s.sockets).2.sockets
      device := (poll.run s.device s.sockets).1 } := hnative.trans (.single (.device _))
  refine ⟨.trans (hdevice.trans ?_) (.wakeAll _ _), ?_⟩
  · exact .tick rfl le_rfl ⟨List.suffix_rfl, List.tail_suffix _⟩
  · rw [(undisturbed_wakeAll _ _).device]
    exact span_egressPoll poll s.device s.sockets

theorem egressLoop_spec (hs : s.Sound) (n : Nat) (egress : Egress) :
    wp (egressLoop n egress : Op ε Egress) (fun _ s' => Advances s [] [] s') E s := by
  induction n generalizing s egress with
  | zero => exact .refl s
  | succ n ih =>
      unfold egressLoop
      have hspend := Maintains.spend s
      have hs' := hspend.sound hs
      rw [wp_bind, wp_get, wp_ite]
      refine ⟨fun _ => ?_, fun _ => .refl s⟩
      rw [wp_bind, wp_withinBudget, wp_ite]
      refine ⟨fun _ => ?_, fun _ => .of_maintains hspend⟩
      rw [wp_bind]
      refine wp_mono (pollEgress_spec hs') (fun changed t ht => ?_) fun _ _ h => h
      have hpoll : Advances s [] [] t := .after hspend ht
      rw [wp_ite]
      refine ⟨fun _ => ?_, fun _ => hpoll⟩
      simp only [wp_bind, wp_modify]
      have hrequest := hpoll.andThen
        (.trans (.requestClosingCleanup t) (.requestListenerScan _))
      refine wp_mono (ih (hrequest.sound hs) _) (fun _ u hu => ?_) fun _ _ h => h
      exact hrequest.trans hu

/-! ## The drive -/

theorem totalMillis_le {a b : Instant} (h : a ≤ b) : totalMillis a ≤ totalMillis b :=
  Int.tdiv_le_tdiv (by decide) h

/-- The earliest of two times, one of which is known. -/
theorem earliest_le (next : Option Instant) (deadline : Instant) :
    ∃ instant, earliest next (some deadline) = some instant ∧ instant ≤ deadline := by
  cases next with
  | none => exact ⟨deadline, rfl, le_rfl⟩
  | some next => exact ⟨min next deadline, rfl, min_le_right _ _⟩

/-- Work that nothing outside the stack has to happen for: packets that can go out or in, and
pending sweeps. -/
def workRemains (s : NativeStack) : Bool :=
  s.device.transmitReady || (s.device.hasReceive && s.device.canReceive) ||
    s.closingCleanupPending || s.listenerScanPending

/-- The effects announce what `s` is left with: work makes a continuation, and without one the next
poll is no later than the next close deadline. -/
structure Announces (s : NativeStack) (effects : Effects) : Prop where
  work : s.workRemains = true → effects.more = true
  deadline : effects.more = false → ∀ deadline, s.nextCloseDeadline = some deadline →
    ∃ pollAt, effects.pollAt = some pollAt ∧ pollAt ≤ totalMillis deadline

theorem finishDrive_spec (now : Instant) (output : List Packet) (inputBytes ingressWork : Nat)
    (sweeps : Sweeps) (mayRemain deferred : Bool) :
    wp (finishDrive now output inputBytes ingressWork sweeps mayRemain deferred : Op ε Effects)
      (fun effects s' => effects.output = output ∧ Maintains s s' ∧ Announces s' effects) E s := by
  unfold finishDrive
  simp only [wp_bind, wp_modify, wp_get, wp_ite, wp_pure, interfacePollAt, wp_set]
  refine ⟨fun hmore => ⟨trivial, .tick rfl le_rfl (.of_polls rfl rfl), fun _ => hmore, fun hnone => ?_⟩,
    fun hmore => ⟨trivial, .tick rfl le_rfl (.of_polls rfl rfl), fun hwork => ?_, fun _ deadline hdeadline => ?_⟩⟩
  · exact (Bool.false_ne_true (hnone.symm.trans hmore)).elim
  · refine (hmore ?_).elim
    simp only [workRemains, Bool.or_eq_true] at hwork ⊢
    tauto
  · change s.nextCloseDeadline = some deadline at hdeadline
    obtain ⟨instant, hinstant, hle⟩ := earliest_le ((s.world.pollAts.headD none).filter fun instant =>
      s.device.transmitCreditAvailable || decide (now < instant)) deadline
    refine ⟨totalMillis instant, ?_, totalMillis_le hle⟩
    change Option.map totalMillis (earliest _ s.nextCloseDeadline) = _
    rw [hdeadline, hinstant]
    rfl

/-- What a drive does and reports. -/
structure Drives (s : NativeStack) (batch : List Packet) (effects : Effects) (s' : NativeStack) :
    Prop where
  path : DrivePath s s'
  span : Span (s.device.beginCall s.limits.outputPackets) batch effects.output s'.device
  announces : Announces s' effects

/-- After some of the batch has been consumed there is room for the rest. -/
theorem Advances.fits {s' : NativeStack} {consumed rest output : List Packet}
    (h : Advances s consumed output s')
    (hfits : s.device.receive.length + (consumed ++ rest).length ≤ s.device.receiveLimit) :
    s'.device.receive.length + rest.length ≤ s'.device.receiveLimit := by
  obtain ⟨taken, -, hflow⟩ := h.span.ingress
  have hlength := hflow.length_le
  rw [h.span.receiveLimit]
  rw [List.length_append] at hfits
  omega

theorem driveBatch_spec (hs : s.Sound) (now : Instant) {batch : List Packet} (copiedBytes : Nat)
    (hfits : batch ≠ [] → s.device.receiveFits batch.length = true) :
    wp (driveBatch now batch copiedBytes) (fun effects s' => Drives s batch effects s')
      (fun _ _ => False) s := by
  unfold driveBatch
  rw [wp_bind, wp_modify, wp_bind, wp_get]
  have hpath : DrivePath s { s with device := s.device.beginCall s.limits.outputPackets } :=
    .single (.device _)
  generalize hbegin : { s with device := s.device.beginCall s.limits.outputPackets } = s₀ at *
  have hs₀ := hpath.sound hs
  have hdevice : s₀.device = s.device.beginCall s.limits.outputPackets := by rw [← hbegin]
  have hfits₀ : batch ≠ [] → s₀.device.receive.length + batch.length ≤ s₀.device.receiveLimit := by
    intro hbatch
    rw [hdevice]
    simpa [receiveFits, BeamDevice.beginCall] using hfits hbatch
  rw [wp_bind]
  refine wp_mono (takeOutput_spec _ _) (fun output t ht => ?_) fun _ _ h => h
  rw [wp_bind]
  refine wp_mono (ingressLoop_spec (ht.sound hs₀) _ batch 0) (fun ingress u hu => ?_) fun _ _ h => h
  obtain ⟨consumed, hbatch, hu⟩ := hu
  have hingress := ht.trans hu
  rw [wp_bind]
  have hroom : ingress.1 ≠ [] →
      u.device.receive.length + ingress.1.length ≤ u.device.receiveLimit := by
    intro hrest
    refine hingress.fits ?_
    rw [List.nil_append, ← hbatch]
    exact hfits₀ (by simp [hbatch, hrest])
  refine wp_mono (enqueueUnprocessed_spec hroom) (fun _ v hv => ?_) fun _ _ h => h
  have hbatched : Advances s₀ batch output v := by simpa [← hbatch] using hingress.trans hv
  rw [wp_bind, wp_withinBudget, wp_bind, wp_modify, wp_bind, wp_get]
  have hdue : ∀ w : NativeStack, Maintains w
      (if w.nextCloseDeadline.any fun deadline => deadline ≤ now then w.requestClosingCleanup else w) := by
    intro w
    split
    · exact .requestClosingCleanup w
    · exact .refl w
  have hspend := Maintains.spend v
  have hrequested := (hbatched.andThen hspend).andThen (hdue _)
  rw [wp_bind]
  refine wp_mono (sweepsBeforeEgress_spec (hrequested.sound hs₀) now) (fun sweeps w hw => ?_)
    fun _ _ h => h
  have hswept := hrequested.andThen hw
  rw [wp_bind]
  refine wp_mono (egressLoop_spec (hswept.sound hs₀) _ _) (fun egress x hx => ?_) fun _ _ h => h
  have hegress := hswept.trans hx
  -- What follows the egress loop, whether or not it asked for another close sweep.
  have hend : ∀ y : NativeStack, Advances s₀ (batch ++ []) (output ++ []) y →
      wp (do
        let additional ← takeOutput (s₀.limits.outputPackets - output.length)
          (s₀.limits.bytesCopied - byteCount output)
        let sweeps ← sweepsAfterEgress now { sweeps with work := egress.work }
        finishDrive now (output ++ additional) copiedBytes ingress.2.1 sweeps
          (egress.mayRemain || (!egress.attempted && egress.work == s₀.limits.maintenanceWork))
          (ingress.2.2 || !v.callBudget.checkpoint.1 || egress.deferred) : Op StackError Effects)
        (fun effects s' => Drives s batch effects s') (fun _ _ => False) y := by
    intro y hy
    rw [wp_bind]
    refine wp_mono (takeOutput_spec _ _) (fun additional z hz => ?_) fun _ _ h => h
    have htaken := hy.trans hz
    rw [wp_bind]
    refine wp_mono (sweepsAfterEgress_spec (htaken.sound hs₀) now _) (fun sweeps' z' hz' => ?_)
      fun _ _ h => h
    refine wp_mono (finishDrive_spec now _ _ _ _ _ _) ?_ fun _ _ h => h
    rintro effects s' ⟨houtput, hmaintains, hannounces⟩
    have hall := (htaken.andThen hz').andThen hmaintains
    refine ⟨hpath.trans hall.path, ?_, hannounces⟩
    rw [← hdevice, houtput]
    simpa using hall.span
  simp only [wp_ite, wp_bind, wp_modify] at hend ⊢
  refine ⟨fun _ => ⟨fun _ => ?_, fun _ => ?_⟩, fun _ => ?_⟩
  · exact hend _ (hegress.andThen (.requestClosingCleanup x))
  · refine hend _ ((hegress.andThen (.requestClosingCleanup x)).andThen ?_)
    exact .tick rfl le_rfl (.of_polls rfl rfl)
  · exact hend _ hegress

/-- A drive without a batch always succeeds. -/
theorem drive_spec (hs : s.Sound) (now : Instant) (copiedBytes : Nat) :
    wp (drive now copiedBytes : Op ε Effects) (fun effects s' => Drives s [] effects s') E s :=
  wp_expect (driveBatch_spec hs now copiedBytes fun h => (h rfl).elim)

end SmolNet.NativeStack
