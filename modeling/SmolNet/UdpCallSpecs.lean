import SmolNet.TcpStreamSpecs

/-!
# The UDP calls are made of steps

A UDP record may own several native sockets.  What the calls do to them leaves everything else as it
is, so it is stated as a change of the socket set alone.
-/

namespace SmolNet.NativeStack

open Std Program TreeMap Ownership

variable {ε : Type} {s : NativeStack} {E : ε → NativeStack → Prop}

/-! ## Native UDP sockets -/

/-- Putting a UDP socket back leaves every TCP socket as it is. -/
theorem getElem?_insert_udp {handle other : Nat} {socket : UdpSocket} {a : TcpSocket}
    {sockets : SocketSet} (h : (sockets.insert handle (.udp socket))[other]? = some (.tcp a)) :
    sockets[other]? = some (.tcp a) := by
  rw [ExtTreeMap.getElem?_insert] at h
  split at h
  · cases h
  · exact h

theorem Sound.reshapes_udp (hs : s.Sound) {handle : Nat} {socket changed : UdpSocket}
    (hsocket : s.sockets[handle]? = some (.udp socket)) :
    s.Reshapes (s.sockets.insert handle (.udp changed)) := by
  refine ⟨fun other => ?_, fun id record tcp hrecord hidle htcp => ?_⟩
  · rw [ExtTreeMap.getElem?_insert]
    by_cases hother : handle = other
    · subst hother
      rw [hsocket]
      simpa using Option.Rel.some (show (NativeSocket.udp socket).SameShape (.udp changed) from trivial)
    · simp only [Std.compare_eq_iff_eq, hother, if_false]
      generalize s.sockets[other]? = found
      cases found with
      | none => exact .none
      | some found => cases found <;> exact .some (by simp [NativeSocket.SameShape])
  · obtain ⟨old, hold, hclosed⟩ := hs.typed.tcp id record hrecord
    have hsame := getElem?_insert_udp htcp
    rw [hold] at hsame
    cases hsame
    exact hclosed hidle

/-- Steps that change native sockets and nothing else. -/
structure OnlySockets (s s' : NativeStack) : Prop where
  prepares : Prepares Gentle s [] s'
  same : ∃ sockets, s' = { s with sockets := sockets }

namespace OnlySockets

theorem refl (s : NativeStack) : OnlySockets s s := ⟨.refl s, s.sockets, rfl⟩

theorem trans {s t u : NativeStack} (h : OnlySockets s t) (h' : OnlySockets t u) : OnlySockets s u := by
  obtain ⟨sockets, hsame⟩ := h.same
  obtain ⟨sockets', hsame'⟩ := h'.same
  refine ⟨h.prepares.andThen h'.prepares, sockets', ?_⟩
  rw [hsame', hsame]

theorem sound {s s' : NativeStack} (h : OnlySockets s s') (hs : s.Sound) : s'.Sound := h.prepares.sound hs

theorem udpRecords {s s' : NativeStack} (h : OnlySockets s s') : s'.udpRecords = s.udpRecords := by
  obtain ⟨sockets, rfl⟩ := h.same
  rfl

theorem slots {s s' : NativeStack} (h : OnlySockets s s') : SameSlots s s' := by
  obtain ⟨sockets, rfl⟩ := h.same
  exact ⟨rfl, rfl, rfl⟩

/-- A UDP socket put back in its place. -/
theorem put (hs : s.Sound) {handle : Nat} {socket : UdpSocket}
    (hsocket : s.sockets[handle]? = some (.udp socket)) (changed : UdpSocket) :
    OnlySockets s (s.putSocket handle (.udp changed)) := by
  have hmoved : s.Moved (s.sockets.insert handle (.udp changed)) := by
    intro other a b ha hb
    rw [getElem?_insert_udp hb] at ha
    cases ha
    exact .keeps (.refl a)
  have hmaintains : Maintains s (s.putSocket handle (.udp changed)) :=
    .step (.native (hs.reshapes_udp hsocket) fun _ => hmoved) rfl
  exact ⟨hmaintains.prepares hs, _, rfl⟩

end OnlySockets

section

variable (hs : s.Sound) {id : Nat} {record : UdpRecord} (hrecord : s.udpRecords[id]? = some record)
include hs hrecord

theorem recvMatching_spec (accepts : Datagram → Bool) {handle : Nat} (hhandle : handle ∈ record.handles)
    (quota : Nat) :
    wp (recvMatching accepts handle quota : Op ε (Option Datagram × Nat))
      (fun _ s' => OnlySockets s s') E s := by
  induction quota generalizing s with
  | zero => exact .refl s
  | succ quota ih =>
      obtain ⟨socket, hsocket⟩ := hs.typed.udp id record hrecord handle hhandle
      unfold recvMatching
      rw [wp_bind, wp_getUdp]
      refine ⟨socket, hsocket, ?_⟩
      rw [wp_bind, wp_putUdp]
      have hput := OnlySockets.put hs hsocket socket.recv.2
      cases socket.recv.1 with
      | none => exact hput
      | some datagram =>
          rw [wp_ite]
          refine ⟨fun _ => hput, fun _ => ?_⟩
          refine wp_mono (ih (hput.sound hs) ?_) (fun _ _ h => hput.trans h) fun _ _ h => h
          rw [hput.udpRecords]
          exact hrecord

theorem recvRotation_spec (accepts : Datagram → Bool) (count start : Nat) {rotation : List (Nat × Nat)}
    (hrotation : ∀ visit ∈ rotation, visit.2 ∈ record.handles) (quota : Nat) :
    wp (recvRotation accepts count start rotation quota : Op ε (Option Datagram × Nat))
      (fun _ s' => OnlySockets s s') E s := by
  induction rotation generalizing s quota with
  | nil => exact .refl s
  | cons visit rest ih =>
      unfold recvRotation
      rw [wp_bind]
      refine wp_mono (recvMatching_spec hs hrecord accepts (hrotation visit (by simp)) quota) ?_
        fun _ _ h => h
      intro received t ht
      rw [wp_ite]
      refine ⟨fun _ => ht, fun _ => ?_⟩
      refine wp_mono (ih (ht.sound hs) ?_ (fun other hother => hrotation other (by simp [hother]))
        received.2) (fun _ _ h => ht.trans h) fun _ _ h => h
      rw [ht.udpRecords]
      exact hrecord

theorem registerUdpWakers_spec (direction : Direction) (key : ReadyKey) {handles : List Nat}
    (hhandles : ∀ handle ∈ handles, handle ∈ record.handles) :
    wp (each (fun handle => do
        let socket ← getUdp handle
        putUdp handle (socket.registerWaker direction key)) handles : Op ε Unit)
      (fun _ s' => OnlySockets s s') E s := by
  refine wp_each (I := fun t => OnlySockets s t) (fun handle hhandle t ht => ?_) (.refl s)
  obtain ⟨socket, hsocket⟩ := (ht.sound hs).typed.udp id record (by rw [ht.udpRecords]; exact hrecord)
    handle (hhandles handle hhandle)
  simp only [wp_bind, wp_getUdp, wp_putUdp]
  exact ⟨socket, hsocket, ht.trans (.put (ht.sound hs) hsocket _)⟩

/-- A UDP identity names neither a TCP record nor a listener. -/
theorem Sound.mayWaitUdp {identity : SocketIdentity} (hid : identity.id = id) : s.MayWait identity := by
  subst hid
  have hmem := mem_of_getElem? hrecord
  refine ⟨fun tcp htcp => ?_, fun listener hlistener => ?_⟩
  · exact ((hs.rostered.tcp_apart _ (mem_of_getElem? htcp)).2 hmem).elim
  · exact (hs.rostered.listener_apart _ (mem_of_getElem? hlistener) hmem).elim

/-- Arming a waiter cannot fail where its slot is empty and there is room. -/
theorem armUdpWaiter_spec {identity : SocketIdentity} (hid : identity.id = id) {handles : List Nat}
    (hhandles : ∀ handle ∈ handles, handle ∈ record.handles) {direction : Direction}
    {operation : Operation} {pid reference : Nat} {immediatelyReady : Bool}
    (hdirection : operation.direction = direction) (harmable : s.Armable identity .udp direction)
    {E : SocketError → NativeStack → Prop} :
    wp (armUdpWaiter identity handles direction operation pid reference immediatelyReady)
      (fun _ s' => Prepares Gentle s [] s') E s := by
  unfold armUdpWaiter
  rw [wp_bind]
  refine wp_mono (installWaiter_spec (hs.mayWaitUdp hrecord hid) hdirection) (fun _ t ht => ?_)
    fun _ _ h => (h.2 harmable).elim
  obtain ⟨ht, hkept⟩ := ht
  rw [wp_bind]
  refine wp_mono (registerUdpWakers_spec (ht.sound hs) (by rw [hkept.udpRecords]; exact hrecord)
    direction _ hhandles) (fun _ u hu => ?_) fun _ _ h => h
  have hready := ht.andThen hu.prepares
  rw [wp_ite]
  refine ⟨fun _ => hready.andThen ?_, fun _ => hready⟩
  exact Maintains.prepares (.wakeAll u [⟨identity, direction⟩]) (hready.sound hs)

end

/-! ## Opening and binding -/

section

variable (hs : s.Sound) (hin : s.history.inHand = [])
include hs hin

theorem udpOpen_spec (family : AddressFamily) :
    wp (udpOpen family) (fun envelope s' => Undriven s envelope s') (fun _ s' => Fails s s') s := by
  unfold udpOpen
  simp only [wp_bind, wp_ensureRunning, wp_ensureLogicalSocketCapacity, wp_ensureNativeSocketCapacity,
    wp_ensureSocketBufferCapacity, wp_get, wp_set, wp_attempt]
  refine ⟨fun _ => ⟨fun hlogical => ⟨fun hnative => ⟨fun hbuffers => ?_, fun _ => .refl s⟩,
    fun _ => .refl s⟩, fun _ => .refl s⟩, fun _ => .refl s⟩
  refine wp_mono (insertSocket_spec .udp) ?_ ?_
  · rintro identity t ⟨hid, generation, world, hworld, rfl⟩
    simp only [wp_modify, wp_finishCall]
    have hopen : Step s .silent { s.enroll identity .udp with
        sockets := (s.sockets.add (.udp .new)).2
        udpRecords := s.udpRecords.insert identity.id (.new identity s.sockets.freeHandle family) } :=
      .openUdp hid hlogical hnative hbuffers
    refine Prepares.undriven (.andThen (.step hopen trivial rfl rfl) ?_) hin _ rfl
    exact Maintains.prepares (.tick rfl le_rfl hworld) (hs.step hopen)
  · rintro e t ⟨-, next, generation, world, hnext, hworld, rfl⟩
    simp only [wp_removeSocket, wp_fail]
    refine ⟨SocketSet.mem_add_self _ _, ?_⟩
    rw [SocketSet.erase_add]
    refine ⟨?_, rfl, rfl, rfl, rfl, rfl, rfl, rfl, rfl, rfl, rfl, rfl⟩
    exact Maintains.prepares (.tick rfl hnext hworld) hs

end

/-- Sockets added beside those there are; each is a UDP socket. -/
structure AddsUdp (before : SocketSet) (added : List Nat) (sockets : SocketSet) : Prop where
  nodup : added.Nodup
  fresh : ∀ handle ∈ added, handle ∉ before
  kept : ∀ handle, handle ∉ added → sockets[handle]? = before[handle]?
  udp : ∀ handle ∈ added, ∃ socket, sockets[handle]? = some (.udp socket)

theorem AddsUdp.nil (sockets : SocketSet) : AddsUdp sockets [] sockets :=
  ⟨List.nodup_nil, by simp, fun _ _ => rfl, by simp⟩

theorem AddsUdp.cons {before sockets : SocketSet} {added : List Nat} {socket : UdpSocket}
    (h : AddsUdp (before.add (.udp socket)).2 added sockets) :
    AddsUdp before (before.freeHandle :: added) sockets := by
  have hfree : before.freeHandle ∉ added := fun hin => h.fresh _ hin (before.mem_add_self _)
  refine ⟨List.nodup_cons.2 ⟨hfree, h.nodup⟩, ?_, ?_, ?_⟩
  · intro handle hin
    rcases List.mem_cons.1 hin with rfl | hin
    · exact before.freeHandle_not_mem
    · exact fun hbefore => h.fresh handle hin (by simp [SocketSet.add, hbefore])
  · intro handle hnot
    rw [List.mem_cons, not_or] at hnot
    rw [h.kept handle hnot.2, SocketSet.getElem?_add, if_neg hnot.1]
  · intro handle hin
    rcases List.mem_cons.1 hin with rfl | hin
    · refine ⟨socket, ?_⟩
      rw [h.kept _ hfree, SocketSet.getElem?_add, if_pos rfl]
    · exact h.udp handle hin

theorem AddsUdp.kept_of_mem {before sockets : SocketSet} {added : List Nat}
    (h : AddsUdp before added sockets) {handle : Nat} (hhandle : handle ∈ before) :
    sockets[handle]? = before[handle]? := h.kept handle fun hin => h.fresh handle hin hhandle

theorem AddsUdp.extends {added : List Nat} {sockets : SocketSet} (h : AddsUdp s.sockets added sockets) :
    s.Extends sockets added := by
  refine ⟨h.nodup, h.fresh, fun handle => ?_⟩
  by_cases hin : handle ∈ added
  · obtain ⟨socket, hsocket⟩ := h.udp handle hin
    simp [mem_of_getElem? hsocket, hin]
  · rw [ExtTreeMap.mem_iff_isSome_getElem?, h.kept handle hin, ← ExtTreeMap.mem_iff_isSome_getElem?]
    simp [hin]

theorem addUdpSockets_spec (sockets : List UdpSocket) :
    wp (addUdpSockets sockets : Op ε (List Nat))
      (fun added s' => added.length = sockets.length ∧
        ∃ set, s' = { s with sockets := set } ∧ AddsUdp s.sockets added set) E s := by
  induction sockets generalizing s with
  | nil => exact ⟨rfl, s.sockets, rfl, .nil _⟩
  | cons socket rest ih =>
      unfold addUdpSockets
      simp only [wp_bind, wp_get, wp_set, wp_pure]
      refine wp_mono ih ?_ fun _ _ h => h
      rintro added t ⟨hlength, set, rfl, hadds⟩
      exact ⟨by simp [hlength], set, rfl, hadds.cons⟩

theorem bindAdditional_length {port : Nat} {addresses : List IpAddress} {sockets : List UdpSocket}
    (h : bindAdditional port addresses = .ok sockets) : sockets.length = addresses.length := by
  induction addresses generalizing sockets with
  | nil =>
      obtain rfl := Except.ok.inj h
      rfl
  | cons address rest ih =>
      unfold bindAdditional at h
      split at h
      · cases h
      · split at h
        · cases h
        · rename_i others hothers
          obtain rfl := Except.ok.inj h
          simp [ih hothers]

theorem udpRecord?_of_record {identity : SocketIdentity} {record : UdpRecord}
    (hrecord : s.udpRecords[identity.id]? = some record) (hidentity : record.identity = identity) :
    s.udpRecord? identity = .ok record := by
  unfold udpRecord?
  simp [hrecord, hidentity]

/-- Binding a UDP record, once its port is known. -/
theorem bindUdpOn_spec (hs : s.Sound) (hin : s.history.inHand = []) {t : NativeStack} (ht : Fails s t)
    {record : UdpRecord} (hok : t.udpRecord? record.identity = .ok record)
    (hopen : record.localEndpoint = none) {port : Nat} {ephemeral : Bool}
    (hfree : t.udpPortInUse port record.family (some record.identity) = false)
    (hunused : ephemeral = true → Ephemeral port ∧ port ∉ t.usedUdpPorts record.family)
    (addresses : List IpAddress) (endpoint : ValidatedEndpoint) :
    wp (match addresses with
      | [] => fail .addressNotAvailable
      | primaryAddress :: additionalAddresses => do
          let primaryHandle ← orPanic record.handles.head?
          ensureNativeSocketCapacity additionalAddresses.length
          ensureSocketBufferCapacity (additionalAddresses.length * udpBufferBytes)
          let additional ← ofExcept (bindAdditional port additionalAddresses)
          let primary ← getUdp primaryHandle
          let (primary, wakes) ← ofExcept (bindUdp primary ⟨some primaryAddress, port⟩)
          modify fun s => (s.putSocket primaryHandle (.udp primary)).wakeAll wakes
          let handles ← addUdpSockets additional
          modify fun s =>
            s.logPort ephemeral ⟨.udp, record.identity, port, s.usedUdpPorts record.family⟩
          updateUdpRecord record.identity fun record =>
            { record with
              handles := primaryHandle :: handles
              localEndpoint := some { endpoint with port := port }
              receiveCursor := 0 }
          finishCall .ok {} [])
      (fun envelope s' => Undriven s envelope s') (fun _ s' => Fails s s') t := by
  obtain ⟨hrecord, -⟩ := udpRecord?_eq_ok hok
  have hst := ht.prepares.sound hs
  obtain ⟨-, hvalid⟩ := hst.filed.udp _ record hrecord
  cases addresses with
  | nil => exact ht
  | cons primaryAddress additionalAddresses =>
      obtain ⟨primaryHandle, hhandles⟩ := List.length_eq_one_iff.1 (hvalid.unbound hopen)
      simp only [wp_bind, wp_orPanic, wp_ensureNativeSocketCapacity, wp_ensureSocketBufferCapacity,
        wp_ofExcept, wp_getUdp, wp_modify]
      refine ⟨primaryHandle, by rw [hhandles]; rfl, fun hnative => ⟨fun hbuffers => ⟨fun additional hadditional => ?_,
        fun _ _ => ht⟩, fun _ => ht⟩, fun _ => ht⟩
      obtain ⟨socket, hsocket⟩ := hst.typed.udp _ record hrecord primaryHandle (by simp [hhandles])
      refine ⟨socket, hsocket, fun bound _ => ?_, fun _ _ => ht⟩
      have hput := OnlySockets.put hst hsocket bound.1
      have hwake := Maintains.prepares (.wakeAll _ bound.2) (hput.sound hst)
      have hkept := undisturbed_wakeAll (t.putSocket primaryHandle (.udp bound.1)) bound.2
      have hbound := hput.prepares.andThen hwake
      generalize (t.putSocket primaryHandle (.udp bound.1)).wakeAll bound.2 = u at *
      have hsize : u.sockets.size = t.sockets.size := by
        rw [hkept.sockets, putSocket, ExtTreeMap.size_insert, if_pos (by simpa using mem_of_getElem? hsocket)]
      have hrecordU : u.udpRecords[record.identity.id]? = some record := by
        rw [hkept.udpRecords]
        exact hrecord
      have hused : u.usedUdpPorts record.family = t.usedUdpPorts record.family := by
        unfold usedUdpPorts
        rw [hkept.udpRecords]
        rfl
      have hinUse : u.udpPortInUse port record.family (some record.identity) = false := by
        unfold udpPortInUse at hfree ⊢
        rw [hkept.udpRecords]
        exact hfree
      have hbytes : u.socketBufferBytes = t.socketBufferBytes := by
        unfold socketBufferBytes
        rw [hkept.tcpRecords, hkept.tcpListeners, hkept.udpRecords]
        rfl
      refine wp_mono (addUdpSockets_spec additional) ?_ fun _ _ h => h
      rintro added v ⟨hlength, set, rfl, hadds⟩
      rw [bindAdditional_length hadditional] at hlength
      simp only [wp_updateUdpRecord, wp_finishCall]
      have hokV : ({ u with sockets := set }.logPort ephemeral
          ⟨.udp, record.identity, port, u.usedUdpPorts record.family⟩).udpRecord? record.identity =
            .ok record := udpRecord?_of_record hrecordU rfl
      refine ⟨fun other hother => ?_, fun e he => by cases hokV.symm.trans he⟩
      obtain rfl := Except.ok.inj (hokV.symm.trans hother)
      have hextend : Step u .silent
          { u.putUdpRecord { record with
              handles := primaryHandle :: added
              localEndpoint := some { endpoint with port := port }
              receiveCursor := 0 } with
            sockets := set
            history := (u.logPort ephemeral
              ⟨.udp, record.identity, port, u.usedUdpPorts record.family⟩).history } := by
        refine @Step.extendUdp u record _ set added { endpoint with port := port } ephemeral hrecordU
          hadds.extends (fun _ hhandle => hadds.kept_of_mem hhandle) hadds.udp rfl ?_ rfl hopen rfl hinUse
          ?_ ?_ ?_
        · rw [hhandles]
          rfl
        · rw [hused]
          exact hunused
        · rw [hsize, hlength, hkept.limits]
          exact hnative
        · rw [hbytes, hlength]
          exact hbuffers
      exact ((ht.prepares.andThen hbound).andThen (.step hextend trivial rfl rfl)).undriven hin _ rfl

section

variable (hs : s.Sound) (hin : s.history.inHand = [])
include hs hin

theorem udpBind_spec (identity : SocketIdentity) (endpoint : TcpEndpoint) :
    wp (udpBind identity endpoint) (fun envelope s' => Undriven s envelope s')
      (fun _ s' => Fails s s') s := by
  unfold udpBind
  rw [wp_bind, wp_ensureRunning]
  refine ⟨fun _ => ?_, fun _ => .refl s⟩
  rw [wp_bind, wp_validate]
  refine ⟨fun _ _ => ?_, fun _ _ => .refl s⟩
  rw [wp_bind, wp_ofExcept]
  refine ⟨fun endpoint _ => ?_, fun _ _ => .refl s⟩
  rw [wp_bind, wp_udpRecord]
  refine ⟨fun record hok => ?_, fun _ _ => .refl s⟩
  obtain rfl := (udpRecord?_eq_ok hok).2
  rw [wp_bind, wp_require]
  refine ⟨fun hopen => ?_, fun _ => .refl s⟩
  rw [wp_bind, wp_require]
  refine ⟨fun _ => ?_, fun _ => .refl s⟩
  rw [wp_bind, wp_get, wp_bind, wp_require]
  refine ⟨fun _ => ?_, fun _ => .refl s⟩
  by_cases hzero : endpoint.port = 0
  · rw [if_pos hzero, wp_bind]
    refine wp_mono (allocateUdpEphemeralPort_spec record.family) ?_ ?_
    · rintro port t ⟨hrange, hunused, rfl⟩
      have hallocate : Fails s { s with nextUdpEphemeralPort := nextEphemeral port } :=
        ⟨.step (.allocateUdp hrange.1 hrange.2) trivial rfl rfl, rfl, rfl, rfl, rfl, rfl, rfl, rfl, rfl,
          rfl, rfl, rfl⟩
      exact bindUdpOn_spec hs hin hallocate hok hopen (udpPortInUse_of_unused hunused _)
        (fun _ => ⟨hrange, hunused⟩) _ endpoint
    · rintro e t rfl
      exact .refl _
  · rw [if_neg hzero, wp_bind, wp_require]
    refine ⟨fun hfree => ?_, fun _ => .refl s⟩
    rw [wp_bind, wp_pure]
    exact bindUdpOn_spec hs hin (.refl s) hok hopen hfree
      (fun hephemeral => absurd (beq_iff_eq.1 hephemeral) hzero) _ endpoint

/-! ## Names and peers -/

omit hs hin in
/-- A change of a UDP record that a step allows. -/
theorem Prepares.amendUdp {record changed : UdpRecord}
    (hrecord : s.udpRecords[record.identity.id]? = some record)
    (hidentity : changed.identity = record.identity) (hhandles : changed.handles = record.handles)
    (hfamily : changed.family = record.family)
    (hlocal : changed.localEndpoint = record.localEndpoint) :
    Prepares Gentle s [] { s with udpRecords := s.udpRecords.insert record.identity.id changed } := by
  have hstep := Step.amendUdp hrecord hidentity hhandles hfamily hlocal
  rw [putUdpRecord, hidentity] at hstep
  exact .step hstep trivial rfl rfl

omit hs in
theorem udpConnect_spec (identity : SocketIdentity) (endpoint : TcpEndpoint) :
    wp (udpConnect identity endpoint) (fun envelope s' => Undriven s envelope s')
      (fun _ s' => Fails s s') s := by
  unfold udpConnect
  simp only [wp_bind, wp_ensureRunning, wp_validate, wp_ofExcept, wp_udpRecord, wp_require, wp_get,
    wp_updateUdpRecord, wp_finishCall]
  refine ⟨fun _ => ⟨fun _ _ => ⟨fun remote _ => ⟨fun record hok => ⟨fun _ => ⟨fun _ => ⟨fun _ =>
    ⟨fun other hother => ?_, fun _ _ => .refl s⟩, fun _ => .refl s⟩, fun _ => .refl s⟩, fun _ => .refl s⟩,
    fun _ _ => .refl s⟩, fun _ _ => .refl s⟩, fun _ _ => .refl s⟩, fun _ => .refl s⟩
  obtain ⟨hrecord, rfl⟩ := udpRecord?_eq_ok hother
  refine Prepares.undriven (.amendUdp hrecord ?_ ?_ ?_ ?_) hin _ rfl <;> rfl

omit hs in
theorem udpName_spec (identity : SocketIdentity) (name : UdpRecord → Option ValidatedEndpoint)
    (missing : SocketError) :
    wp (udpName identity name missing) (fun envelope s' => Undriven s envelope s')
      (fun _ s' => Fails s s') s := by
  unfold udpName
  simp only [wp_bind, wp_ensureRunning, wp_validate, wp_udpRecord, wp_orFail, wp_finishCall]
  exact ⟨fun _ => ⟨fun _ _ => ⟨fun _ _ => ⟨fun _ _ => undriven_query hin _, fun _ => .refl s⟩,
    fun _ _ => .refl s⟩, fun _ _ => .refl s⟩, fun _ => .refl s⟩

/-! ## Datagrams -/

omit hs hin in
theorem sendSlice_unaddressable {socket : UdpSocket} {datagram : Datagram}
    (h : (socket.sendSlice datagram).1 = .error .unaddressable) :
    (socket.sendSlice datagram).2 = socket := by
  unfold UdpSocket.sendSlice at h ⊢
  split at h
  · rename_i hunaddressable
    rw [if_pos hunaddressable]
  · split at h <;> cases h

section

variable (hroom : s.WaiterRoom)
include hroom

theorem udpSendto_spec (identity : SocketIdentity) (endpoint : TcpEndpoint) (data : List UInt8)
    (pid reference : Nat) (now : Instant) :
    wp (udpSendto identity endpoint data pid reference now)
      (fun envelope s' => Driven Gentle s [] envelope s') (fun _ s' => Fails s s') s := by
  unfold udpSendto
  simp only [wp_bind, wp_ensureRunning, wp_validate, wp_require, wp_ofExcept, wp_udpRecord, wp_orFail,
    wp_get, wp_orPanic, wp_getUdp, wp_putUdp]
  refine ⟨fun _ => ⟨fun entry hvalid => ⟨fun hempty => ⟨fun remote _ => ⟨fun record hok =>
    ⟨fun localEndpoint _ => ⟨fun _ => ⟨fun _ => ⟨fun _ => ⟨fun _ => ⟨fun source _ => ?_,
    fun _ => .refl s⟩, fun _ => .refl s⟩, fun _ => .refl s⟩, fun _ => .refl s⟩, fun _ => .refl s⟩,
    fun _ => .refl s⟩, fun _ _ => .refl s⟩, fun _ _ => .refl s⟩, fun _ => .refl s⟩, fun _ _ => .refl s⟩,
    fun _ => .refl s⟩
  obtain ⟨hrecord, hidentity⟩ := udpRecord?_eq_ok hok
  obtain ⟨-, hrecordValid⟩ := hs.filed.udp _ record hrecord
  obtain ⟨handle, hhead⟩ := Option.ne_none_iff_exists'.1
    (List.head?_eq_none_iff.not.2 hrecordValid.handles)
  have hhandle : handle ∈ record.handles := List.mem_of_head? hhead
  obtain ⟨socket, hsocket⟩ := hs.typed.udp _ record hrecord handle hhandle
  refine ⟨handle, hhead, socket, hsocket, ?_⟩
  generalize hsent : socket.sendSlice _ = sent
  have hput := OnlySockets.put hs hsocket sent.2
  cases hresult : sent.1 with
  | ok =>
      rw [wp_bind]
      exact hput.prepares.drives hs hin (fun _ _ h => h) now _ .ok
  | error e =>
      cases e with
      | bufferFull =>
          have harmable := (hroom.armable hvalid hempty).sameSlots hput.slots
          have hrecord' := hrecord
          rw [← hput.udpRecords] at hrecord'
          rw [wp_bind]
          have hdirection : Operation.sendto.direction = .write := rfl
          refine wp_mono (armUdpWaiter_spec (hput.sound hs) hrecord' rfl ?_ hdirection harmable) ?_
            fun _ _ h => h
          · intro other hother
            rw [List.mem_singleton.1 hother]
            exact hhandle
          · intro _ t ht
            rw [wp_bind]
            exact (hput.prepares.andThen ht).drives hs hin (fun _ _ h => h) now 0 _
      | unaddressable =>
          have hsame : sent.2 = socket := by
            rw [← hsent] at hresult ⊢
            exact sendSlice_unaddressable hresult
          rw [wp_fail, hsame, putSocket_self hsocket]
          exact .refl s

theorem udpRecvfrom_spec (identity : SocketIdentity) (length pid reference : Nat) (now : Instant) :
    wp (udpRecvfrom identity length pid reference now)
      (fun envelope s' => Driven Gentle s [] envelope s') (fun _ s' => Fails s s') s := by
  unfold udpRecvfrom
  simp only [wp_bind, wp_ensureRunning, wp_validate, wp_require, wp_udpRecord, wp_orFail]
  refine ⟨fun _ => ⟨fun entry hvalid => ⟨fun hempty => ⟨fun record hok => ⟨fun localEndpoint _ => ?_,
    fun _ => .refl s⟩, fun _ _ => .refl s⟩, fun _ => .refl s⟩, fun _ _ => .refl s⟩, fun _ => .refl s⟩
  obtain ⟨hrecord, rfl⟩ := udpRecord?_eq_ok hok
  obtain ⟨-, hrecordValid⟩ := hs.filed.udp _ record hrecord
  rw [wp_ite]
  refine ⟨fun hnone => absurd (List.length_eq_zero_iff.1 hnone) hrecordValid.handles, fun _ => ?_⟩
  -- Whichever sockets the receive visits, they are the record's.
  have hrotation : ∀ visit ∈
      ((List.range record.handles.length).zip record.handles).drop
          (record.receiveCursor % record.handles.length) ++
        ((List.range record.handles.length).zip record.handles).take
          (record.receiveCursor % record.handles.length), visit.2 ∈ record.handles := by
    intro visit hvisit
    have hmem : visit ∈ (List.range record.handles.length).zip record.handles := by
      rcases List.mem_append.1 hvisit with hvisit | hvisit
      · exact List.mem_of_mem_drop hvisit
      · exact List.mem_of_mem_take hvisit
    exact (List.of_mem_zip hmem).2
  rw [wp_bind]
  refine wp_mono (recvRotation_spec hs hrecord _ _ _ hrotation _) (fun received t ht => ?_) fun _ _ h => h
  have hrecordT : t.udpRecords[record.identity.id]? = some record := by
    rw [ht.udpRecords]
    exact hrecord
  obtain ⟨found, cursor⟩ := received
  dsimp only
  rw [wp_bind, wp_updateUdpRecord, udpRecord?_of_record hrecordT rfl]
  refine ⟨fun other hother => ?_, fun e he => by cases he⟩
  obtain rfl := Except.ok.inj hother
  have hcursor : Prepares Gentle t [] { t with
      udpRecords := t.udpRecords.insert record.identity.id { record with receiveCursor := cursor } } :=
    .amendUdp hrecordT rfl rfl rfl rfl
  have hvisited := ht.prepares.andThen hcursor
  cases found with
  | some datagram =>
      dsimp only
      rw [wp_bind]
      exact hvisited.drives hs hin (fun _ _ h => h) now _ _
  | none =>
      have harmable := ((hroom.armable hvalid hempty).sameSlots ht.slots).sameSlots
        (t := { t with
          udpRecords := t.udpRecords.insert record.identity.id { record with receiveCursor := cursor } })
        ⟨rfl, rfl, rfl⟩
      have hdirection : Operation.recvfrom.direction = .read := rfl
      dsimp only
      rw [wp_bind, wp_get, wp_bind]
      refine wp_mono (armUdpWaiter_spec (hvisited.sound hs) ExtTreeMap.getElem?_insert_self rfl
        (fun _ h => h) hdirection harmable) (fun _ u hu => ?_) fun _ _ h => h
      rw [wp_bind]
      exact (hvisited.andThen hu).drives hs hin (fun _ _ h => h) now 0 _

end

/-! ## Closing -/

omit hin in
/-- A record holds none of its native sockets twice. -/
theorem Sound.udp_nodup {id : Nat} {record : UdpRecord} (hrecord : s.udpRecords[id]? = some record) :
    record.handles.Nodup := by
  have hnodup : (Ownership.handles s.tcpRecords s.tcpListeners s.udpRecords).Nodup := by
    rw [hs.handles]
    exact nodup_keySet _
  rw [Ownership.handles, Multiset.nodup_add] at hnodup
  have hudp := hnodup.2.1
  rw [udpHandles, vals_eq_cons_erase hrecord, Multiset.cons_bind, Multiset.nodup_add] at hudp
  exact Multiset.coe_nodup.1 hudp.1

theorem udpClose_spec (identity : SocketIdentity) (now : Instant) :
    wp (udpClose identity now) (fun envelope s' => Driven Gentle s [] envelope s')
      (fun _ s' => Fails s s') s := by
  unfold udpClose
  simp only [wp_bind, wp_ensureRunning, wp_validate, wp_udpRecord]
  refine ⟨fun _ => ⟨fun entry hvalid => ⟨fun record hok => ?_, fun _ _ => .refl s⟩,
    fun _ _ => .refl s⟩, fun _ => .refl s⟩
  obtain ⟨hrecord, rfl⟩ := udpRecord?_eq_ok hok
  have hgentle : Gentle s (.closes record.identity) := by
    refine fun _ => ⟨fun hmem => ?_, fun hqueued => ?_⟩
    · exact (hs.rostered.tcp_apart _ hmem).2 (mem_of_getElem? hrecord)
    · exact (hs.queues.child _ hqueued).2.2.1 (mem_of_getElem? hrecord)
  refine wp_mono (closeEntry_spec record.identity) (fun aborts t ht => ?_) ?_
  · have hclosed := ht.prepares hgentle
    have hst := hclosed.sound hs
    have hrecordT : t.udpRecords[record.identity.id]? = some record := by
      rw [ht.udpRecords]
      exact hrecord
    have hnodup : record.handles.Nodup := hst.udp_nodup hrecordT
    refine wp_mono (removeSockets_spec hnodup fun handle hhandle => ?_) ?_ fun _ _ h => h
    · obtain ⟨socket, hsocket⟩ := hst.typed.udp _ record hrecordT handle hhandle
      exact mem_of_getElem? hsocket
    · rintro _ u rfl
      simp only [wp_modify]
      have hdropped := hclosed.andThen (.step (.dropUdp hrecordT ht.gone) trivial rfl rfl)
      exact hdropped.drives hs hin (fun _ _ h => h) now 0 .ok
  · rintro e t ⟨rfl, hgone⟩
    exact .refl _

end

end SmolNet.NativeStack
