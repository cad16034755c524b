import SmolNet.CallSpecs

/-!
# The TCP calls are made of steps

Opening, binding, listening, accepting and connecting.
-/

namespace SmolNet.NativeStack

open Std Program TreeMap Ownership

variable {ε : Type} {s : NativeStack} {identity : SocketIdentity}

/-! ## Arming -/

/-- A waiter can be armed for the socket: it is open, its slot is empty and there is room. -/
def Armable (s : NativeStack) (identity : SocketIdentity) (kind : SocketKind)
    (direction : Direction) : Prop :=
  ∃ entry, s.socketTable.validate identity kind = .ok entry ∧ entry.waiter direction = none ∧
    s.socketTable.waiterCount < s.socketTable.maxWaiters

theorem Armable.installs {registration : WaiterRegistration}
    (h : s.Armable registration.identity registration.expectedKind registration.direction)
    (hdirection : registration.operation.direction = registration.direction) (e : SocketError) :
    s.socketTable.installWaiter registration ≠ .error e := by
  obtain ⟨entry, hvalid, hempty, hroom⟩ := h
  unfold SocketTable.installWaiter
  rw [if_neg (not_not_intro hdirection), hvalid]
  simp only [hempty]
  rw [if_neg (Nat.not_le.2 hroom)]
  exact fun h => nomatch h

theorem Armable.sameSlots {t : NativeStack} {kind : SocketKind} {direction : Direction}
    (h : s.Armable identity kind direction) (hslots : SameSlots s t) : t.Armable identity kind direction := by
  obtain ⟨entry, hvalid, hempty, hroom⟩ := h
  refine ⟨entry, ?_, hempty, ?_⟩
  · unfold SocketTable.validate SocketTable.lookup at hvalid ⊢
    rw [hslots.entries]
    exact hvalid
  · rw [hslots.waiterCount, hslots.maxWaiters]
    exact hroom

/-- Where waiters may be armed: on sockets that have left the idle phases, and on listeners whose
queue is empty. -/
structure MayWait (s : NativeStack) (identity : SocketIdentity) : Prop where
  active : ∀ record, s.tcpRecords[identity.id]? = some record → record.phase.idle = false
  queue : ∀ listener, s.tcpListeners[identity.id]? = some listener → listener.accepted = []

theorem installWaiter_spec {registration : WaiterRegistration}
    (hwait : s.MayWait registration.identity)
    (hdirection : registration.operation.direction = registration.direction) :
    wp (installWaiter registration) (fun _ s' => Prepares Gentle s [] s' ∧ Undisturbed s s')
      (fun _ s' => s' = s ∧
        ¬ s.Armable registration.identity registration.expectedKind registration.direction) s := by
  unfold installWaiter
  simp only [wp_bind, wp_get, wp_ofExcept, wp_set]
  refine ⟨fun installed hinstalled => ?_, fun e he => ⟨trivial, fun harmable =>
    harmable.installs hdirection e he⟩⟩
  obtain ⟨result, table⟩ := installed
  cases result with
  | armed =>
      have hkept := undisturbed_install hinstalled (.armed registration.key registration.waiter)
      exact ⟨.step (.install hinstalled hwait.active hwait.queue) trivial hkept.device hkept.inHand, hkept⟩
  | alreadyArmed =>
      obtain rfl := SocketTable.installWaiter_alreadyArmed hinstalled
      exact ⟨.refl s, .refl s⟩

/-- The records, and who is open, stay. -/
structure SameRecords (s s' : NativeStack) : Prop where
  tcpRecords : s'.tcpRecords = s.tcpRecords
  tcpListeners : s'.tcpListeners = s.tcpListeners
  closingTcp : s'.closingTcp = s.closingTcp
  roster : s'.socketTable.roster = s.socketTable.roster

theorem Undisturbed.records {s s' : NativeStack} (h : Undisturbed s s') : SameRecords s s' :=
  ⟨h.tcpRecords, h.tcpListeners, h.closingTcp, h.table.roster⟩

namespace SameRecords

theorem refl (s : NativeStack) : SameRecords s s := ⟨rfl, rfl, rfl, rfl⟩

theorem trans {s t u : NativeStack} (h : SameRecords s t) (h' : SameRecords t u) : SameRecords s u :=
  ⟨h'.tcpRecords.trans h.tcpRecords, h'.tcpListeners.trans h.tcpListeners,
    h'.closingTcp.trans h.closingTcp, h'.roster.trans h.roster⟩

theorem record {s t : NativeStack} (h : SameRecords s t) (identity : SocketIdentity) :
    t.tcpRecord? identity = s.tcpRecord? identity := by
  unfold tcpRecord? listener?
  rw [h.tcpRecords, h.tcpListeners]

end SameRecords

/-- Changing a TCP socket in place without opening it. -/
theorem updateTcp_spec (hs : s.Sound) {handle : Nat} {change : TcpSocket → TcpSocket × List ReadyKey}
    (hsocket : ∃ socket, s.sockets[handle]? = some (.tcp socket))
    (hchange : ∀ socket, (NativeSocket.tcp socket).Evolves (.tcp (change socket).1))
    (hmoves : ∀ socket, s.Moves handle socket (change socket).1)
    {E : ε → NativeStack → Prop} :
    wp (updateTcp handle change : Op ε Unit)
      (fun _ s' => Prepares Gentle s [] s' ∧ SameRecords s s' ∧ SameSlots s s' ∧
        ∃ socket, s.sockets[handle]? = some (.tcp socket) ∧
          s'.sockets[handle]? = some (.tcp (change socket).1)) E s := by
  obtain ⟨socket, hsocket⟩ := hsocket
  rw [wp_updateTcp]
  refine ⟨socket, hsocket, ?_⟩
  obtain ⟨hrx, htx, hclosed⟩ := hchange socket
  have hkept := undisturbed_wakeAll (s.putSocket handle (.tcp (change socket).1)) (change socket).2
  have hslots := sameSlots_wakeAll (s.putSocket handle (.tcp (change socket).1)) (change socket).2
  have hput := Maintains.put hsocket (hs.reshapes_closed hsocket ⟨hrx, htx⟩ hclosed) (hmoves socket)
    (change socket).2
  refine ⟨hput.prepares hs, ⟨hkept.tcpRecords, hkept.tcpListeners, hkept.closingTcp, hkept.table.roster⟩,
    ⟨hslots.entries, hslots.waiterCount, hslots.maxWaiters⟩, socket, hsocket, ?_⟩
  rw [hkept.sockets]
  exact ExtTreeMap.getElem?_insert_self

theorem registerWaker_evolves (socket : TcpSocket) (direction : Direction) (key : ReadyKey) :
    (NativeSocket.tcp socket).Evolves (.tcp (socket.registerWaker direction key)) := by
  cases direction <;> exact ⟨rfl, rfl, id⟩

theorem registerWaker_sameConnection (socket : TcpSocket) (direction : Direction) (key : ReadyKey) :
    socket.SameConnection (socket.registerWaker direction key) := by
  cases direction <;> exact ⟨⟨rfl, rfl, rfl, rfl⟩, rfl, fun _ => rfl⟩

theorem armTcpWaiter_spec (hs : s.Sound) {handle : Nat} {direction : Direction} {operation : Operation}
    {pid reference : Nat} {immediatelyReady : Bool} (hwait : s.MayWait identity)
    (hdirection : operation.direction = direction)
    (hsocket : ∃ socket, s.sockets[handle]? = some (.tcp socket)) :
    wp (armTcpWaiter identity handle direction operation pid reference immediatelyReady)
      (fun _ s' => Prepares Gentle s [] s' ∧ SameRecords s s')
      (fun _ s' => s' = s ∧ ¬ s.Armable identity .tcp direction) s := by
  unfold armTcpWaiter
  rw [wp_bind]
  refine wp_mono (installWaiter_spec hwait hdirection) (fun _ t ht => ?_) fun _ _ h => h
  obtain ⟨ht, hkept⟩ := ht
  rw [wp_bind]
  rw [← hkept.sockets] at hsocket
  refine wp_mono (updateTcp_spec (ht.sound hs) hsocket (registerWaker_evolves · direction _) fun socket =>
    .keeps (registerWaker_sameConnection socket direction _)) (fun _ u hu => ?_) fun _ _ h => h
  have hready := ht.andThen hu.1
  have hrecords := hkept.records.trans hu.2.1
  rw [wp_ite]
  refine ⟨fun _ => ⟨hready.andThen ?_, hrecords.trans (undisturbed_wake u _).records⟩,
    fun _ => ⟨hready, hrecords⟩⟩
  exact Maintains.prepares (.wakeAll u [⟨identity, direction⟩]) (hready.sound hs)

/-- A change of a record that a step allows. -/
theorem Prepares.amend {record changed : TcpRecord} (hok : s.tcpRecord? identity = .ok record)
    (hchanged : Amends record changed) (hdeadline : changed.closeDeadline = record.closeDeadline)
    (hphase : s.PhaseChange record changed) :
    Prepares Gentle s [] { s with tcpRecords := s.tcpRecords.insert identity.id changed } := by
  obtain ⟨hrecord, rfl⟩ := tcpRecord?_eq_ok hok
  have hstep := DriveStep.amend hrecord hchanged hdeadline hphase
  rw [putRecord, hchanged.identity] at hstep
  exact .step (.drive hstep) trivial rfl rfl

/-- The answer to a query. -/
theorem undriven_query (hin : s.history.inHand = []) (result : Reply) :
    Undriven s (finish result {} [] s).1 (finish result {} [] s).2 :=
  Prepares.undriven (.refl s) hin result rfl

/-! ## Opening and binding -/

section

variable (hs : s.Sound) (hin : s.history.inHand = [])
include hs hin

theorem tcpOpen_spec (family : AddressFamily) (rcvbuf sndbuf : Nat) :
    wp (tcpOpen family rcvbuf sndbuf) (fun envelope s' => Undriven s envelope s')
      (fun _ s' => Fails s s') s := by
  unfold tcpOpen
  simp only [wp_bind, wp_ensureRunning, wp_ensureLogicalSocketCapacity, wp_ensureNativeSocketCapacity,
    wp_require, wp_ensureSocketBufferCapacity, wp_ofExcept, wp_get, wp_set, wp_attempt]
  refine ⟨fun _ => ⟨fun hlogical => ⟨fun hnative => ⟨fun hvalid => ⟨fun hbuffers =>
    ⟨fun socket hsocket => ?_, fun _ _ => .refl s⟩, fun _ => .refl s⟩, fun _ => .refl s⟩,
    fun _ => .refl s⟩, fun _ => .refl s⟩, fun _ => .refl s⟩
  obtain rfl : socket = .new rcvbuf sndbuf := by
    simpa [tcpSocket, hvalid] using hsocket.symm
  refine wp_mono (insertSocket_spec .tcp) ?_ ?_
  · rintro identity t ⟨hid, generation, world, hworld, rfl⟩
    simp only [wp_modify, wp_finishCall]
    have hopen : Step s .silent { s.enroll identity .tcp with
        sockets := (s.sockets.add (.tcp (.new rcvbuf sndbuf))).2
        tcpRecords := s.tcpRecords.insert identity.id
          (.new identity s.sockets.freeHandle family rcvbuf sndbuf) } :=
      .openTcp hid hvalid.1 hvalid.2 hlogical hnative hbuffers
    refine Prepares.undriven (.andThen (.step hopen trivial rfl rfl) ?_) hin _ rfl
    exact Maintains.prepares (.tick rfl le_rfl hworld) (hs.step hopen)
  · rintro e t ⟨-, next, generation, world, hnext, hworld, rfl⟩
    simp only [wp_removeSocket, wp_fail]
    refine ⟨SocketSet.mem_add_self _ _, ?_⟩
    rw [SocketSet.erase_add]
    refine ⟨?_, rfl, rfl, rfl, rfl, rfl, rfl, rfl, rfl, rfl, rfl, rfl⟩
    exact Maintains.prepares (.tick rfl hnext hworld) hs

omit hs in
theorem socketValidate_spec (identity : SocketIdentity) :
    wp (socketValidate identity) (fun envelope s' => Undriven s envelope s')
      (fun _ s' => Fails s s') s := by
  unfold socketValidate
  simp only [wp_bind, wp_ensureRunning, wp_get, wp_ofExcept, wp_finishCall]
  exact ⟨fun _ => ⟨fun entry _ => undriven_query hin _, fun _ _ => .refl s⟩, fun _ => .refl s⟩

theorem tcpBind_spec (identity : SocketIdentity) (endpoint : TcpEndpoint) :
    wp (tcpBind identity endpoint) (fun envelope s' => Undriven s envelope s')
      (fun _ s' => Fails s s') s := by
  -- Once there is a free port, the record takes it.
  have hend : ∀ (t : NativeStack) (port scopeId : Nat) (address : IpAddress) (record : TcpRecord)
      (ephemeral : Bool), Prepares Gentle s [] t → t.tcpRecord? identity = .ok record →
      record.phase = .open → port ≠ 0 → record.family.includes address = true →
      t.portInUse port record.family (some identity) = false →
      (ephemeral = true → Ephemeral port ∧ port ∉ t.usedTcpPorts record.family) →
      wp (do
        modify fun s => s.logPort ephemeral ⟨.tcp, identity, port, s.usedTcpPorts record.family⟩
        updateTcpRecord identity fun record =>
          { record with
            phase := .bound, localEndpoint := some ⟨address, port⟩, localScopeId := scopeId }
        finishCall .ok {} [])
        (fun envelope s' => Undriven s envelope s') (fun _ s' => Fails s s') t := by
    intro t port scopeId address record ephemeral ht hok hphase hport hfamily hfree hunused
    simp only [wp_bind, wp_modify, wp_updateTcpRecord, wp_finishCall]
    refine ⟨fun other hother => ?_, fun e he => by rw [tcpRecord?_logPort, hok] at he; cases he⟩
    rw [tcpRecord?_logPort, hok] at hother
    obtain rfl := Except.ok.inj hother
    obtain ⟨hrecord, rfl⟩ := tcpRecord?_eq_ok hok
    have hbind : Step t .silent _ :=
      .bind ⟨address, port⟩ scopeId ephemeral hrecord hphase hport hfamily hfree hunused
    exact (ht.andThen (.step hbind trivial rfl rfl)).undriven hin _ rfl
  unfold tcpBind
  simp only [wp_bind, wp_ensureRunning, wp_validate, wp_ofExcept, wp_tcpRecord, wp_require, wp_get,
    wp_ite, wp_pure] at hend ⊢
  refine ⟨fun _ => ⟨fun _ _ => ⟨fun endpoint _ => ⟨fun record hrecord => ⟨fun hphase => ⟨fun hfamily =>
    ⟨fun _ => ⟨fun hzero => ?_, fun hport => ⟨fun hfree => ?_, fun _ => .refl s⟩⟩, fun _ => .refl s⟩, fun _ => .refl s⟩,
    fun _ => .refl s⟩, fun _ _ => .refl s⟩, fun _ _ => .refl s⟩, fun _ _ => .refl s⟩, fun _ => .refl s⟩
  · refine wp_mono (allocateEphemeralPort_spec record.family) ?_ ?_
    · rintro port t ⟨hrange, hunused, rfl⟩
      have hallocate : Step s .silent { s with nextEphemeralPort := nextEphemeral port } :=
        .allocate hrange.1 hrange.2
      exact hend _ port endpoint.scopeId endpoint.address record _ (.step hallocate trivial rfl rfl)
        hrecord hphase hrange.ne_zero hfamily (portInUse_of_unused hunused _) fun _ => ⟨hrange, hunused⟩
    · rintro e t rfl
      exact .refl _
  · exact hend s endpoint.port endpoint.scopeId endpoint.address record _ (.refl s) hrecord hphase hport
      hfamily hfree fun heq => absurd (beq_iff_eq.1 heq) hport

end

/-! ## Listening -/

theorem concreteListenerEndpoint_port {endpoint : ValidatedEndpoint} {listenEndpoint : IpListenEndpoint}
    (h : s.concreteListenerEndpoint endpoint = .ok listenEndpoint) :
    listenEndpoint.port = endpoint.port := by
  unfold concreteListenerEndpoint at h
  split at h
  · split at h
    · obtain rfl := Except.ok.inj h
      rfl
    · cases h
  · obtain rfl := Except.ok.inj h
    rfl

theorem concreteListenerEndpoint_family {endpoint : ValidatedEndpoint}
    {listenEndpoint : IpListenEndpoint} (h : s.concreteListenerEndpoint endpoint = .ok listenEndpoint) :
    ∃ addr, listenEndpoint.addr = some addr ∧
      AddressFamily.of addr = AddressFamily.of endpoint.address := by
  unfold concreteListenerEndpoint at h
  split at h
  · split at h
    · rename_i address rest hfound
      obtain rfl := Except.ok.inj h
      refine ⟨address, rfl, ?_⟩
      have hmem : address ∈ s.familyAddresses (AddressFamily.of endpoint.address) := by
        rw [hfound]
        exact List.mem_cons_self
      simp only [familyAddresses, List.mem_filter, Bool.and_eq_true, AddressFamily.includes,
        beq_iff_eq] at hmem
      exact hmem.2.1.symm
    · cases h
  · rename_i hspecified
    obtain rfl := Except.ok.inj h
    exact ⟨endpoint.address, by simp [ValidatedEndpoint.listenEndpoint, hspecified], rfl⟩

/-- Sockets added beside those there are; each is a closed TCP socket. -/
structure AddsTcp (before : SocketSet) (added : List Nat) (sockets : SocketSet) : Prop where
  nodup : added.Nodup
  fresh : ∀ handle ∈ added, handle ∉ before
  kept : ∀ handle, handle ∉ added → sockets[handle]? = before[handle]?
  closed : ∀ handle ∈ added, ∃ socket, sockets[handle]? = some (.tcp socket) ∧ socket.state = .closed

theorem AddsTcp.nil (sockets : SocketSet) : AddsTcp sockets [] sockets :=
  ⟨List.nodup_nil, by simp, fun _ _ => rfl, by simp⟩

theorem AddsTcp.cons {before sockets : SocketSet} {added : List Nat} {socket : TcpSocket}
    (hclosed : socket.state = .closed) (h : AddsTcp (before.add (.tcp socket)).2 added sockets) :
    AddsTcp before (before.freeHandle :: added) sockets := by
  have hfree : before.freeHandle ∉ added := fun hin => h.fresh _ hin (before.mem_add_self _)
  have hmem : ∀ handle, handle ∈ before → handle ∈ (before.add (.tcp socket)).2 := by
    intro handle hin
    simp [SocketSet.add, hin]
  refine ⟨List.nodup_cons.2 ⟨hfree, h.nodup⟩, ?_, ?_, ?_⟩
  · intro handle hin
    rcases List.mem_cons.1 hin with rfl | hin
    · exact before.freeHandle_not_mem
    · exact fun hbefore => h.fresh handle hin (hmem handle hbefore)
  · intro handle hnot
    rw [List.mem_cons, not_or] at hnot
    rw [h.kept handle hnot.2, SocketSet.getElem?_add, if_neg hnot.1]
  · intro handle hin
    rcases List.mem_cons.1 hin with rfl | hin
    · refine ⟨socket, ?_, hclosed⟩
      rw [h.kept _ hfree, SocketSet.getElem?_add, if_pos rfl]
    · exact h.closed handle hin

theorem addSockets_spec {rcvbuf sndbuf : Nat} (hrcvbuf : validBufferBytes rcvbuf = true)
    (hsndbuf : validBufferBytes sndbuf = true) (count : Nat) :
    wp (addSockets rcvbuf sndbuf count)
      (fun added s' => added.length = count ∧
        ∃ sockets, s' = { s with sockets := sockets } ∧ AddsTcp s.sockets added sockets)
      (fun _ _ => False) s := by
  induction count generalizing s with
  | zero => exact ⟨rfl, s.sockets, rfl, .nil _⟩
  | succ count ih =>
      unfold addSockets
      simp only [wp_bind, wp_ofExcept, wp_get, wp_set, wp_pure]
      refine ⟨fun socket hsocket => ?_, fun e he => ?_⟩
      · obtain rfl : socket = .new rcvbuf sndbuf := by
          simpa [tcpSocket, hrcvbuf, hsndbuf] using hsocket.symm
        refine wp_mono ih ?_ fun _ _ h => h
        rintro added t ⟨hlength, sockets, rfl, hadds⟩
        exact ⟨by simp [hlength], sockets, rfl, hadds.cons rfl⟩
      · simp [tcpSocket, hrcvbuf, hsndbuf] at he

/-- A closed socket that starts to listen. -/
theorem listenMember_spec {endpoint : IpListenEndpoint} (hport : endpoint.port ≠ 0) {handle : Nat}
    (hsocket : ∃ socket, s.sockets[handle]? = some (.tcp socket) ∧ socket.state = .closed) :
    wp (listenMember endpoint handle)
      (fun _ s' => ∃ socket, socket.Listens endpoint ∧
        SocketsChanged s (s.sockets.insert handle (.tcp socket)) s')
      (fun _ _ => False) s := by
  obtain ⟨socket, hsocket, hclosed⟩ := hsocket
  unfold listenMember
  simp only [wp_bind, wp_updateTcp, wp_getTcp, wakeAll_nil]
  refine ⟨socket, hsocket, { socket with timeout := some connectTimeoutMillis }, by simp [putSocket], ?_⟩
  have hlisten : ∃ changed wakes, TcpSocket.listen
      { socket with timeout := some connectTimeoutMillis } endpoint = .ok (changed, wakes) ∧
      changed.Listens endpoint := by
    unfold TcpSocket.listen
    rw [if_neg hport, if_neg (by simp [TcpSocket.isOpen, hclosed])]
    exact ⟨_, _, rfl, ⟨rfl, rfl, rfl⟩, rfl, rfl, rfl⟩
  obtain ⟨changed, wakes, hlisten, hlistens⟩ := hlisten
  rw [hlisten]
  refine ⟨changed, hlistens, wakes, ?_⟩
  dsimp only [putSocket]
  rw [insert_insert_self]

/-- All members of a new pool listen. -/
theorem listenMembers_spec {endpoint : IpListenEndpoint} (hport : endpoint.port ≠ 0)
    {handles : List Nat} (hnodup : handles.Nodup)
    (hclosed : ∀ handle ∈ handles,
      ∃ socket, s.sockets[handle]? = some (.tcp socket) ∧ socket.state = .closed) :
    wp (each (listenMember endpoint) handles)
      (fun _ s' => ∃ sockets, SocketsChanged s sockets s' ∧
        (∀ handle ∈ handles, ∃ socket, sockets[handle]? = some (.tcp socket) ∧ socket.Listens endpoint) ∧
        ∀ handle, handle ∉ handles → sockets[handle]? = s.sockets[handle]?)
      (fun _ _ => False) s := by
  induction handles generalizing s with
  | nil => exact ⟨s.sockets, ⟨[], rfl⟩, by simp, fun _ _ => rfl⟩
  | cons handle rest ih =>
      obtain ⟨hnotin, hnodup⟩ := List.nodup_cons.1 hnodup
      rw [each, wp_bind]
      refine wp_mono (listenMember_spec hport (hclosed handle (by simp))) ?_ fun _ _ h => h
      rintro _ t ⟨socket, hlistens, ht⟩
      have hkept : ∀ other, other ≠ handle → t.sockets[other]? = s.sockets[other]? := by
        intro other hne
        rw [ht.sockets, ExtTreeMap.getElem?_insert]
        simp [hne.symm]
      have hrest : ∀ other ∈ rest,
          ∃ socket, t.sockets[other]? = some (.tcp socket) ∧ socket.state = .closed := by
        intro other hin
        rw [hkept other fun heq => hnotin (heq ▸ hin)]
        exact hclosed other (by simp [hin])
      refine wp_mono (ih hnodup hrest) ?_ fun _ _ h => h
      rintro _ u ⟨sockets, hu, htcp, hsame⟩
      refine ⟨sockets, ht.trans hu, ?_, ?_⟩
      · intro other hin
        rcases List.mem_cons.1 hin with rfl | hin
        · refine ⟨socket, ?_, hlistens⟩
          rw [hsame other hnotin, ht.sockets]
          simp
        · exact htcp other hin
      · intro other hnot
        rw [List.mem_cons, not_or] at hnot
        rw [hsame other hnot.2, hkept other hnot.1]

/-- The record becomes a listener. -/
def becomeListener (s : NativeStack) (record : TcpRecord) (listener : ListenerRecord) : NativeStack :=
  { s.removeTcpRecord record with tcpListeners := s.tcpListeners.insert listener.identity.id listener }

theorem wake_becomeListener (s : NativeStack) (record : TcpRecord) (listener : ListenerRecord)
    (key : ReadyKey) :
    (s.wake key).becomeListener record listener = (s.becomeListener record listener).wake key := by
  unfold wake
  dsimp only [logEvent, becomeListener, removeTcpRecord]
  split <;> rfl

/-- What the sockets of a new pool are, once all members listen. -/
theorem AddsTcp.extends {record : TcpRecord} {added : List Nat} {middle sockets : SocketSet}
    (h : AddsTcp s.sockets added middle) (hrecord : record.handle ∈ s.sockets)
    (htcp : ∀ handle ∈ record.handle :: added, ∃ socket, sockets[handle]? = some (.tcp socket))
    (hsame : ∀ handle, handle ∉ record.handle :: added → sockets[handle]? = middle[handle]?) :
    s.Extends sockets added := by
  refine ⟨h.nodup, h.fresh, fun handle => ?_⟩
  by_cases hin : handle ∈ record.handle :: added
  · obtain ⟨socket, hsocket⟩ := htcp handle hin
    have hleft : handle ∈ sockets := mem_of_getElem? hsocket
    rcases List.mem_cons.1 hin with rfl | hin
    · simp [hleft, hrecord]
    · simp [hleft, hin]
  · have hkept := hsame handle hin
    rw [List.mem_cons, not_or] at hin
    rw [h.kept handle hin.2] at hkept
    rw [ExtTreeMap.mem_iff_isSome_getElem?, hkept, ← ExtTreeMap.mem_iff_isSome_getElem?]
    simp [hin.2]

section

variable (hs : s.Sound) (hin : s.history.inHand = [])
include hs hin

theorem tcpListen_spec (identity : SocketIdentity) (backlog : Nat) (now : Instant) :
    wp (tcpListen identity backlog now) (fun envelope s' => Driven Gentle s [] envelope s')
      (fun _ s' => Fails s s') s := by
  unfold tcpListen
  simp only [wp_bind, wp_ensureRunning, wp_validate, wp_require, wp_get, wp_tcpRecord, wp_orFail,
    wp_ofExcept, wp_ensureNativeSocketCapacity, wp_ensureSocketBufferCapacity, wp_getTcp, wp_modify,
    wp_finishCall]
  refine ⟨fun _ => ⟨fun _ _ => ⟨fun hbacklog => ⟨fun _ => ⟨fun record hok => ⟨fun hphase =>
    ⟨fun localEndpoint hlocal => ⟨fun listenEndpoint hlisten => ⟨fun hnative => ⟨fun hbuffers => ?_,
    fun _ => .refl s⟩, fun _ => .refl s⟩, fun _ _ => .refl s⟩, fun _ => .refl s⟩, fun _ => .refl s⟩,
    fun _ _ => .refl s⟩, fun _ => .refl s⟩, fun _ => .refl s⟩, fun _ _ => .refl s⟩, fun _ => .refl s⟩
  obtain ⟨hrecord, rfl⟩ := tcpRecord?_eq_ok hok
  obtain ⟨-, hvalid⟩ := hs.filed.tcp _ record hrecord
  obtain ⟨socket, hsocket, hclosed⟩ := hs.typed.tcp _ record hrecord
  have hidle : record.phase.idle = true := by rw [hphase]; rfl
  have hport : localEndpoint.port ≠ 0 := by
    obtain ⟨endpoint, hendpoint, hport⟩ := hvalid.bound hphase
    rw [hlocal] at hendpoint
    rwa [Option.some.inj hendpoint]
  have hlistenPort : listenEndpoint.port ≠ 0 := by rwa [concreteListenerEndpoint_port hlisten]
  have hmem : record.handle ∈ s.sockets := mem_of_getElem? hsocket
  refine wp_mono (addSockets_spec hvalid.rcvbuf hvalid.sndbuf _) ?_ fun _ _ h => h.elim
  rintro added t ⟨hlength, middle, rfl, hadds⟩
  have hnew : record.handle ∉ added := fun hin => hadds.fresh _ hin hmem
  have hready : ∀ handle ∈ record.handle :: added,
      ∃ socket, middle[handle]? = some (.tcp socket) ∧ socket.state = .closed := by
    intro handle hhandle
    rcases List.mem_cons.1 hhandle with rfl | hhandle
    · exact ⟨socket, by rw [hadds.kept _ hnew, hsocket], hclosed hidle⟩
    · exact hadds.closed handle hhandle
  refine wp_mono (listenMembers_spec hlistenPort (List.nodup_cons.2 ⟨hnew, hadds.nodup⟩) hready) ?_
    fun _ _ h => h.elim
  rintro _ u ⟨sockets, ⟨keys, hu⟩, htcp, hsame⟩
  obtain ⟨first, hfirst, -⟩ := htcp record.handle (by simp)
  have hmember : u.sockets[record.handle]? = some (.tcp first) := by
    rw [hu, (undisturbed_wakeAll _ keys).sockets]
    exact hfirst
  refine ⟨first, hmember, ?_⟩
  generalize hlistener : ListenerRecord.mk record.identity _ _ _ _ _ _ _ _ _ _ _ = listener
  have hpool : ∀ handle, handle ∈ listener.pool ↔ handle = record.handle ∨ handle ∈ added := by
    intro handle
    rw [← hlistener]
    simp [ExtTreeSet.mem_ofList]
  have hkept : ∀ handle, handle ∈ s.sockets → handle ≠ record.handle →
      sockets[handle]? = s.sockets[handle]? := by
    intro handle hhandle hne
    have hold : handle ∉ added := fun hadded => hadds.fresh handle hadded hhandle
    rw [hsame handle (by simp [hne, hold]), hadds.kept handle hold]
  have hlisten : Step s .silent { (s.removeTcpRecord record).putListener listener with
      sockets := sockets } := by
    have hmembers : ∀ handle ∈ record.handle :: added, ∃ socket, sockets[handle]? = some (.tcp socket) :=
      fun handle hhandle => (htcp handle hhandle).imp fun _ h => h.1
    refine .listen hrecord hphase (hadds.extends hmem hmembers hsame) hkept hpool ?_ ?_ ?_ ?_ ?_ ?_ ?_ ?_
      ?_ ?_ ?_ ?_ (hlength ▸ hnative) (hlength ▸ hbuffers)
    · intro handle hhandle
      rw [← hlistener]
      exact htcp handle (by simpa using (hpool handle).1 hhandle)
    all_goals rw [← hlistener]
    · exact hlocal
    · exact concreteListenerEndpoint_port hlisten
    · exact concreteListenerEndpoint_family hlisten
    · exact hbacklog.1
    · have hpositive : 1 ≤ min backlog listenerPoolMax := le_min hbacklog.1 (by decide)
      dsimp only
      omega
  -- The wakers that fired in the loop fire as well after the record has become a listener.
  have hstate : u.becomeListener record listener =
      { (s.removeTcpRecord record).putListener listener with sockets := sockets }.wakeAll keys := by
    rw [hu, wakeAll_comm (f := fun t => t.becomeListener record listener)
      (fun t key => t.wake_becomeListener record listener key)]
    rfl
  have hbecome : Prepares Gentle s [] (u.becomeListener record listener) := by
    rw [hstate]
    exact (Prepares.step hlisten trivial rfl rfl).andThen
      (Maintains.prepares (.wakeAll _ keys) (hs.step hlisten))
  have hscan := hbecome.andThen (Maintains.prepares (.requestListenerScan _) (hbecome.sound hs))
  have hidentity : listener.identity.id = record.identity.id := by rw [← hlistener]
  rw [becomeListener, hidentity] at hscan
  exact hscan.drives hs hin (fun _ _ h => h) now 0 .ok

end

/-! ## Accepting -/

/-- The first connection of a listener's queue, if it has one. -/
theorem popAccepted_spec (hs : s.Sound) (identity : SocketIdentity) {E : ε → NativeStack → Prop} :
    wp (popAccepted identity : Op ε (Option SocketIdentity))
      (fun popped s' => Prepares Gentle s [] s' ∧
        match popped with
        | none => s' = s ∧
            ∀ listener, s.tcpListeners[identity.id]? = some listener → listener.accepted = []
        | some child => child ∈ queued s.tcpListeners ∧ s'.tcpRecords = s.tcpRecords ∧
            ∀ id, id ∈ s'.tcpListeners ↔ id ∈ s.tcpListeners) E s := by
  unfold popAccepted
  rw [wp_bind, wp_get]
  split
  · rename_i hnone
    exact ⟨.refl s, rfl, fun listener hlistener => by rw [hnone] at hlistener; cases hlistener⟩
  · rename_i listener hlistener
    split
    · rename_i hempty
      refine ⟨.refl s, rfl, fun other hother => ?_⟩
      rw [hlistener] at hother
      obtain rfl := Option.some.inj hother
      exact hempty
    · rename_i child rest haccepted
      obtain ⟨hid, -⟩ := hs.filed.listener _ listener hlistener
      have hmember := hlistener
      rw [← hid] at hlistener
      have hstep := Step.accept hlistener haccepted
      rw [putListener, show ({ listener with accepted := rest } : ListenerRecord).identity.id =
        identity.id from hid] at hstep
      refine ⟨.step hstep trivial rfl rfl, ?_, rfl, fun id => ?_⟩
      · rw [queued_eq hmember, haccepted]
        simp
      · exact mem_insert_same (mem_of_getElem? hmember) id

theorem armListenerWaiter_spec (hs : s.Sound) (hwait : s.MayWait identity) (pid reference : Nat) :
    wp (armListenerWaiter identity pid reference) (fun _ s' => Prepares Gentle s [] s')
      (fun _ s' => s' = s ∧
        ¬ ((s.listener? identity).isSome = true ∧ s.Armable identity .tcp .read)) s := by
  unfold armListenerWaiter
  simp only [wp_bind, wp_get, wp_orFail]
  refine ⟨fun listener hfound => ?_, fun hnone => ⟨trivial, fun h => by simp [hnone] at h⟩⟩
  obtain ⟨hlistener, -⟩ := listener?_eq_some.1 hfound
  refine wp_mono (installWaiter_spec hwait rfl) (fun _ t ht => ?_)
    fun _ _ h => ⟨h.1, fun harmable => h.2 harmable.2⟩
  obtain ⟨ht, hkept⟩ := ht
  have hloop : wp (each (fun handle => updateTcp handle fun socket =>
      (socket.registerWaker .read ⟨identity, .read⟩, [])) listener.pool.toList : Op SocketError Unit)
      (fun _ u => Prepares Gentle s [] u ∧ u.tcpListeners = s.tcpListeners)
      (fun _ _ => False) t := by
    refine wp_each (I := fun u => Prepares Gentle s [] u ∧ u.tcpListeners = s.tcpListeners)
      (fun handle hhandle u hu => ?_) ⟨ht, hkept.tcpListeners⟩
    have hu' := hu.1.sound hs
    have hsocket := hu'.typed.listener identity.id listener (by rw [hu.2]; exact hlistener) handle
      (ExtTreeSet.mem_toList.1 hhandle)
    refine wp_mono (updateTcp_spec hu' hsocket (registerWaker_evolves · .read _) fun socket =>
      .keeps (registerWaker_sameConnection socket .read _)) ?_ fun _ _ h => h
    rintro _ v ⟨hv, hsame, -⟩
    exact ⟨hu.1.andThen hv, hsame.tcpListeners.trans hu.2⟩
  refine wp_mono hloop (fun _ u hu => ?_) fun _ _ h => h.elim
  rw [wp_ite]
  refine ⟨fun _ => hu.1.andThen ?_, fun _ => hu.1⟩
  exact Maintains.prepares (.wakeAll u [⟨identity, .read⟩]) (hu.1.sound hs)

/-- An open socket with an empty slot finds room for its waiter. -/
def WaiterRoom (s : NativeStack) : Prop :=
  ∀ (identity : SocketIdentity) (kind : SocketKind) (entry : SocketEntry) (direction : Direction),
    s.socketTable.validate identity kind = .ok entry → entry.waiter direction = none →
      s.socketTable.waiterCount < s.socketTable.maxWaiters

theorem WaiterRoom.armable (h : s.WaiterRoom) {kind : SocketKind} {entry : SocketEntry}
    {direction : Direction} (hvalid : s.socketTable.validate identity kind = .ok entry)
    (hempty : entry.waiter direction = none) : s.Armable identity kind direction :=
  ⟨entry, hvalid, hempty, h identity kind entry direction hvalid hempty⟩

theorem Sound.id_lt (hs : s.Sound) {kind : SocketKind} {entry : SocketEntry}
    (h : s.socketTable.validate identity kind = .ok entry) : identity.id < s.nextSocketId := by
  by_contra hle
  have hroster := SocketTable.validate_iff_roster.1 ⟨entry, h⟩
  rw [(hs.rostered.fresh _ (Nat.le_of_not_lt hle)).2.2.2.1] at hroster
  cases hroster

/-- A drive does not touch the slots there are. -/
theorem DriveKeeps.armable {t : NativeStack} (h : DriveKeeps s t) (hs : s.Sound) {kind : SocketKind}
    {direction : Direction} (harmable : s.Armable identity kind direction) :
    t.Armable identity kind direction := by
  obtain ⟨entry, hvalid, hempty, hroom⟩ := harmable
  refine ⟨entry, ?_, hempty, ?_⟩
  · rw [SocketTable.validate_eq_ok] at hvalid ⊢
    rw [h.lookup (hs.id_lt (SocketTable.validate_eq_ok.2 hvalid))]
    exact hvalid
  · rw [h.waiterCount, h.maxWaiters]
    exact hroom

/-- Whether there is a listener of an identity is not changed by a drive. -/
theorem DriveKeeps.listener {t : NativeStack} (h : DriveKeeps s t) (hs : s.Sound) (ht : t.Sound)
    (hlistener : (s.listener? identity).isSome = true)
    (hvalid : ∃ entry, s.socketTable.validate identity .tcp = .ok entry) :
    (t.listener? identity).isSome = true := by
  obtain ⟨listener, hfound⟩ := Option.isSome_iff_exists.1 hlistener
  obtain ⟨hmember, rfl⟩ := listener?_eq_some.1 hfound
  have hmem := (h.listeners _).2 (mem_of_getElem? hmember)
  obtain ⟨entry, hvalid⟩ := hvalid
  have hroster := SocketTable.validate_iff_roster.1 ⟨entry, hvalid⟩
  rw [← h.roster (hs.id_lt hvalid)] at hroster
  rcases (ht.rostered.entry _ _ _ _ hroster).2 with ⟨record, hrecord, -⟩ | ⟨other, hother, hidentity⟩
  · exact ((ht.rostered.tcp_apart _ (mem_of_getElem? hrecord)).1 hmem).elim
  · exact Option.isSome_iff_exists.2 ⟨other, listener?_eq_some.2 ⟨hother, hidentity⟩⟩

theorem tcpAccept_spec (hs : s.Sound) (hin : s.history.inHand = []) (hroom : s.WaiterRoom)
    (identity : SocketIdentity) (pid reference : Nat) :
    wp (tcpAccept identity pid reference) (fun envelope s' => Undriven s envelope s')
      (fun _ s' => Prepares Gentle s [] s' ∧ (s.QueuesOpen → Unaffected s s')) s := by
  -- The end of the call, whatever it has found.
  have hend : ∀ (t : NativeStack) (result : Reply) (work : Nat) (more : Bool),
      Prepares Gentle s [] t →
      Undriven s
        (finish result ⟨[], (t.world.pollAts.headD none).map totalMillis, false || more, work⟩ []
          { t with world := { t.world with pollAts := t.world.pollAts.tail } }).1
        (finish result ⟨[], (t.world.pollAts.headD none).map totalMillis, false || more, work⟩ []
          { t with world := { t.world with pollAts := t.world.pollAts.tail } }).2 := by
    intro t result work more ht
    refine Prepares.undriven (ht.andThen ?_) hin result rfl
    exact Maintains.prepares (.tick rfl le_rfl (.of_polls rfl rfl)) (ht.sound hs)
  have hrefl : Prepares Gentle s [] s ∧ (s.QueuesOpen → Unaffected s s) := ⟨.refl s, fun _ => .refl s⟩
  unfold tcpAccept
  simp only [wp_bind, wp_ensureRunning, wp_validate, wp_get, wp_ite, wp_fail, wp_require, wp_modify]
  refine ⟨fun _ => ⟨fun entry hvalid => ⟨fun _ => ⟨fun _ => hrefl, fun _ => hrefl⟩, fun hlistener =>
    ⟨fun hempty => ?_, fun _ => hrefl⟩⟩, fun _ _ => hrefl⟩, fun _ => hrefl⟩
  have hlistener : (s.listener? identity).isSome = true :=
    Option.isSome_iff_ne_none.2 (by simpa using hlistener)
  have hrequest : Maintains s s.requestListenerScan := .requestListenerScan s
  refine wp_mono (refreshListeners_spec (hrequest.sound hs) _) (fun scan t ht => ?_) fun _ _ h => h
  have hscanned := hrequest.trans ht
  have hkeeps := hscanned.path.keeps hs
  have hscan := hscanned.prepares hs
  have hsound := hscan.sound hs
  refine wp_mono (popAccepted_spec hsound identity) (fun popped u hu => ?_) fun _ _ h => h
  have hpopped := hscan.andThen hu.1
  cases popped with
  | some child =>
      obtain ⟨hqueued, hrecords, hlisteners⟩ := hu.2
      simp only [wp_bind, wp_tcpRecord, wp_get, wp_pure]
      refine ⟨fun record hok => ?_, fun e he => ⟨hpopped, fun hqueues => ?_⟩⟩
      · have hu' := hpopped.sound hs
        obtain ⟨socket, hsocket, -⟩ := hu'.typed.tcp _ record (tcpRecord?_eq_ok hok).1
        refine wp_mono (updateTcp_spec hu' ⟨socket, hsocket⟩ ?_ ?_) (fun _ v hv => ?_) fun _ _ h => h
        · exact fun socket => ⟨rfl, rfl, id⟩
        · exact fun socket => .keeps ⟨⟨rfl, rfl, rfl, rfl⟩, rfl, fun _ => rfl⟩
        · exact hend v _ _ _ (hpopped.andThen hv.1)
      · -- A queued connection that is open has its record.
        obtain ⟨-, record, hrecord, hidentity⟩ :=
          hscanned.path.queuedOpen hs (hqueues child) hqueued
        have hapart : child.id ∉ u.tcpListeners := by
          rw [hlisteners]
          exact (hsound.queues.child child hqueued).2.1
        rw [← hrecords] at hrecord
        rw [tcpRecord?_of_record hapart hrecord hidentity] at he
        cases he
  | none =>
      obtain ⟨rfl, hqueue⟩ := hu.2
      obtain ⟨listener, hfound⟩ := Option.isSome_iff_exists.1
        (hkeeps.listener hs hsound hlistener ⟨entry, hvalid⟩)
      have hmember := (listener?_eq_some.1 hfound).1
      have hwait : u.MayWait identity := by
        refine ⟨fun record hrecord => ?_, hqueue⟩
        exact ((hsound.rostered.tcp_apart _ (mem_of_getElem? hrecord)).1 (mem_of_getElem? hmember)).elim
      simp only [wp_bind, wp_pure]
      refine wp_mono (armListenerWaiter_spec hsound hwait pid reference)
        (fun _ v hv => hend v _ _ _ (hpopped.andThen hv)) fun e v hv => ?_
      have harmable := hkeeps.armable hs (hroom.armable hvalid hempty)
      exact (hv.2 ⟨by rw [hfound]; rfl, harmable⟩).elim

/-! ## Connecting -/

theorem evolves_timeout (socket : TcpSocket) (timeout : Option Nat) :
    (NativeSocket.tcp socket).Evolves (.tcp { socket with timeout := timeout }) := ⟨rfl, rfl, id⟩

/-- What a failed connect leaves: nothing changed, or the timeout of a native socket, or, for a retry
that finds its socket closed, the phase. -/
inductive ConnectFailed (s s' : NativeStack) : Prop
  | unaffected (h : Unaffected s s')
  | timed {handle : Nat} {socket : TcpSocket} (timeout : Option Nat)
      (hsocket : s.sockets[handle]? = some (.tcp socket))
      (h : Unaffected
        { s with sockets := s.sockets.insert handle (.tcp { socket with timeout := timeout }) } s')
  | latched {record : TcpRecord} {socket : TcpSocket}
      (hrecord : s.tcpRecords[record.identity.id]? = some record) (hphase : record.phase = .connecting)
      (hsocket : s.sockets[record.handle]? = some (.tcp socket)) (hclosed : socket.state = .closed)
      (h : Unaffected (s.putRecord { record with phase := .failed .timedOut }) s')

theorem Sound.mayWait (hs : s.Sound) {record : TcpRecord} (hok : s.tcpRecord? identity = .ok record)
    (hidle : record.phase.idle = false) : s.MayWait identity := by
  obtain ⟨hrecord, -⟩ := tcpRecord?_eq_ok hok
  refine ⟨fun other hother => ?_, fun listener hlistener => ?_⟩
  · rw [hrecord] at hother
    obtain rfl := Option.some.inj hother
    exact hidle
  · exact ((hs.rostered.tcp_apart _ (mem_of_getElem? hrecord)).1 (mem_of_getElem? hlistener)).elim

theorem finalizeOrArmConnect_spec (hs : s.Sound) (hin : s.history.inHand = []) {record : TcpRecord}
    (hok : s.tcpRecord? identity = .ok record) (hphase : record.phase = .connecting) (pid reference : Nat)
    (now : Instant) :
    wp (finalizeOrArmConnect identity pid reference now)
      (fun envelope s' => Undriven s envelope s' ∨ Driven Gentle s [] envelope s')
      (fun _ s' => Prepares Gentle s [] s' ∧ ConnectFailed s s') s := by
  have hidle : record.phase.idle = false := by rw [hphase]; rfl
  obtain ⟨hrecord, -⟩ := tcpRecord?_eq_ok hok
  obtain ⟨socket, hsocket, -⟩ := hs.typed.tcp _ record hrecord
  unfold finalizeOrArmConnect
  rw [wp_bind, wp_tcpRecord, hok]
  refine ⟨fun other hother => ?_, fun e he => by cases he⟩
  obtain rfl := Except.ok.inj hother
  rw [wp_bind, wp_getTcp]
  refine ⟨socket, hsocket, ?_⟩
  have harm : wp (do
      armConnect identity record.handle pid reference
      let effects ← drive now 0
      finishCall (.select .connect reference) effects [])
      (fun envelope s' => Undriven s envelope s' ∨ Driven Gentle s [] envelope s')
      (fun _ s' => Prepares Gentle s [] s' ∧ ConnectFailed s s') s := by
    rw [wp_bind]
    refine wp_mono (armTcpWaiter_spec hs (hs.mayWait hok hidle) rfl ⟨socket, hsocket⟩)
      (fun _ t ht => ?_) fun _ t ht => ⟨.of_eq ht.1, .unaffected (ht.1 ▸ .refl s)⟩
    rw [wp_bind]
    exact wp_mono (ht.1.drives hs hin (fun _ _ h => h) now 0 _) (fun _ _ h => .inr h) fun _ _ h => h
  split
  · rename_i hestablished
    simp only [wp_bind, wp_get]
    refine wp_mono (updateTcp_spec hs ⟨socket, hsocket⟩ (evolves_timeout · _) fun socket =>
      .keeps ⟨⟨rfl, rfl, rfl, rfl⟩, rfl, fun _ => rfl⟩) ?_ fun _ _ h => h
    rintro _ t ⟨ht, hsame, -, found, hfound, hchanged⟩
    have hok' : t.tcpRecord? identity = .ok record := (hsame.record identity).trans hok
    rw [hsocket] at hfound
    cases hfound
    simp only [wp_updateTcpRecord, currentEffects, interfacePollAt, wp_bind, wp_get, wp_set, wp_pure,
      wp_finishCall, hok']
    refine ⟨fun other hother => .inl ?_, fun e he => by cases he⟩
    obtain rfl := Except.ok.inj hother
    have hamend := Prepares.amend hok' (amends_phase record .connected rfl) rfl
      (.connected hphase hchanged hestablished rfl)
    have hamended := ht.andThen hamend
    refine Prepares.undriven (hamended.andThen ?_) hin _ rfl
    exact Maintains.prepares (.tick rfl le_rfl (.of_polls rfl rfl)) (hamended.sound hs)
  · exact harm
  · exact harm
  · rename_i hclosed
    simp only [wp_bind, wp_updateTcpRecord, wp_fail, hok]
    refine ⟨fun other hother => ?_, fun e he => by cases he⟩
    obtain rfl := Except.ok.inj hother
    refine ⟨Prepares.amend hok (amends_phase record _ rfl) rfl (.timedOut hphase hsocket hclosed ?_), ?_⟩
    · rw [hphase]
    obtain ⟨-, rfl⟩ := tcpRecord?_eq_ok hok
    refine .latched hrecord hphase hsocket hclosed ?_
    rw [hphase]
    exact .refl _
  · exact ⟨.refl s, .unaffected (.refl s)⟩

/-- What a connecting socket is. -/
structure StartsConnect (socket changed : TcpSocket) (localListen : IpListenEndpoint)
    (selected remote : IpEndpoint) : Prop where
  shape : (NativeSocket.tcp socket).SameShape (.tcp changed)
  state : changed.state = .synSent
  tuple : changed.tuple = some (selected, remote)
  listenEndpoint : changed.listenEndpoint = TcpSocket.unbound
  unended : changed.Unended
  port : selected.port = localListen.port
  family : AddressFamily.of selected.addr = AddressFamily.of remote.addr

theorem connect_ok {socket changed : TcpSocket} {sourceAddress : IpAddress → Option IpAddress}
    {remote : IpEndpoint} {localListen : IpListenEndpoint} {wakes : List ReadyKey}
    (h : socket.connect sourceAddress remote localListen = .ok (changed, wakes)) :
    ∃ selected, changed.localEndpoint = some selected ∧
      StartsConnect socket changed localListen selected remote := by
  unfold TcpSocket.connect at h
  split at h
  · cases h
  · split at h
    · cases h
    · split at h
      · cases h
      · split at h
        · cases h
        · split at h
          · rename_i addr _ hfamily
            simp only [Except.ok.injEq, Prod.mk.injEq] at h
            obtain ⟨rfl, -⟩ := h
            exact ⟨_, rfl, ⟨rfl, rfl⟩, rfl, rfl, rfl, ⟨rfl, rfl, rfl⟩, rfl, hfamily⟩
          · cases h

/-- The native side of a connect changes one socket; where it fails, only its timeout. -/
theorem connectSocket_spec (hs : s.Sound) {handle : Nat} {socket : TcpSocket}
    (hsocket : s.sockets[handle]? = some (.tcp socket)) (remote : IpEndpoint)
    (localListen : IpListenEndpoint) :
    wp (connectSocket handle remote localListen)
      (fun selected s' => ∃ changed, StartsConnect socket changed localListen selected remote ∧
        SocketsChanged s (s.sockets.insert handle (.tcp changed)) s')
      (fun _ s' => Prepares Gentle s [] s' ∧ s' =
        { s with
          sockets := s.sockets.insert handle
            (.tcp { socket with timeout := some connectTimeoutMillis }) }) s := by
  have hreshapes : s.Reshapes (s.sockets.insert handle
      (.tcp { socket with timeout := some connectTimeoutMillis })) :=
    hs.reshapes_closed hsocket ⟨rfl, rfl⟩ id
  have hkeeps : socket.SameConnection { socket with timeout := some connectTimeoutMillis } :=
    ⟨⟨rfl, rfl, rfl, rfl⟩, rfl, fun _ => rfl⟩
  have htimed := (Maintains.put hsocket hreshapes (.keeps hkeeps) []).prepares hs
  unfold connectSocket
  simp only [wp_bind, wp_updateTcp, wp_getTcp, wp_get, wakeAll_nil]
  refine ⟨socket, hsocket, { socket with timeout := some connectTimeoutMillis }, by simp [putSocket], ?_⟩
  split
  · exact ⟨htimed, rfl⟩
  · exact ⟨htimed, rfl⟩
  · rename_i changed wakes hconnect
    obtain ⟨selected, hselected, hstarts⟩ := connect_ok hconnect
    simp only [wp_bind, wp_modify, wp_orPanic]
    refine ⟨selected, hselected, changed, ⟨hstarts.shape, hstarts.state, hstarts.tuple,
      hstarts.listenEndpoint, hstarts.unended, hstarts.port, hstarts.family⟩, wakes, ?_⟩
    dsimp only [putSocket]
    rw [insert_insert_self]

/-- The record side of a connect. -/
def recordConnect (s : NativeStack) (record : TcpRecord) (selected : IpEndpoint)
    (remote : ValidatedEndpoint) : NativeStack :=
  { s with
    tcpRecords := s.tcpRecords.insert record.identity.id
      { record with
        phase := .connecting
        localEndpoint := some selected
        remote := some remote.ipEndpoint
        remoteScopeId := remote.scopeId }
    tcpConnections := s.tcpConnections.insert (.ofEndpoints selected remote.ipEndpoint)
      record.identity
    history := ((s.logTuple record.identity (.ofEndpoints selected remote.ipEndpoint)).logPort
      record.localEndpoint.isNone
      ⟨.tcp, record.identity, selected.port, s.usedTcpPorts record.family⟩).history }

theorem wake_recordConnect (s : NativeStack) (record : TcpRecord) (selected : IpEndpoint)
    (remote : ValidatedEndpoint) (key : ReadyKey) :
    (s.wake key).recordConnect record selected remote =
      (s.recordConnect record selected remote).wake key := by
  unfold wake
  dsimp only [logEvent, recordConnect, logTuple, logPort, usedTcpPorts]
  split <;> rfl

/-- The local endpoint a connect selects for a record: on the port it is bound to, or on one that no
socket of the family has. -/
structure Selects (s : NativeStack) (record : TcpRecord) (selected : IpEndpoint) : Prop where
  family : record.family.includes selected.addr = true
  free : s.portInUse selected.port record.family (some record.identity) = false
  bound : ∀ bound, record.localEndpoint = some bound → selected.port = bound.port
  unused : record.localEndpoint = none →
    Ephemeral selected.port ∧ selected.port ∉ s.usedTcpPorts record.family

/-- Both sides of a connect are one step, with the wakers that have fired. -/
theorem SocketsChanged.connects (hs : s.Sound) {t : NativeStack} {record : TcpRecord}
    {socket changed : TcpSocket} {localListen : IpListenEndpoint} {selected : IpEndpoint}
    {remote : ValidatedEndpoint} (hrecord : s.tcpRecords[record.identity.id]? = some record)
    (hidle : record.phase.idle = true) (hsocket : s.sockets[record.handle]? = some (.tcp socket))
    (hstarts : StartsConnect socket changed localListen selected remote.ipEndpoint)
    (hselects : s.Selects record selected)
    (ht : SocketsChanged s (s.sockets.insert record.handle (.tcp changed)) t)
    {ok : NativeStack → StepLabel → Prop} (hok : ∀ v label, Gentle v label → ok v label)
    (hconnect : ok s (.connects record.identity selected remote.ipEndpoint)) :
    Prepares ok s [] (t.recordConnect record selected remote) := by
  obtain ⟨keys, rfl⟩ := ht
  rw [wakeAll_comm (f := fun t => t.recordConnect record selected remote)
    (fun t key => t.wake_recordConnect record selected remote key)]
  have hstep : Step s (.connects record.identity selected remote.ipEndpoint)
      ({ s with sockets := s.sockets.insert record.handle (.tcp changed) }.recordConnect record selected
        remote) :=
    .connect remote.scopeId hrecord hidle hsocket hstarts.shape hstarts.state hstarts.tuple
      hstarts.listenEndpoint hstarts.unended hselects.family hselects.free hselects.bound
      hselects.unused
  exact (Prepares.step hstep hconnect rfl rfl).andThen
    ((Maintains.prepares (.wakeAll _ keys) (hs.step hstep)).mono hok)

theorem SocketsChanged.record {s t : NativeStack} {sockets : SocketSet}
    (h : SocketsChanged s sockets t) (identity : SocketIdentity) :
    t.tcpRecord? identity = s.tcpRecord? identity := by
  obtain ⟨keys, rfl⟩ := h
  have hkept := undisturbed_wakeAll { s with sockets := sockets } keys
  unfold tcpRecord? listener?
  rw [hkept.tcpRecords, hkept.tcpListeners]

theorem SocketsChanged.slots {s t : NativeStack} {sockets : SocketSet}
    (h : SocketsChanged s sockets t) : SameSlots s t := by
  obtain ⟨keys, rfl⟩ := h
  have h := sameSlots_wakeAll { s with sockets := sockets } keys
  exact ⟨h.entries, h.waiterCount, h.maxWaiters⟩

/-- A connect from an idle record, once its local endpoint is known. -/
theorem connectFrom_spec (hs : s.Sound) (hin : s.history.inHand = []) {t : NativeStack}
    (ht : Prepares Gentle s [] t) (hunaffected : Unaffected s t) {record : TcpRecord}
    (hok : t.tcpRecord? record.identity = .ok record) (hidle : record.phase.idle = true)
    (harmable : t.Armable record.identity .tcp .write)
    {localListen : IpListenEndpoint} {remote : ValidatedEndpoint}
    (hfamily : record.family.includes remote.address = true)
    (hselects : ∀ selected : IpEndpoint, record.family.includes selected.addr = true →
      selected.port = localListen.port → t.Selects record selected)
    {ok : NativeStack → StepLabel → Prop} (hgentle : ∀ v label, Gentle v label → ok v label)
    (hconnect : ∀ selected, t.Selects record selected →
      ok t (.connects record.identity selected remote.ipEndpoint))
    (pid reference : Nat) (now : Instant) :
    wp (do
      let selected ← connectSocket record.handle remote.ipEndpoint localListen
      modify fun s =>
        (s.logTuple record.identity (.ofEndpoints selected remote.ipEndpoint)).logPort
          record.localEndpoint.isNone
          ⟨.tcp, record.identity, selected.port, s.usedTcpPorts record.family⟩
      updateTcpRecord record.identity fun record =>
        { record with
          phase := .connecting
          localEndpoint := some selected
          remote := some remote.ipEndpoint
          remoteScopeId := remote.scopeId }
      modify fun s =>
        { s with
          tcpConnections :=
            s.tcpConnections.insert (.ofEndpoints selected remote.ipEndpoint) record.identity }
      armConnect record.identity record.handle pid reference
      let effects ← drive now 0
      finishCall (.select .connect reference) effects [])
      (fun envelope s' => Driven ok s [] envelope s')
      (fun _ s' => Prepares Gentle s [] s' ∧ ConnectFailed s s') t := by
  have hst := ht.sound hs
  obtain ⟨hrecord, -⟩ := tcpRecord?_eq_ok hok
  obtain ⟨socket, hsocket, -⟩ := hst.typed.tcp _ record hrecord
  rw [wp_bind]
  refine wp_mono (connectSocket_spec hst hsocket _ _) (fun selected u hu => ?_) fun _ u hu => ?_
  · obtain ⟨changed, hstarts, hu⟩ := hu
    have hof : record.family.includes selected.addr = true := by
      simp only [AddressFamily.includes, beq_iff_eq] at hfamily ⊢
      rw [hfamily, hstarts.family]
      rfl
    have hselected := hselects selected hof hstarts.port
    rw [wp_bind, wp_modify, wp_bind, wp_updateTcpRecord]
    rw [tcpRecord?_logPort, tcpRecord?_logTuple, (hu.record record.identity).trans hok]
    refine ⟨fun other hother => ?_, fun e he => by cases he⟩
    obtain rfl := Except.ok.inj hother
    have hconnected := (ht.mono hgentle).andThen (hu.connects hst hrecord hidle hsocket hstarts
      hselected hgentle (hconnect selected hselected))
    rw [wp_bind, wp_modify, wp_bind]
    -- What the record is from here on.
    generalize hafter : u.recordConnect record selected remote = v at hconnected
    have hv : v.tcpRecords[record.identity.id]? = some { record with
        phase := .connecting
        localEndpoint := some selected
        remote := some remote.ipEndpoint
        remoteScopeId := remote.scopeId } := by
      rw [← hafter]
      simp [recordConnect]
    have hvsocket : ∃ socket, v.sockets[record.handle]? = some (.tcp socket) := by
      refine ⟨changed, ?_⟩
      rw [← hafter]
      dsimp only [recordConnect]
      rw [hu.sockets]
      simp
    have hvarmable : v.Armable record.identity .tcp .write := by
      rw [← hafter]
      exact harmable.sameSlots ⟨hu.slots.entries, hu.slots.waiterCount, hu.slots.maxWaiters⟩
    have hsound := hconnected.sound hs
    have hvlisteners := (hsound.rostered.tcp_apart _ (mem_of_getElem? hv)).1
    have hwait := hsound.mayWait (tcpRecord?_of_record hvlisteners hv rfl) rfl
    show wp (armConnect record.identity record.handle pid reference) _ _ (u.recordConnect record selected remote)
    rw [hafter]
    refine wp_mono (armTcpWaiter_spec hsound hwait rfl hvsocket) (fun _ w hw => ?_)
      fun _ _ h => (h.2 hvarmable).elim
    have harmed := hconnected.andThen (hw.1.mono hgentle)
    rw [wp_bind]
    exact harmed.drives hs hin hgentle now 0 _
  · refine ⟨ht.andThen hu.1, ?_⟩
    rw [hunaffected.sockets] at hsocket
    refine .timed (some connectTimeoutMillis) hsocket ?_
    rw [hu.2]
    exact ⟨hunaffected.socketTable, by rw [hunaffected.sockets], hunaffected.tcpRecords,
      hunaffected.tcpListeners, hunaffected.tcpConnections, hunaffected.udpRecords,
      hunaffected.closingTcp, hunaffected.closingDeadlines, hunaffected.device, hunaffected.ready,
      hunaffected.pendingNotifications⟩

/-- A socket that has not begun to connect has no waiter. -/
def IdleQuiet (s : NativeStack) : Prop :=
  ∀ (id : Nat) (record : TcpRecord) (entry : SocketEntry) (direction : Direction),
    s.tcpRecords[id]? = some record → record.phase.idle = true →
      s.socketTable.lookup record.identity = some entry → entry.waiter direction = none

section

variable (hs : s.Sound) (hin : s.history.inHand = []) (hroom : s.WaiterRoom) (hquiet : s.IdleQuiet)
  {ok : NativeStack → StepLabel → Prop} (hgentle : ∀ v label, Gentle v label → ok v label)
include hs hin hroom hquiet hgentle

theorem startConnect_spec {record : TcpRecord} {entry : SocketEntry}
    (hvalid : s.socketTable.validate record.identity .tcp = .ok entry)
    (hok : s.tcpRecord? record.identity = .ok record) (hidle : record.phase.idle = true)
    {remote : ValidatedEndpoint} (hfamily : record.family.includes remote.address = true)
    (hconnect : ∀ (t : NativeStack) (selected : IpEndpoint), Unaffected s t → s.Selects record selected →
      ok t (.connects record.identity selected remote.ipEndpoint))
    (pid reference : Nat) (now : Instant) :
    wp (startConnect record.identity record remote pid reference now)
      (fun envelope s' => Driven ok s [] envelope s')
      (fun _ s' => Prepares Gentle s [] s' ∧ ConnectFailed s s') s := by
  have hfail : Prepares Gentle s [] s ∧ ConnectFailed s s := ⟨.refl s, .unaffected (.refl s)⟩
  obtain ⟨hrecord, -⟩ := tcpRecord?_eq_ok hok
  have hempty := hquiet _ record entry .write hrecord hidle (SocketTable.validate_eq_ok.1 hvalid).1
  have harmable := hroom.armable hvalid hempty
  unfold startConnect
  rw [wp_bind, wp_get, wp_bind, wp_require]
  refine ⟨fun _ => ?_, fun _ => hfail⟩
  cases hlocal : record.localEndpoint with
  | some bound =>
      rw [wp_bind, wp_pure, wp_bind, wp_require]
      refine ⟨fun hfree => ?_, fun _ => hfail⟩
      have hselects : ∀ selected : IpEndpoint, record.family.includes selected.addr = true →
          selected.port = (ValidatedEndpoint.listenEndpoint
            ⟨bound.addr, bound.port, record.localScopeId⟩).port → s.Selects record selected := by
        intro selected hof hport
        change selected.port = bound.port at hport
        refine ⟨hof, hport ▸ hfree, fun other hother => ?_, fun hnone => ?_⟩
        · rw [hport, Option.some.inj (hlocal.symm.trans hother)]
        · exact nomatch hlocal.symm.trans hnone
      have hfrom := connectFrom_spec hs hin (.refl s) (.refl s) hok hidle harmable hfamily
        hselects hgentle (fun selected hselected => hconnect s selected (.refl s) hselected) pid reference now
      rw [hlocal] at hfrom
      exact hfrom
  | none =>
      dsimp only
      rw [wp_bind]
      refine wp_mono (allocateEphemeralPort_spec record.family) ?_ ?_
      · rintro port t ⟨hrange, hunused, rfl⟩
        have hallocate : Prepares Gentle s [] { s with nextEphemeralPort := nextEphemeral port } :=
          .step (.allocate hrange.1 hrange.2) trivial rfl rfl
        have hkept : Unaffected s { s with nextEphemeralPort := nextEphemeral port } :=
          ⟨rfl, rfl, rfl, rfl, rfl, rfl, rfl, rfl, rfl, rfl, rfl⟩
        rw [wp_bind, wp_pure, wp_bind, wp_require]
        refine ⟨fun hfree => ?_, fun _ => ⟨hallocate, .unaffected hkept⟩⟩
        have hselects : ∀ selected : IpEndpoint, record.family.includes selected.addr = true →
            selected.port = (ValidatedEndpoint.listenEndpoint
              ⟨record.family.unspecified, port, record.localScopeId⟩).port →
            Selects { s with nextEphemeralPort := nextEphemeral port } record selected := by
          intro selected hof hport
          change selected.port = port at hport
          refine ⟨hof, hport ▸ hfree, fun other hother => ?_, fun _ => ?_⟩
          · exact nomatch hlocal.symm.trans hother
          · rw [hport]
            exact ⟨hrange, hunused⟩
        have hfrom := connectFrom_spec hs hin hallocate hkept hok hidle harmable hfamily hselects hgentle
          (fun selected hselected => hconnect _ selected hkept
            ⟨hselected.family, hselected.free, hselected.bound, hselected.unused⟩) pid reference now
        rw [hlocal] at hfrom
        exact hfrom
      · rintro e t rfl
        exact ⟨.refl _, .unaffected (.refl _)⟩

theorem tcpConnect_spec (identity : SocketIdentity) (endpoint : TcpEndpoint)
    (hconnect : ∀ (t : NativeStack) (record : TcpRecord) (remote : ValidatedEndpoint)
      (selected : IpEndpoint), Unaffected s t → s.tcpRecord? identity = .ok record →
      endpoint.remoteEndpoint = .ok remote → s.Selects record selected →
      ok t (.connects identity selected remote.ipEndpoint))
    (pid reference : Nat) (now : Instant) :
    wp (tcpConnect identity endpoint pid reference now)
      (fun envelope s' => Undriven s envelope s' ∨ Driven ok s [] envelope s')
      (fun _ s' => Prepares Gentle s [] s' ∧ ConnectFailed s s') s := by
  have hfail : Prepares Gentle s [] s ∧ ConnectFailed s s := ⟨.refl s, .unaffected (.refl s)⟩
  unfold tcpConnect
  simp only [wp_bind, wp_ensureRunning, wp_validate, wp_ofExcept, wp_tcpRecord, wp_require]
  refine ⟨fun _ => ⟨fun entry hvalid => ⟨fun remote hremote => ⟨fun record hok => ⟨fun hfamily => ?_,
    fun _ => hfail⟩, fun _ _ => hfail⟩, fun _ _ => hfail⟩, fun _ _ => hfail⟩, fun _ => hfail⟩
  have hidentity := (tcpRecord?_eq_ok hok).2
  have hstart : record.phase.idle = true →
      wp (startConnect identity record remote pid reference now)
        (fun envelope s' => Undriven s envelope s' ∨ Driven ok s [] envelope s')
        (fun _ s' => Prepares Gentle s [] s' ∧ ConnectFailed s s') s := by
    intro hidle
    subst hidentity
    exact wp_mono (startConnect_spec hs hin hroom hquiet hgentle hvalid hok hidle hfamily
      (fun t selected ht hselected => hconnect t record remote selected ht hok hremote hselected)
      pid reference now) (fun _ _ h => .inr h) fun _ _ h => h
  cases hphase : record.phase with
  | connected => exact hfail
  | failed failure => exact hfail
  | connecting =>
      simp only [wp_bind, wp_require]
      refine ⟨fun _ => ?_, fun _ => hfail⟩
      exact wp_mono (finalizeOrArmConnect_spec hs hin hok hphase pid reference now)
        (fun _ _ h => h.imp_right (·.mono hgentle)) fun _ _ h => h
  | «open» => exact hstart (by rw [hphase]; rfl)
  | bound => exact hstart (by rw [hphase]; rfl)

end

end SmolNet.NativeStack
