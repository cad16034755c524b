import SmolNet.OwnershipLemmas

/-!
# Every step keeps the ownership of native sockets

One lemma for each step that changes records, native sockets or the table's roster; all other steps
leave alone what ownership depends on.
-/

namespace SmolNet.NativeStack

open Std TreeMap Ownership

variable {s s' : NativeStack} {record changed : TcpRecord} {listener : ListenerRecord}

/-! ## Steps that change no record -/

/-- What ownership depends on stays; the id counter may grow. -/
structure Inert (s s' : NativeStack) : Prop where
  sockets : s'.sockets = s.sockets
  tcpRecords : s'.tcpRecords = s.tcpRecords
  tcpListeners : s'.tcpListeners = s.tcpListeners
  udpRecords : s'.udpRecords = s.udpRecords
  closingTcp : s'.closingTcp = s.closingTcp
  roster : s'.socketTable.roster = s.socketTable.roster
  nextSocketId : s.nextSocketId ≤ s'.nextSocketId

theorem Undisturbed.inert (h : Undisturbed s s') : Inert s s' :=
  ⟨h.sockets, h.tcpRecords, h.tcpListeners, h.udpRecords, h.closingTcp, h.table.roster,
    h.nextSocketId.ge⟩

theorem Sound.inert (h : s.Sound) (hs : Inert s s') : s'.Sound := by
  obtain ⟨hsockets, hrecords, hlisteners, hudp, hclosing, hroster, hnext⟩ := hs
  refine ⟨?_, ?_, ?_, .mono ?_ hnext, .mono ?_ hnext⟩
  · rw [hrecords, hlisteners, hudp]
    exact h.filed
  · rw [hrecords, hlisteners, hudp, hsockets]
    exact h.handles
  · rw [hrecords, hlisteners, hudp, hsockets]
    exact h.typed
  · rw [hrecords, hlisteners, hudp, hroster, hclosing]
    exact h.rostered
  · rw [hrecords, hlisteners, hudp]
    exact h.queues

theorem undisturbed_install {registration : WaiterRegistration} {table : SocketTable}
    (h : s.socketTable.installWaiter registration = .ok (.armed, table)) (event : WaiterEvent) :
    Undisturbed s ({ s with socketTable := table }.logEvent event) := by
  obtain ⟨entry, hlookup, -, -, rfl⟩ := SocketTable.installWaiter_armed h
  exact ⟨rfl, .of_putEntry hlookup (by simp) (by simp) rfl rfl rfl⟩

theorem inert_abort {identity : SocketIdentity} {direction : Direction} {waiter : Waiter}
    {table : SocketTable} (h : s.socketTable.takeWaiter identity .tcp direction = .ok (some waiter, table))
    (history : StackHistory) (event : WaiterEvent) :
    Inert s ({ s with socketTable := table, history := history }.logEvent event) := by
  obtain ⟨entry, hlookup, -, -, rfl⟩ := SocketTable.takeWaiter_some h
  refine ⟨rfl, rfl, rfl, rfl, rfl, SocketTable.Agrees.roster (.of_putEntry hlookup ?_ ?_ rfl rfl rfl), le_rfl⟩
  · simp
  · simp

theorem inert_finish (result : Reply) (effects : Effects) (aborts : List PendingNotification)
    (s : NativeStack) : Inert s (finish result effects aborts s).2 := by
  have h := undisturbed_finish result effects aborts s
  exact ⟨h.sockets, h.tcpRecords, h.tcpListeners, h.udpRecords, h.closingTcp, h.table.roster,
    h.nextSocketId.ge⟩

theorem undisturbed_cancel {identity : SocketIdentity} {operation : Operation} {reference : Nat}
    {table : SocketTable} (h : s.socketTable.cancel identity operation reference = .ok (.cancelled, table))
    (event : WaiterEvent) : Undisturbed s ({ s with socketTable := table }.logEvent event) := by
  obtain ⟨entry, waiter, hlookup, -, -, rfl⟩ := SocketTable.cancel_cancelled h
  exact ⟨rfl, .of_putEntry hlookup (by simp) (by simp) rfl rfl rfl⟩

/-! ## Steps on native sockets -/

theorem mem_iff_of_shape {before after : SocketSet}
    (h : ∀ handle : Nat, Option.Rel NativeSocket.SameShape before[handle]? after[handle]?)
    (handle : Nat) : handle ∈ after ↔ handle ∈ before := by
  have hrel := h handle
  rw [ExtTreeMap.mem_iff_isSome_getElem?, ExtTreeMap.mem_iff_isSome_getElem?]
  generalize before[handle]? = x at *
  generalize after[handle]? = y at *
  cases hrel <;> simp

theorem tcp_of_shape {before after : SocketSet} {handle : Nat} {socket : TcpSocket}
    (h : ∀ handle : Nat, Option.Rel NativeSocket.SameShape before[handle]? after[handle]?)
    (hbefore : before[handle]? = some (.tcp socket)) :
    ∃ changed, after[handle]? = some (.tcp changed) := by
  have hrel := h handle
  rw [hbefore] at hrel
  generalize hafter : after[handle]? = y at *
  cases hrel with
  | @some _ changed hshape =>
      cases changed with
      | tcp changed => exact ⟨changed, rfl⟩
      | udp changed => exact hshape.elim

theorem udp_of_shape {before after : SocketSet} {handle : Nat} {socket : UdpSocket}
    (h : ∀ handle : Nat, Option.Rel NativeSocket.SameShape before[handle]? after[handle]?)
    (hbefore : before[handle]? = some (.udp socket)) :
    ∃ changed, after[handle]? = some (.udp changed) := by
  have hrel := h handle
  rw [hbefore] at hrel
  generalize hafter : after[handle]? = y at *
  cases hrel with
  | @some _ changed hshape =>
      cases changed with
      | tcp changed => exact hshape.elim
      | udp changed => exact ⟨changed, rfl⟩

theorem Sound.native {sockets : SocketSet} (h : s.Sound) (hshape : s.Reshapes sockets) :
    Sound { s with sockets := sockets } := by
  refine ⟨h.filed, ?_, ⟨?_, ?_, ?_⟩, h.rostered, h.queues⟩
  · exact h.handles.trans (keySet_congr (mem_iff_of_shape hshape.shape)).symm
  · intro id record hrecord
    obtain ⟨socket, hsocket, -⟩ := h.typed.tcp id record hrecord
    obtain ⟨changed, hchanged⟩ := tcp_of_shape hshape.shape hsocket
    exact ⟨changed, hchanged, fun hidle => hshape.idle id record changed hrecord hidle hchanged⟩
  · intro id listener hlistener handle hhandle
    obtain ⟨socket, hsocket⟩ := h.typed.listener id listener hlistener handle hhandle
    exact tcp_of_shape hshape.shape hsocket
  · intro id record hrecord handle hhandle
    obtain ⟨socket, hsocket⟩ := h.typed.udp id record hrecord handle hhandle
    exact udp_of_shape hshape.shape hsocket

/-- The records of other owners do not see a change that leaves their handles alone. -/
structure TypedBut (s : NativeStack) (owner : Owner) (sockets : SocketSet) : Prop where
  tcp : ∀ (id : Nat) (record : TcpRecord), s.tcpRecords[id]? = some record → owner ≠ .tcp id →
    ∃ socket, sockets[record.handle]? = some (.tcp socket) ∧
      (record.phase.idle = true → socket.state = .closed)
  listener : ∀ (id : Nat) (listener : ListenerRecord), s.tcpListeners[id]? = some listener →
    owner ≠ .listener id → ∀ handle ∈ listener.pool, ∃ socket, sockets[handle]? = some (.tcp socket)
  udp : ∀ (id : Nat) (record : UdpRecord), s.udpRecords[id]? = some record → owner ≠ .udp id →
    ∀ handle ∈ record.handles, ∃ socket, sockets[handle]? = some (.udp socket)

theorem Sound.typedBut (h : s.Sound) (owner : Owner) (sockets : SocketSet)
    (hkept : ∀ handle, handle ∈ s.sockets → ¬ s.Owns owner handle →
      sockets[handle]? = s.sockets[handle]?) : s.TypedBut owner sockets := by
  have kept : ∀ {other : Owner} {handle : Nat} {socket : NativeSocket}, s.Owns other handle →
      owner ≠ other → s.sockets[handle]? = some socket → sockets[handle]? = some socket := by
    intro other handle socket ho hne hsocket
    rw [hkept handle (mem_of_getElem? hsocket) fun howner => hne (h.unique howner ho)]
    exact hsocket
  refine ⟨?_, ?_, ?_⟩
  · intro id record hrecord hne
    obtain ⟨socket, hsocket, hidle⟩ := h.typed.tcp id record hrecord
    exact ⟨socket, kept (owns_tcp hrecord) hne hsocket, hidle⟩
  · intro id listener hlistener hne handle hhandle
    obtain ⟨socket, hsocket⟩ := h.typed.listener id listener hlistener handle hhandle
    exact ⟨socket, kept (owns_listener hlistener hhandle) hne hsocket⟩
  · intro id record hrecord hne handle hhandle
    obtain ⟨socket, hsocket⟩ := h.typed.udp id record hrecord handle hhandle
    exact ⟨socket, kept (owns_udp hrecord hhandle) hne hsocket⟩

theorem lookup_add {sockets : SocketSet} {handle : Nat} {socket : NativeSocket}
    (h : sockets[handle]? = some socket) (added : NativeSocket) :
    (sockets.add added).2[handle]? = some socket := by
  rw [SocketSet.getElem?_add, if_neg, h]
  rintro rfl
  simp at h

/-! ## Steps on TCP records -/

/-- A record is replaced, and its own native socket may change with it. -/
theorem Sound.replaceRecord (h : s.Sound) (changed : TcpRecord) (sockets : SocketSet)
    (hrecord : s.tcpRecords[record.identity.id]? = some record)
    (hidentity : changed.identity = record.identity) (hhandle : changed.handle = record.handle)
    (hvalid : changed.Valid) (hidle : changed.phase.idle = true → record.phase.idle = true)
    (hmem : ∀ handle, handle ∈ sockets ↔ handle ∈ s.sockets)
    (hkept : ∀ handle, handle ≠ record.handle → sockets[handle]? = s.sockets[handle]?)
    (hsocket : ∃ socket, sockets[record.handle]? = some (.tcp socket) ∧
      (changed.phase.idle = true → socket.state = .closed)) :
    Sound { s.putRecord changed with sockets := sockets } := by
  have hbut := h.typedBut (.tcp record.identity.id) sockets
    fun handle _ hne => hkept handle fun heq => hne ⟨record, hrecord, heq.symm⟩
  have hmaps : (s.putRecord changed).tcpRecords = s.tcpRecords.insert record.identity.id changed := by
    simp [putRecord, hidentity]
  refine ⟨?_, ?_, ?_, ?_, ?_⟩ <;> dsimp only <;> rw [hmaps]
  · exact ⟨h.filed.tcp.insert ⟨by rw [hidentity], hvalid⟩, h.filed.listener, h.filed.udp⟩
  · rw [handles_insert_tcp, hhandle, keySet_congr hmem, ← handles_eq_tcp hrecord]
    exact h.handles
  · refine ⟨?_, fun id listener hid => hbut.listener id listener hid (by simp),
      fun id record hid => hbut.udp id record hid (by simp)⟩
    intro id other hid
    rw [ExtTreeMap.getElem?_insert] at hid
    split at hid
    · obtain rfl := Option.some.inj hid
      rw [hhandle]
      exact hsocket
    · rename_i hne
      refine hbut.tcp id other hid ?_
      rintro ⟨⟩
      simp at hne
  · exact h.rostered.replaceTcp hrecord hidentity
  · exact h.queues.replaceTcp hrecord hidle

/-- A record is replaced and its native socket stays. -/
theorem Sound.replaceRecordOnly (h : s.Sound) (changed : TcpRecord)
    (hrecord : s.tcpRecords[record.identity.id]? = some record)
    (hidentity : changed.identity = record.identity) (hhandle : changed.handle = record.handle)
    (hvalid : changed.Valid) (hidle : changed.phase.idle = true → record.phase.idle = true) :
    (s.putRecord changed).Sound := by
  obtain ⟨socket, hsocket, hclosed⟩ := h.typed.tcp _ record hrecord
  exact h.replaceRecord changed s.sockets hrecord hidentity hhandle hvalid hidle (fun _ => Iff.rfl) (fun _ _ => rfl)
    ⟨socket, hsocket, fun hc => hclosed (hidle hc)⟩

theorem Amends.valid (h : Amends record changed) (hvalid : record.Valid) : changed.Valid := by
  refine ⟨?_, ?_, ?_, ?_⟩
  · rw [h.rcvbuf]
    exact hvalid.rcvbuf
  · rw [h.sndbuf]
    exact hvalid.sndbuf
  · intro hidle
    rw [h.remote]
    exact hvalid.idle (h.idle hidle)
  · intro hbound
    rw [h.localEndpoint]
    exact hvalid.bound (h.bound hbound)

theorem Sound.amend (h : s.Sound) (hrecord : s.tcpRecords[record.identity.id]? = some record)
    (hchanged : Amends record changed) : (s.putRecord changed).Sound :=
  h.replaceRecordOnly changed hrecord hchanged.identity hchanged.handle
    (hchanged.valid (h.filed.tcp _ record hrecord).2) hchanged.idle

theorem Sound.bind (h : s.Sound) {endpoint : IpEndpoint} (scopeId : Nat)
    (hrecord : s.tcpRecords[record.identity.id]? = some record) (hphase : record.phase = .open)
    (hport : endpoint.port ≠ 0) :
    (s.putRecord { record with
      phase := .bound
      localEndpoint := some endpoint
      localScopeId := scopeId }).Sound := by
  have hvalid := (h.filed.tcp _ record hrecord).2
  have hidle : record.phase.idle = true := by rw [hphase]; rfl
  refine h.replaceRecordOnly _ hrecord rfl rfl ?_ fun _ => hidle
  exact ⟨hvalid.rcvbuf, hvalid.sndbuf, fun _ => hvalid.idle hidle, fun _ => ⟨endpoint, rfl, hport⟩⟩

theorem valid_closeDeadline (h : record.Valid) (deadline : Option Instant) :
    TcpRecord.Valid { record with closeDeadline := deadline } :=
  ⟨h.rcvbuf, h.sndbuf, h.idle, h.bound⟩

theorem Sound.setDeadline (h : s.Sound) (hrecord : s.tcpRecords[record.identity.id]? = some record)
    (deadline : Option Instant) : (s.putRecord { record with closeDeadline := deadline }).Sound :=
  h.replaceRecordOnly { record with closeDeadline := deadline } hrecord rfl rfl
    (valid_closeDeadline (h.filed.tcp _ record hrecord).2 deadline) id

theorem Sound.connect (h : s.Sound) {socket changed : TcpSocket} {selected remote : IpEndpoint}
    (scopeId : Nat) (hrecord : s.tcpRecords[record.identity.id]? = some record)
    (hsocket : s.sockets[record.handle]? = some (.tcp socket)) :
    Sound
      { s.putRecord { record with
          phase := .connecting
          localEndpoint := some selected
          remote := some remote
          remoteScopeId := scopeId } with
        sockets := s.sockets.insert record.handle (.tcp changed)
        tcpConnections := s.tcpConnections.insert (.ofEndpoints selected remote) record.identity } := by
  have hvalid := (h.filed.tcp _ record hrecord).2
  have hmem := mem_of_getElem? hsocket
  have hsound := h.replaceRecord
    { record with
      phase := .connecting
      localEndpoint := some selected
      remote := some remote
      remoteScopeId := scopeId }
    (s.sockets.insert record.handle (.tcp changed)) hrecord rfl rfl
    ⟨hvalid.rcvbuf, hvalid.sndbuf, by simp [ConnectPhase.idle], by simp⟩
    (by simp [ConnectPhase.idle]) (fun handle => by grind) (fun handle hne => by grind)
    ⟨changed, by simp, by simp [ConnectPhase.idle]⟩
  exact hsound.inert ⟨rfl, rfl, rfl, rfl, rfl, rfl, le_rfl⟩

theorem Sound.dropRecord (h : s.Sound) (hrecord : s.tcpRecords[record.identity.id]? = some record)
    (hclosed : s.socketTable.roster record.identity.id = none) : (s.dropRecord record).Sound := by
  have hbut := h.typedBut (.tcp record.identity.id) (s.sockets.erase record.handle)
    fun handle _ hne => by
      have : handle ≠ record.handle := fun heq => hne ⟨record, hrecord, heq.symm⟩
      grind
  have hmem : record.handle ∈ s.sockets := h.mem_sockets.2 ⟨_, owns_tcp hrecord⟩
  refine ⟨⟨h.filed.tcp.erase _, h.filed.listener, h.filed.udp⟩, ?_, ⟨?_, ?_, ?_⟩,
    h.rostered.eraseTcp hclosed, h.queues.eraseTcp⟩
  · have := h.handles
    rw [handles_eq_tcp hrecord, keySet_eq_cons_erase hmem, Multiset.cons_inj_right] at this
    exact this
  · intro id other hid
    have hne : Owner.tcp record.identity.id ≠ .tcp id := by
      rintro ⟨⟩
      simp [NativeStack.dropRecord, removeTcpRecord] at hid
    refine hbut.tcp id other ?_ hne
    have : record.identity.id ≠ id := fun heq => hne (by rw [heq])
    simp only [NativeStack.dropRecord, removeTcpRecord] at hid
    grind
  · exact fun id listener hid => hbut.listener id listener hid (by simp)
  · exact fun id other hid => hbut.udp id other hid (by simp)

theorem Sound.unclose (h : s.Sound) (record : TcpRecord) : (s.unclose record).Sound :=
  ⟨h.filed, h.handles, h.typed, h.rostered.endClosing, h.queues⟩

theorem Sound.startClose (h : s.Sound) (deadline : Instant)
    (hrecord : s.tcpRecords[record.identity.id]? = some record)
    (hclosed : s.socketTable.roster record.identity.id = none) :
    Sound
      { s.putRecord { record with closeDeadline := some deadline } with
        closingTcp := s.closingTcp.insert record.identity.id
        closingDeadlines := s.closingDeadlines.insert (deadline, record.identity.id) } := by
  have hsound := h.setDeadline hrecord (some deadline)
  refine ⟨hsound.filed, hsound.handles, hsound.typed, ?_, hsound.queues⟩
  refine hsound.rostered.startClosing hclosed ?_
  simp [putRecord]

theorem Sound.openTcp (h : s.Sound) {identity : SocketIdentity} {family : AddressFamily} {rcvbuf sndbuf : Nat}
    (hid : s.nextSocketId ≤ identity.id) (hrcvbuf : validBufferBytes rcvbuf = true)
    (hsndbuf : validBufferBytes sndbuf = true) :
    Sound
      { s.enroll identity .tcp with
        sockets := (s.sockets.add (.tcp (.new rcvbuf sndbuf))).2
        tcpRecords := s.tcpRecords.insert identity.id
          (.new identity s.sockets.freeHandle family rcvbuf sndbuf) } := by
  have hunused : s.tcpRecords[identity.id]? = none := by
    simpa using (h.rostered.fresh _ hid).1
  refine ⟨⟨h.filed.tcp.insert ⟨rfl, hrcvbuf, hsndbuf, fun _ => rfl, by simp [TcpRecord.new]⟩,
    h.filed.listener, h.filed.udp⟩, ?_, ⟨?_, ?_, ?_⟩, ?_, ?_⟩
  · dsimp only [enroll]
    rw [handles_insert_tcp, erase_eq_self hunused, keySet_add, ← h.handles]
    rfl
  · refine All.insert (fun id record hrecord => ?_) ⟨.new rcvbuf sndbuf, ?_, fun _ => rfl⟩
    · obtain ⟨socket, hsocket, hidle⟩ := h.typed.tcp id record hrecord
      exact ⟨socket, lookup_add hsocket _, hidle⟩
    · simp [SocketSet.getElem?_add, TcpRecord.new]
  · intro id listener hid handle hhandle
    obtain ⟨socket, hsocket⟩ := h.typed.listener id listener hid handle hhandle
    exact ⟨socket, lookup_add hsocket _⟩
  · intro id record hid handle hhandle
    obtain ⟨socket, hsocket⟩ := h.typed.udp id record hid handle hhandle
    exact ⟨socket, lookup_add hsocket _⟩
  · dsimp only [enroll]
    rw [SocketTable.roster_insertEntry]
    exact h.rostered.admitTcp (.new identity s.sockets.freeHandle family rcvbuf sndbuf) hid rfl
  · exact (h.queues.insertTcp _ hid).mono (hid.trans (Nat.le_succ _))

/-! ## Steps on listeners -/

theorem elems_refilled {pool : ExtTreeSet Nat} {handle fresh : Nat} (hmem : handle ∈ pool)
    (hfresh : fresh ∉ pool.erase handle) :
    handle ::ₘ elems ((pool.erase handle).insert fresh) = fresh ::ₘ elems pool := by
  rw [elems_insert_of_not_mem hfresh, elems_eq_cons_erase hmem, Multiset.cons_swap]

theorem Sound.pool_mem (h : s.Sound) {id handle : Nat} (hlistener : s.tcpListeners[id]? = some listener)
    (hpool : handle ∈ listener.pool) : handle ∈ s.sockets :=
  h.mem_sockets.2 ⟨_, owns_listener hlistener hpool⟩

/-- A listener may change all but its identity and its pool, and lose queued connections. -/
theorem Sound.replaceListener (h : s.Sound) {changed : ListenerRecord}
    (hlistener : s.tcpListeners[listener.identity.id]? = some listener)
    (hidentity : changed.identity = listener.identity) (hpool : changed.pool = listener.pool)
    (haccepted : (changed.accepted : Multiset SocketIdentity) ≤ listener.accepted) (hvalid : changed.Valid) :
    (s.putListener changed).Sound := by
  have hmaps : (s.putListener changed).tcpListeners =
      s.tcpListeners.insert listener.identity.id changed := by
    simp [putListener, hidentity]
  refine ⟨?_, ?_, ?_, ?_, ?_⟩ <;> rw [hmaps]
  · exact ⟨h.filed.tcp, h.filed.listener.insert ⟨by rw [hidentity], hvalid⟩, h.filed.udp⟩
  · have := h.handles
    rw [handles_eq_listener hlistener] at this
    rw [handles_insert_listener, hpool]
    exact this
  · refine ⟨h.typed.tcp, h.typed.listener.insert ?_, h.typed.udp⟩
    rw [hpool]
    exact h.typed.listener _ listener hlistener
  · exact h.rostered.replaceListener hlistener hidentity
  · exact h.queues.replaceListener hlistener haccepted

theorem Sound.amendListener (h : s.Sound) {changed : ListenerRecord}
    (hlistener : s.tcpListeners[listener.identity.id]? = some listener)
    (hchanged : AmendsListener listener changed) : (s.putListener changed).Sound := by
  have hvalid := (h.filed.listener _ listener hlistener).2
  refine h.replaceListener hlistener hchanged.identity hchanged.pool (by rw [hchanged.accepted]) ?_
  exact ⟨hchanged.rcvbuf ▸ hvalid.rcvbuf, hchanged.sndbuf ▸ hvalid.sndbuf,
    hchanged.listenEndpoint ▸ hvalid.listenPort, hchanged.localEndpoint ▸ hvalid.localPort,
    by rw [hchanged.endpoint, hchanged.localEndpoint, hvalid.endpoint]⟩

theorem Sound.accept (h : s.Sound) {child : SocketIdentity} {rest : List SocketIdentity}
    (hlistener : s.tcpListeners[listener.identity.id]? = some listener)
    (haccepted : listener.accepted = child :: rest) :
    (s.putListener { listener with accepted := rest }).Sound := by
  have hvalid := (h.filed.listener _ listener hlistener).2
  refine h.replaceListener hlistener rfl rfl ?_
    ⟨hvalid.rcvbuf, hvalid.sndbuf, hvalid.listenPort, hvalid.localPort, hvalid.endpoint⟩
  rw [haccepted]
  exact Multiset.le_cons_self _ _

theorem Sound.recycle (h : s.Sound) {handle : Nat}
    (hlistener : s.tcpListeners[listener.identity.id]? = some listener) (hpool : handle ∈ listener.pool) :
    (s.recycled listener handle).Sound := by
  have hvalid := (h.filed.listener _ listener hlistener).2
  have hmem := h.pool_mem hlistener hpool
  have hfree := SocketSet.freeHandle_not_mem (s.sockets.erase handle)
  have hfresh : SocketSet.freeHandle (s.sockets.erase handle) ∉ listener.pool.erase handle := by
    intro hin
    have hmember : SocketSet.freeHandle (s.sockets.erase handle) ∈ listener.pool := by grind
    have := h.pool_mem hlistener hmember
    grind
  have hbut := h.typedBut (.listener listener.identity.id)
    (SocketSet.add (s.sockets.erase handle) (.tcp (freshMember listener))).2 fun other hother hne => by
      have : other ≠ handle := fun heq => hne ⟨listener, hlistener, heq ▸ hpool⟩
      rw [SocketSet.getElem?_add, if_neg]
      · grind
      · rintro rfl
        grind
  refine ⟨⟨h.filed.tcp, h.filed.listener.insert ⟨rfl, ?_⟩, h.filed.udp⟩, ?_, ⟨?_, ?_, ?_⟩, ?_, ?_⟩
  · exact ⟨hvalid.rcvbuf, hvalid.sndbuf, hvalid.listenPort, hvalid.localPort, hvalid.endpoint⟩
  · have hheld := h.handles
    rw [handles_eq_listener hlistener, keySet_eq_cons_erase hmem, elems_eq_cons_erase hpool,
      Multiset.cons_add, Multiset.cons_inj_right] at hheld
    dsimp only [recycled, refilled]
    rw [handles_insert_listener, keySet_add, ← hheld, elems_insert_of_not_mem hfresh,
      Multiset.cons_add]
  · exact fun id record hid => hbut.tcp id record hid (by simp)
  · dsimp only [recycled]
    intro id other hid member hmember
    rw [ExtTreeMap.getElem?_insert] at hid
    split at hid
    · obtain rfl := Option.some.inj hid
      simp only [refilled, ExtTreeSet.mem_insert, Std.compare_eq_iff_eq] at hmember
      rw [SocketSet.getElem?_add]
      split
      · exact ⟨_, rfl⟩
      · rename_i hne
        obtain ⟨socket, hsocket⟩ := h.typed.listener _ listener hlistener member (by grind)
        exact ⟨socket, by grind⟩
    · rename_i hne
      refine hbut.listener id other hid ?_ member hmember
      rintro ⟨⟩
      simp at hne
  · exact fun id record hid => hbut.udp id record hid (by simp)
  · exact h.rostered.replaceListener hlistener rfl
  · exact h.queues.replaceListener hlistener le_rfl

theorem Sound.promote (h : s.Sound) {handle : Nat} {child : SocketIdentity}
    {localEndpoint remote : IpEndpoint} (hlistener : s.tcpListeners[listener.identity.id]? = some listener)
    (hpool : handle ∈ listener.pool) (hid : s.nextSocketId ≤ child.id) :
    (s.promoted listener handle child localEndpoint remote).Sound := by
  have hvalid := (h.filed.listener _ listener hlistener).2
  have hfree := s.sockets.freeHandle_not_mem
  have hunused := h.rostered.fresh _ hid
  have hnone : s.tcpRecords[child.id]? = none := by simpa using hunused.1
  have hfresh : s.sockets.freeHandle ∉ listener.pool.erase handle := by
    intro hin
    exact hfree (h.pool_mem hlistener (by grind))
  refine ⟨⟨h.filed.tcp.insert ⟨rfl, ?_⟩, h.filed.listener.insert ⟨rfl, ?_⟩, h.filed.udp⟩, ?_,
    ⟨?_, ?_, ?_⟩, ?_, ?_⟩
  · exact ⟨hvalid.rcvbuf, hvalid.sndbuf, by simp [TcpRecord.ofAccepted, ConnectPhase.idle],
      by simp [TcpRecord.ofAccepted]⟩
  · exact ⟨hvalid.rcvbuf, hvalid.sndbuf, hvalid.listenPort, hvalid.localPort, hvalid.endpoint⟩
  · dsimp only [promoted, enroll]
    rw [handles_insert_tcp, erase_eq_self hnone, handles_insert_listener, ← Multiset.cons_add]
    dsimp only [refilled, TcpRecord.ofAccepted]
    rw [elems_refilled hpool hfresh, Multiset.cons_add, ← handles_eq_listener hlistener, h.handles,
      keySet_add]
  · refine All.insert (fun id record hrecord => ?_) ?_
    · obtain ⟨socket, hsocket, hidle⟩ := h.typed.tcp id record hrecord
      exact ⟨socket, lookup_add hsocket _, hidle⟩
    · obtain ⟨socket, hsocket⟩ := h.typed.listener _ listener hlistener handle hpool
      exact ⟨socket, lookup_add hsocket _, by simp [TcpRecord.ofAccepted, ConnectPhase.idle]⟩
  · refine All.insert (fun id other hother member hmember => ?_) fun member hmember => ?_
    · obtain ⟨socket, hsocket⟩ := h.typed.listener id other hother member hmember
      exact ⟨socket, lookup_add hsocket _⟩
    · simp only [refilled, ExtTreeSet.mem_insert, Std.compare_eq_iff_eq] at hmember
      rcases hmember with rfl | hmember
      · exact ⟨freshMember listener, by simp [promoted, SocketSet.getElem?_add]⟩
      · obtain ⟨socket, hsocket⟩ := h.typed.listener _ listener hlistener member (by grind)
        exact ⟨socket, lookup_add hsocket _⟩
  · intro id record hrecord member hmember
    obtain ⟨socket, hsocket⟩ := h.typed.udp id record hrecord member hmember
    exact ⟨socket, lookup_add hsocket _⟩
  · dsimp only [promoted, enroll]
    rw [SocketTable.roster_insertEntry]
    refine Rostered.replaceListener ?_ hlistener rfl
    exact h.rostered.admitTcp (.ofAccepted child handle localEndpoint remote
      listener.endpoint.scopeId listener.rcvbuf listener.sndbuf) hid rfl
  · refine (h.queues.insertTcp _ hid).append hlistener rfl hid hunused.2.1 hunused.2.2.1 ?_
    intro record hrecord
    simp only [ExtTreeMap.getElem?_insert_self, Option.some.injEq] at hrecord
    subst hrecord
    rfl

theorem Sound.dropListener (h : s.Sound) (hlistener : s.tcpListeners[listener.identity.id]? = some listener)
    (hclosed : s.socketTable.roster listener.identity.id = none) : (s.dropListener listener).Sound := by
  have hbut := h.typedBut (.listener listener.identity.id)
    (eraseAll s.sockets listener.pool.toList) fun handle _ hne => by
      rw [getElem?_eraseAll, if_neg]
      intro hmem
      exact hne ⟨listener, hlistener, by simpa using hmem⟩
  have hnodup : listener.pool.toList.Nodup := Multiset.coe_nodup.1 (nodup_elems listener.pool)
  have hmem : ∀ handle ∈ listener.pool.toList, handle ∈ s.sockets := fun handle hhandle =>
    h.pool_mem hlistener (by simpa using hhandle)
  refine ⟨⟨h.filed.tcp, h.filed.listener.erase _, h.filed.udp⟩, ?_, ⟨?_, ?_, ?_⟩,
    h.rostered.eraseListener hclosed, h.queues.eraseListener⟩
  · have hheld := h.handles
    rw [handles_eq_listener hlistener, keySet_eraseAll hnodup hmem] at hheld
    exact add_left_cancel hheld
  · exact fun id record hid => hbut.tcp id record hid (by simp)
  · intro id other hid
    have hne : listener.identity.id ≠ id := by
      rintro rfl
      simp [NativeStack.dropListener] at hid
    refine hbut.listener id other ?_ (by simpa using hne)
    simp only [NativeStack.dropListener] at hid
    grind
  · exact fun id record hid => hbut.udp id record hid (by simp)

theorem Sound.listen (h : s.Sound) {sockets : SocketSet} {added : List Nat}
    (hrecord : s.tcpRecords[record.identity.id]? = some record) (hidle : record.phase.idle = true)
    (hextends : s.Extends sockets added)
    (hkept : ∀ handle, handle ∈ s.sockets → handle ≠ record.handle →
      sockets[handle]? = s.sockets[handle]?)
    (hpool : ∀ handle, handle ∈ listener.pool ↔ handle = record.handle ∨ handle ∈ added)
    (htcp : ∀ handle ∈ listener.pool, ∃ socket, sockets[handle]? = some (.tcp socket))
    (hidentity : listener.identity = record.identity) (haccepted : listener.accepted = [])
    (hvalid : listener.Valid) :
    Sound { (s.removeTcpRecord record).putListener listener with sockets := sockets } := by
  have hlisteners : ((s.removeTcpRecord record).putListener listener).tcpListeners =
      s.tcpListeners.insert record.identity.id listener := by
    simp [putListener, removeTcpRecord, hidentity]
  have hrecords : ((s.removeTcpRecord record).putListener listener).tcpRecords =
      s.tcpRecords.erase record.identity.id := rfl
  have hudp : ((s.removeTcpRecord record).putListener listener).udpRecords = s.udpRecords := rfl
  have hbut := h.typedBut (.tcp record.identity.id) sockets fun handle hhandle hne =>
    hkept handle hhandle fun heq => hne ⟨record, hrecord, heq.symm⟩
  have hnone : s.tcpListeners[record.identity.id]? = none := by
    simpa using (h.rostered.tcp_apart _ (mem_of_getElem? hrecord)).1
  have hmember : record.handle ∈ s.sockets := h.mem_sockets.2 ⟨_, owns_tcp hrecord⟩
  have helems : elems listener.pool = record.handle ::ₘ (added : Multiset Nat) := by
    refine (Multiset.Nodup.ext (nodup_elems _) ?_).2 fun handle => ?_
    · refine Multiset.nodup_cons.2 ⟨fun hin => ?_, Multiset.coe_nodup.2 hextends.nodup⟩
      exact hextends.fresh _ hin hmember
    · rw [mem_elems, hpool, Multiset.mem_cons, Multiset.mem_coe]
  refine ⟨?_, ?_, ?_, ?_, ?_⟩ <;> dsimp only <;> rw [hrecords, hlisteners, hudp]
  · exact ⟨h.filed.tcp.erase _, h.filed.listener.insert ⟨by rw [hidentity], hvalid⟩, h.filed.udp⟩
  · have hheld := h.handles
    rw [handles_eq_tcp hrecord] at hheld
    rw [handles_insert_listener, erase_eq_self hnone, helems, keySet_extends hextends, ← hheld,
      ← Multiset.singleton_add, ← Multiset.singleton_add]
    abel
  · refine ⟨fun id other hid => ?_, All.insert (fun id other hid => ?_) htcp,
      fun id other hid => hbut.udp id other hid (by simp)⟩
    · refine hbut.tcp id other (by grind) ?_
      rintro ⟨⟩
      simp at hid
    · exact hbut.listener id other hid (by simp)
  · exact h.rostered.tcpToListener hrecord hidentity
  · exact h.queues.tcpToListener hrecord hidle haccepted

/-! ## Steps on UDP records -/

theorem Sound.openUdp (h : s.Sound) {identity : SocketIdentity} {family : AddressFamily}
    (hid : s.nextSocketId ≤ identity.id) :
    Sound
      { s.enroll identity .udp with
        sockets := (s.sockets.add (.udp .new)).2
        udpRecords := s.udpRecords.insert identity.id
          (.new identity s.sockets.freeHandle family) } := by
  have hunused : s.udpRecords[identity.id]? = none := by
    simpa using (h.rostered.fresh _ hid).2.2.1
  refine ⟨⟨h.filed.tcp, h.filed.listener, h.filed.udp.insert ⟨rfl, by simp [UdpRecord.new], fun _ => rfl⟩⟩, ?_,
    ⟨?_, ?_, ?_⟩, ?_, ?_⟩
  · dsimp only [enroll]
    rw [handles_insert_udp, erase_eq_self hunused, keySet_add, ← h.handles]
    simp [UdpRecord.new]
  · intro id record hrecord
    obtain ⟨socket, hsocket, hidle⟩ := h.typed.tcp id record hrecord
    exact ⟨socket, lookup_add hsocket _, hidle⟩
  · intro id listener hid handle hhandle
    obtain ⟨socket, hsocket⟩ := h.typed.listener id listener hid handle hhandle
    exact ⟨socket, lookup_add hsocket _⟩
  · refine All.insert (fun id record hid handle hhandle => ?_) fun handle hhandle => ?_
    · obtain ⟨socket, hsocket⟩ := h.typed.udp id record hid handle hhandle
      exact ⟨socket, lookup_add hsocket _⟩
    · obtain rfl : handle = s.sockets.freeHandle := by simpa [UdpRecord.new] using hhandle
      exact ⟨.new, by simp [SocketSet.getElem?_add]⟩
  · dsimp only [enroll]
    rw [SocketTable.roster_insertEntry]
    exact h.rostered.admitUdp (.new identity s.sockets.freeHandle family) hid rfl
  · exact (h.queues.insertUdp _ hid).mono (hid.trans (Nat.le_succ _))

/-- A UDP record is replaced by one that holds the new handles too. -/
theorem Sound.extendUdp (h : s.Sound) {record changed : UdpRecord} {sockets : SocketSet} {added : List Nat}
    (hrecord : s.udpRecords[record.identity.id]? = some record) (hextends : s.Extends sockets added)
    (hkept : ∀ handle, handle ∈ s.sockets → sockets[handle]? = s.sockets[handle]?)
    (hudp : ∀ handle ∈ added, ∃ socket, sockets[handle]? = some (.udp socket))
    (hidentity : changed.identity = record.identity) (hhandles : changed.handles = record.handles ++ added)
    (hlocal : changed.localEndpoint = none → record.localEndpoint = none ∧ added = []) :
    Sound { s.putUdpRecord changed with sockets := sockets } := by
  have kept : ∀ {handle : Nat} {socket : NativeSocket}, s.sockets[handle]? = some socket →
      sockets[handle]? = some socket := fun {handle socket} hsocket => by
    rw [hkept handle (mem_of_getElem? hsocket), hsocket]
  have hmaps : (s.putUdpRecord changed).udpRecords =
      s.udpRecords.insert record.identity.id changed := by
    simp [putUdpRecord, hidentity]
  have hfiled := (h.filed.udp _ record hrecord).2
  refine ⟨?_, ?_, ⟨?_, ?_, ?_⟩, ?_, ?_⟩ <;> dsimp only <;> try rw [hmaps]
  · refine ⟨h.filed.tcp, h.filed.listener, h.filed.udp.insert ⟨by rw [hidentity], ?_, fun hnone => ?_⟩⟩
    · simp [hhandles, hfiled.handles]
    · obtain ⟨hopen, rfl⟩ := hlocal hnone
      rw [hhandles, List.append_nil]
      exact hfiled.unbound hopen
  · have hheld := h.handles
    rw [handles_eq_udp hrecord] at hheld
    rw [handles_insert_udp, hhandles, keySet_extends hextends, ← hheld, ← Multiset.coe_add]
    simp only [putUdpRecord]
    abel
  · intro id other hother
    obtain ⟨socket, hsocket, hidle⟩ := h.typed.tcp id other hother
    exact ⟨socket, kept hsocket, hidle⟩
  · intro id listener hid handle hhandle
    obtain ⟨socket, hsocket⟩ := h.typed.listener id listener hid handle hhandle
    exact ⟨socket, kept hsocket⟩
  · refine All.insert (fun id other hid handle hhandle => ?_) fun handle hhandle => ?_
    · obtain ⟨socket, hsocket⟩ := h.typed.udp id other hid handle hhandle
      exact ⟨socket, kept hsocket⟩
    · rw [hhandles, List.mem_append] at hhandle
      rcases hhandle with hold | hnew
      · obtain ⟨socket, hsocket⟩ := h.typed.udp _ record hrecord handle hold
        exact ⟨socket, kept hsocket⟩
      · exact hudp handle hnew
  · exact h.rostered.replaceUdp hrecord hidentity
  · exact h.queues.replaceUdp hrecord changed

theorem Sound.amendUdp (h : s.Sound) {record changed : UdpRecord}
    (hrecord : s.udpRecords[record.identity.id]? = some record)
    (hidentity : changed.identity = record.identity) (hhandles : changed.handles = record.handles)
    (hlocal : changed.localEndpoint = record.localEndpoint) : (s.putUdpRecord changed).Sound :=
  h.extendUdp hrecord ⟨List.nodup_nil, by simp, by simp⟩ (fun _ _ => rfl) (by simp) hidentity
    (by simp [hhandles]) fun hnone => ⟨hlocal ▸ hnone, rfl⟩

theorem Sound.dropUdp (h : s.Sound) {record : UdpRecord}
    (hrecord : s.udpRecords[record.identity.id]? = some record)
    (hclosed : s.socketTable.roster record.identity.id = none) : (s.dropUdp record).Sound := by
  have hbut := h.typedBut (.udp record.identity.id) (eraseAll s.sockets record.handles)
    fun handle _ hne => by
      rw [getElem?_eraseAll, if_neg]
      intro hmem
      exact hne ⟨record, hrecord, hmem⟩
  have hmem : ∀ handle ∈ record.handles, handle ∈ s.sockets := fun handle hhandle =>
    h.mem_sockets.2 ⟨_, owns_udp hrecord hhandle⟩
  have hheld := h.handles
  rw [handles_eq_udp hrecord] at hheld
  have hnodup : record.handles.Nodup := by
    have := nodup_keySet s.sockets
    rw [← hheld, Multiset.nodup_add] at this
    exact Multiset.coe_nodup.1 this.1
  rw [keySet_eraseAll hnodup hmem] at hheld
  refine ⟨⟨h.filed.tcp, h.filed.listener, h.filed.udp.erase _⟩, add_left_cancel hheld, ⟨?_, ?_, ?_⟩,
    h.rostered.eraseUdp hclosed, h.queues.eraseUdp⟩
  · exact fun id other hid => hbut.tcp id other hid (by simp)
  · exact fun id listener hid => hbut.listener id listener hid (by simp)
  · intro id other hid
    have hne : record.identity.id ≠ id := by
      rintro rfl
      simp [NativeStack.dropUdp] at hid
    refine hbut.udp id other ?_ (by simpa using hne)
    simp only [NativeStack.dropUdp] at hid
    grind

/-! ## Steps on the table and the closing index -/

theorem Sound.closeEntry (h : s.Sound) {id : Nat} (hsockets : s'.sockets = s.sockets)
    (hrecords : s'.tcpRecords = s.tcpRecords) (hlisteners : s'.tcpListeners = s.tcpListeners)
    (hudp : s'.udpRecords = s.udpRecords) (hclosing : s'.closingTcp = s.closingTcp)
    (hnext : s'.nextSocketId = s.nextSocketId)
    (hroster : s'.socketTable.roster = Function.update s.socketTable.roster id none) : s'.Sound := by
  refine ⟨?_, ?_, ?_, ?_, ?_⟩ <;> rw [hrecords, hlisteners, hudp]
  · exact h.filed
  · rw [hsockets]
    exact h.handles
  · rw [hsockets]
    exact h.typed
  · rw [hroster, hclosing, hnext]
    exact h.rostered.close
  · rw [hnext]
    exact h.queues

theorem Sound.forget (h : s.Sound) (id : Nat) : Sound { s with closingTcp := s.closingTcp.erase id } :=
  ⟨h.filed, h.handles, h.typed, h.rostered.endClosing, h.queues⟩

/-! ## Resets -/

theorem resetTarget_eq_some {packet : Packet} {failure : ConnectFailure}
    (h : s.resetTarget packet = some (record, failure)) :
    ∃ key socket, Wire.resetKey packet = some key ∧ s.tcpConnections[key]? = some record.identity ∧
      s.tcpRecord? record.identity = .ok record ∧ s.sockets[record.handle]? = some (.tcp socket) ∧
      (socket.state = .established ∧ failure = .reset ∨
        (socket.state = .synSent ∨ socket.state = .synReceived) ∧ failure = .refused) := by
  unfold resetTarget at h
  split at h
  · cases h
  · rename_i identity hidentity
    obtain ⟨key, hkey, hindex⟩ := Option.bind_eq_some_iff.1 hidentity
    split at h
    · cases h
    · rename_i found hok
      obtain ⟨-, rfl⟩ := tcpRecord?_eq_ok hok
      -- Each state that names a failure comes from the record's socket.
      have hstate : ∀ state, (s.sockets.tcp? found.handle).map TcpSocket.state = some state →
          ∃ socket, s.sockets[found.handle]? = some (.tcp socket) ∧ socket.state = state := by
        intro state hmap
        obtain ⟨socket, hsocket, hstate⟩ := Option.map_eq_some_iff.1 hmap
        exact ⟨socket, SocketSet.tcp?_eq_some.1 hsocket, hstate⟩
      split at h
      · rename_i hmap
        obtain ⟨socket, hsocket, hstate⟩ := hstate _ hmap
        obtain ⟨rfl, rfl⟩ := Prod.mk.inj (Option.some.inj h)
        exact ⟨key, socket, hkey, hindex, hok, hsocket, .inl ⟨hstate, rfl⟩⟩
      · rename_i hmap
        obtain ⟨socket, hsocket, hstate⟩ := hstate _ hmap
        obtain ⟨rfl, rfl⟩ := Prod.mk.inj (Option.some.inj h)
        exact ⟨key, socket, hkey, hindex, hok, hsocket, .inr ⟨.inl hstate, rfl⟩⟩
      · rename_i hmap
        obtain ⟨socket, hsocket, hstate⟩ := hstate _ hmap
        obtain ⟨rfl, rfl⟩ := Prod.mk.inj (Option.some.inj h)
        exact ⟨key, socket, hkey, hindex, hok, hsocket, .inr ⟨.inr hstate, rfl⟩⟩
      · cases h

/-! ## All steps -/

theorem Sound.driveStep {label : StepLabel} (h : s.Sound) (hstep : DriveStep s label s') : s'.Sound := by
  cases hstep with
  | tick t hid _ => exact h.inert ⟨rfl, rfl, rfl, rfl, rfl, rfl, hid⟩
  | wake key => exact h.inert (s.undisturbed_wake key).inert
  | native hshape _ => exact h.native hshape
  | ingest packet hshape _ _ hrecords =>
      cases hrecords with
      | unnamed _ => exact h.native hshape
      | standing _ _ _ => exact h.native hshape
      | @failed record failure _ htarget _ _ =>
          obtain ⟨-, -, -, -, hok, -⟩ := resetTarget_eq_some htarget
          exact (h.native hshape).amend (tcpRecord?_eq_ok hok).1 (amends_phase record (.failed failure) rfl)
  | device device => exact h.inert ⟨rfl, rfl, rfl, rfl, rfl, rfl, le_rfl⟩
  | amend hrecord hchanged _ _ => exact h.amend hrecord hchanged
  | expire hrecord _ _ _ _ =>
      exact (h.setDeadline hrecord none).inert ⟨rfl, rfl, rfl, rfl, rfl, rfl, le_rfl⟩
  | reap hrecord hclosing _ _ _ => exact (h.dropRecord hrecord (h.rostered.closing _ hclosing)).unclose _
  | forget _ => exact h.forget _
  | @promote listener handle child socket localEndpoint remote hlistener hpool _ _ _ _ hid =>
      have hpromoted : (s.promoted listener handle child localEndpoint remote).Sound :=
        h.promote hlistener hpool hid
      exact hpromoted.inert (undisturbed_markListenerReady _ _).inert
  | recycle hlistener hpool => exact h.recycle hlistener hpool

theorem Sound.step {label : StepLabel} (h : s.Sound) (hstep : Step s label s') : s'.Sound := by
  cases hstep with
  | drive hstep => exact h.driveStep hstep
  | finish result effects _ => exact h.inert (inert_finish result effects _ s)
  | install hinstall _ _ => exact h.inert (undisturbed_install hinstall _).inert
  | abort habort => exact h.inert (inert_abort habort _ _)
  | cancel hcancel _ _ => exact h.inert (undisturbed_cancel hcancel _).inert
  | close hclose =>
      obtain ⟨entry, hlookup, rfl, rfl⟩ := SocketTable.close_ok hclose
      exact h.closeEntry rfl rfl rfl rfl rfl rfl (SocketTable.roster_erase rfl)
  | openTcp hid hrcvbuf hsndbuf _ _ _ => exact h.openTcp hid hrcvbuf hsndbuf
  | openUdp hid _ _ _ => exact h.openUdp hid
  | allocate _ _ => exact h.inert ⟨rfl, rfl, rfl, rfl, rfl, rfl, le_rfl⟩
  | allocateUdp _ _ => exact h.inert ⟨rfl, rfl, rfl, rfl, rfl, rfl, le_rfl⟩
  | bind endpoint scopeId _ hrecord hphase hport _ _ _ =>
      exact (h.bind scopeId hrecord hphase hport).inert ⟨rfl, rfl, rfl, rfl, rfl, rfl, le_rfl⟩
  | connect scopeId hrecord _ hsocket _ _ _ _ _ _ _ _ _ =>
      exact (h.connect scopeId hrecord hsocket).inert ⟨rfl, rfl, rfl, rfl, rfl, rfl, le_rfl⟩
  | listen hrecord hphase hextends hkept hpool htcp hidentity haccepted hrcvbuf hsndbuf hlocal haddress
      hport =>
      have hvalid := (h.filed.tcp _ _ hrecord).2
      obtain ⟨endpoint, hendpoint, hne⟩ := hvalid.bound hphase
      obtain rfl := Option.some.inj (hlocal.symm.trans hendpoint)
      refine h.listen hrecord (by rw [hphase]; rfl) hextends hkept hpool ?_ hidentity haccepted
        ⟨hrcvbuf ▸ hvalid.rcvbuf, hsndbuf ▸ hvalid.sndbuf, hport ▸ hne, hne, haddress⟩
      intro handle hhandle
      obtain ⟨socket, hsocket, -⟩ := htcp handle hhandle
      exact ⟨socket, hsocket⟩
  | accept hlistener haccepted =>
      exact (h.accept hlistener haccepted).inert ⟨rfl, rfl, rfl, rfl, rfl, rfl, le_rfl⟩
  | amendListener hlistener hchanged => exact h.amendListener hlistener hchanged
  | startClose deadline hrecord _ hclosed _ _ =>
      exact h.startClose deadline hrecord (SocketTable.roster_eq_none.2 hclosed)
  | dropRecord hrecord hclosed => exact h.dropRecord hrecord (SocketTable.roster_eq_none.2 hclosed)
  | unclose record _ => exact h.unclose record
  | dropListener hlistener hclosed =>
      exact h.dropListener hlistener (SocketTable.roster_eq_none.2 hclosed)
  | dropUdp hrecord hclosed => exact h.dropUdp hrecord (SocketTable.roster_eq_none.2 hclosed)
  | amendUdp hrecord hidentity hhandles _ hlocal => exact h.amendUdp hrecord hidentity hhandles hlocal
  | extendUdp _ hrecord hextends hkept hudp hidentity hhandles _ _ hlocal _ _ _ _ =>
      have hextended := h.extendUdp hrecord hextends hkept hudp hidentity hhandles
        fun hnone => by rw [hlocal] at hnone; cases hnone
      exact hextended.inert ⟨rfl, rfl, rfl, rfl, rfl, rfl, le_rfl⟩
  | beginShutdown reason => exact h.inert ⟨rfl, rfl, rfl, rfl, rfl, rfl, le_rfl⟩
  | closeNext _ _ hlookup => exact h.closeEntry rfl rfl rfl rfl rfl rfl (SocketTable.roster_erase rfl)
  | dropConnection key _ => exact h.inert ⟨rfl, rfl, rfl, rfl, rfl, rfl, le_rfl⟩
  | dropDeadline deadline _ => exact h.inert ⟨rfl, rfl, rfl, rfl, rfl, rfl, le_rfl⟩
  | endShutdown _ => exact h.inert ⟨rfl, rfl, rfl, rfl, rfl, rfl, le_rfl⟩

/-- A new stack owns nothing. -/
theorem Sound.new {limits : Limits} {config : StackConfig} {id generation : Nat}
    (h : NativeStack.new limits config id generation = .ok s) : s.Sound := by
  unfold NativeStack.new at h
  split at h
  · simp at h
  · split at h
    · simp at h
    · obtain rfl := Except.ok.inj h
      refine ⟨⟨all_empty _, all_empty _, all_empty _⟩, ?_, ⟨all_empty _, all_empty _, all_empty _⟩,
        ⟨?_, ?_, ?_, ?_, ?_⟩, ⟨?_, ?_⟩⟩
      · simp [Ownership.handles, tcpHandles, poolHandles, udpHandles]
      · intro id generation kind lifecycle hroster
        simp [SocketTable.roster, SocketTable.new] at hroster
      · simp
      · simp
      · intro id _
        simp [SocketTable.roster, SocketTable.new]
      · simp
      · simp [queued]
      · simp [queued]

end SmolNet.NativeStack
