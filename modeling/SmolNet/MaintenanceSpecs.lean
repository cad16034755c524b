import SmolNet.AccessSpecs
import SmolNet.Paths

/-!
# The sweeps are paths of steps

Neither sweep panics on a sound stack, neither touches the device, and what each does is a sequence
of drive steps.
-/

namespace SmolNet.NativeStack

open Std Program TreeMap Ownership

variable {ε : Type} {s : NativeStack} {E : ε → NativeStack → Prop} {handle : Nat}
  {socket changed : TcpSocket}

/-- A sequence of drive steps that leaves the device alone. -/
structure Maintains (s s' : NativeStack) : Prop where
  path : DrivePath s s'
  device : s'.device = s.device

namespace Maintains

theorem refl (s : NativeStack) : Maintains s s := ⟨.refl s, rfl⟩

theorem trans {s t u : NativeStack} (h : Maintains s t) (h' : Maintains t u) : Maintains s u :=
  ⟨h.path.trans h'.path, h'.device.trans h.device⟩

theorem tick {s s' : NativeStack} (h : s.retimed s' = s') (hid : s.nextSocketId ≤ s'.nextSocketId)
    (hworld : s.world.Continues s'.world) : Maintains s s' :=
  ⟨.tick h hid hworld, by rw [← h]; rfl⟩

theorem spend (s : NativeStack) : Maintains s { s with callBudget := s.callBudget.checkpoint.2 } :=
  .tick rfl le_rfl (.of_polls rfl rfl)

theorem step {s s' : NativeStack} {label : StepLabel} (h : DriveStep s label s')
    (hdevice : s'.device = s.device) : Maintains s s' := ⟨.single h, hdevice⟩

theorem wakeAll (s : NativeStack) (keys : List ReadyKey) : Maintains s (s.wakeAll keys) :=
  ⟨.wakeAll s keys, (s.undisturbed_wakeAll keys).device⟩

theorem requestListenerScan (s : NativeStack) : Maintains s s.requestListenerScan := by
  refine ⟨.requestListenerScan s, ?_⟩
  unfold NativeStack.requestListenerScan
  split
  · rfl
  · split <;> rfl

theorem requestClosingCleanup (s : NativeStack) : Maintains s s.requestClosingCleanup := by
  refine ⟨.requestClosingCleanup s, ?_⟩
  unfold NativeStack.requestClosingCleanup
  split
  · rfl
  · split <;> rfl

theorem sound {s s' : NativeStack} (h : Maintains s s') (hs : s.Sound) : s'.Sound := h.path.sound hs

end Maintains

/-! ## Native changes -/

/-- Changing one TCP socket reshapes, if it is closed afterwards where a record that is not
connected yet owns it. -/
theorem Sound.reshapes_insert (hs : s.Sound) (hsocket : s.sockets[handle]? = some (.tcp socket))
    (hshape : (NativeSocket.tcp socket).SameShape (.tcp changed))
    (hidle : ∀ (id : Nat) (record : TcpRecord), s.tcpRecords[id]? = some record →
      record.phase.idle = true → record.handle = handle → changed.state = .closed) :
    s.Reshapes (s.sockets.insert handle (.tcp changed)) := by
  refine ⟨fun other => ?_, fun id record other hrecord hphase hother => ?_⟩
  · rw [ExtTreeMap.getElem?_insert]
    by_cases hne : handle = other
    · subst hne
      simpa [hsocket] using Option.Rel.some hshape
    · simp only [Std.compare_eq_iff_eq, hne, if_false]
      generalize s.sockets[other]? = x
      cases x with
      | none => exact .none
      | some x => cases x <;> exact .some (by simp [NativeSocket.SameShape])
  · rw [ExtTreeMap.getElem?_insert] at hother
    split at hother
    · rename_i heq
      simp only [Option.some.injEq, NativeSocket.tcp.injEq] at hother
      subst hother
      exact hidle id record hrecord hphase (Std.compare_eq_iff_eq.1 heq).symm
    · obtain ⟨old, hold, hclosed⟩ := hs.typed.tcp id record hrecord
      rw [hold] at hother
      simp only [Option.some.injEq, NativeSocket.tcp.injEq] at hother
      subst hother
      exact hclosed hphase

/-- A change that leaves a closed socket closed. -/
theorem Sound.reshapes_closed (hs : s.Sound) (hsocket : s.sockets[handle]? = some (.tcp socket))
    (hshape : (NativeSocket.tcp socket).SameShape (.tcp changed))
    (hclosed : socket.state = .closed → changed.state = .closed) :
    s.Reshapes (s.sockets.insert handle (.tcp changed)) := by
  refine hs.reshapes_insert hsocket hshape fun id record hrecord hphase hhandle => ?_
  obtain ⟨old, hold, hidle⟩ := hs.typed.tcp id record hrecord
  rw [hhandle, hsocket] at hold
  simp only [Option.some.injEq, NativeSocket.tcp.injEq] at hold
  subst hold
  exact hclosed (hidle hphase)

/-- A pool member may change state freely. -/
theorem Sound.reshapes_pool (hs : s.Sound) {id handle : Nat} {listener : ListenerRecord}
    (hlistener : s.tcpListeners[id]? = some listener) (hpool : handle ∈ listener.pool)
    (hsocket : s.sockets[handle]? = some (.tcp socket))
    (hshape : (NativeSocket.tcp socket).SameShape (.tcp changed)) :
    s.Reshapes (s.sockets.insert handle (.tcp changed)) := by
  refine hs.reshapes_insert hsocket hshape fun other record hrecord _ hhandle => ?_
  subst hhandle
  have howner := hs.unique (owns_listener hlistener hpool) (owns_tcp hrecord)
  cases howner

/-- Only one TCP socket changes, in one of the ways a socket may. -/
theorem moved_insert (hsocket : s.sockets[handle]? = some (.tcp socket))
    (hmoves : s.Moves handle socket changed) : s.Moved (s.sockets.insert handle (.tcp changed)) := by
  intro other a b ha hb
  rw [ExtTreeMap.getElem?_insert] at hb
  by_cases hne : handle = other
  · subst hne
    rw [hsocket] at ha
    simp only [Std.compare_eq_iff_eq, if_true, Option.some.injEq, NativeSocket.tcp.injEq] at ha hb
    subst ha hb
    exact hmoves
  · simp only [Std.compare_eq_iff_eq, hne, if_false] at hb
    rw [ha] at hb
    cases hb
    exact .keeps (.refl a)

/-- smoltcp's polls reshape. -/
theorem Sound.reshapes_evolves (hs : s.Sound) {sockets : SocketSet} (h : s.sockets.Evolves sockets) :
    s.Reshapes sockets := by
  refine ⟨fun handle => ?_, fun id record socket hrecord hphase hsocket => ?_⟩
  · have hrel := h handle
    generalize s.sockets[handle]? = x at *
    generalize sockets[handle]? = y at *
    cases hrel with
    | none => exact .none
    | @some a b hab =>
        refine .some ?_
        cases a <;> cases b <;> simp_all [NativeSocket.Evolves, NativeSocket.SameShape]
  · obtain ⟨old, hold, hidle⟩ := hs.typed.tcp id record hrecord
    obtain ⟨new, hnew, hevolves⟩ := h.tcp hold
    rw [hsocket] at hnew
    simp only [Option.some.injEq, NativeSocket.tcp.injEq] at hnew
    subst hnew
    exact hevolves.2.2 (hidle hphase)

/-! ## Listeners -/

/-- The state and the listener after a fresh member has joined its pool. -/
theorem wp_addListenerMember {listener : ListenerRecord} (hvalid : listener.Valid)
    {Q : ListenerRecord → NativeStack → Prop} :
    wp (addListenerMember listener : Op ε ListenerRecord) Q E s ↔
      Q { listener with pool := listener.pool.insert s.sockets.freeHandle }
        { s with
          sockets := (s.sockets.add (.tcp (freshMember listener))).2
          counters := { s.counters with listenerRefills := s.counters.listenerRefills + 1 } } := by
  have hsocket : tcpSocket listener.rcvbuf listener.sndbuf =
      .ok (.new listener.rcvbuf listener.sndbuf) := by
    simp [tcpSocket, hvalid.rcvbuf, hvalid.sndbuf]
  have hlisten : TcpSocket.listen
      { TcpSocket.new listener.rcvbuf listener.sndbuf with timeout := some connectTimeoutMillis }
      listener.listenEndpoint = .ok (freshMember listener, []) := by
    simp [TcpSocket.listen, hvalid.listenPort, TcpSocket.isOpen, TcpSocket.new, TcpSocket.reset,
      TcpSocket.wakeAll, TcpSocket.wakers, freshMember, RingBuffer.clear, RingBuffer.empty]
  unfold addListenerMember
  rw [hsocket]
  dsimp only
  rw [hlisten]
  simp only [wp_bind, wp_get, wp_set, wp_pure]
  exact Iff.rfl

theorem markListenerReady_withListeners (s : NativeStack) (identity : SocketIdentity)
    (listeners : ExtTreeMap Nat ListenerRecord) :
    { s.markListenerReady identity with tcpListeners := listeners } =
      { s with tcpListeners := listeners }.markListenerReady identity := by
  unfold markListenerReady
  dsimp only
  split
  · unfold wake
    dsimp only [logEvent]
    split <;> rfl
  · rfl

theorem markListenerReady_tcpListeners (s : NativeStack) (identity : SocketIdentity) :
    (s.markListenerReady identity).tcpListeners = s.tcpListeners := by
  unfold markListenerReady
  split
  · exact (s.undisturbed_wake _).tcpListeners
  · rfl

theorem socketBufferBytes_eq_listener {id : Nat} {listener : ListenerRecord}
    (h : s.tcpListeners[id]? = some listener) :
    s.socketBufferBytes = listener.pool.size * (listener.rcvbuf + listener.sndbuf) +
      { s with tcpListeners := s.tcpListeners.erase id }.socketBufferBytes := by
  unfold socketBufferBytes
  rw [total_eq_add_erase _ h]
  dsimp only
  omega

section

variable {id handle : Nat} {listener : ListenerRecord} (hs : s.Sound)
  (hlistener : s.tcpListeners[id]? = some listener) (hpool : handle ∈ listener.pool)
include hs hlistener hpool

/-- A recycled member, seen with its listener back in the map. -/
theorem recycleListenerMember_spec :
    wp (recycleListenerMember listener handle : Op ε ListenerRecord)
      (fun changed s' => Maintains s { s' with tcpListeners := s'.tcpListeners.insert id changed }) E
      { s with tcpListeners := s.tcpListeners.erase id } := by
  obtain ⟨hid, hvalid⟩ := hs.filed.listener id listener hlistener
  subst hid
  unfold recycleListenerMember
  rw [wp_bind, wp_removeSocket]
  refine ⟨hs.pool_mem hlistener hpool, ?_⟩
  refine (wp_addListenerMember ?_).2 ?_
  · exact ⟨hvalid.rcvbuf, hvalid.sndbuf, hvalid.listenPort, hvalid.localPort, hvalid.endpoint⟩
  dsimp only
  rw [insert_erase_self]
  refine .trans (.step (.recycle hlistener hpool) rfl) ?_
  exact .tick rfl le_rfl (.of_polls rfl rfl)

theorem overflowDrop_spec :
    wp (overflowDrop listener handle : Op ε ListenerRecord)
      (fun changed s' => Maintains s { s' with tcpListeners := s'.tcpListeners.insert id changed }) E
      { s with tcpListeners := s.tcpListeners.erase id } := by
  unfold overflowDrop
  rw [wp_bind]
  refine wp_mono (recycleListenerMember_spec hs hlistener hpool) (fun changed s' h => ?_)
    fun _ _ h => h
  simp only [wp_bind, wp_modify, wp_pure]
  exact h.trans (.tick rfl le_rfl (.of_polls rfl rfl))

/-- A promoted member, seen with its listener back in the map. -/
theorem promote_spec {socket : TcpSocket} {child : SocketIdentity} {localEndpoint remote : IpEndpoint}
    {generation : Nat} {world : World}
    (hworld : s.world.Continues world) (hsocket : s.sockets[handle]? = some (.tcp socket))
    (hstate : socket.state = .established ∨ socket.state = .closeWait)
    (htuple : socket.tuple = some (localEndpoint, remote))
    (hbacklog : listener.accepted.length < listener.backlog) (hchild : s.nextSocketId ≤ child.id)
    (hlogical : s.socketTable.len + s.closingTcp.size < s.limits.sockets)
    (hnative : s.sockets.size + 1 ≤ s.limits.sockets)
    (hbuffers : s.socketBufferBytes + (listener.rcvbuf + listener.sndbuf) ≤ maxSocketBufferBytes) :
    wp (promote listener handle child localEndpoint remote : Op ε ListenerRecord)
      (fun changed s' => Maintains s { s' with tcpListeners := s'.tcpListeners.insert id changed }) E
      { s with
        tcpListeners := s.tcpListeners.erase id
        socketTable := s.socketTable.insertEntry child .tcp
        nextSocketId := child.id + 1
        nextGeneration := generation
        world := world } := by
  obtain ⟨hid, hvalid⟩ := hs.filed.listener id listener hlistener
  subst hid
  have hmem := hs.pool_mem hlistener hpool
  unfold promote
  simp only [wp_bind, wp_get, wp_updateTcp, wp_modify]
  refine ⟨socket, hsocket, ?_⟩
  refine (wp_addListenerMember ?_).2 ?_
  · exact ⟨hvalid.rcvbuf, hvalid.sndbuf, hvalid.listenPort, hvalid.localPort, hvalid.endpoint⟩
  simp only [wp_pure]
  rw [markListenerReady_tcpListeners, markListenerReady_withListeners]
  dsimp only [wakeAll_nil, putSocket, logTuple, logPromotion]
  rw [insert_erase_self]
  -- The schedule changes first and then the member's timeout; the promotion wakes the listener.
  let timed : TcpSocket := { socket with timeout := some s.tcpTimers.userTimeout }
  let counted : NativeStack :=
    { s with
      nextGeneration := generation
      world := world
      counters := { s.counters with
        listenerRefills := s.counters.listenerRefills + 1
        listenerPromotions := s.counters.listenerPromotions + 1 } }
  have htick : Maintains s counted := .tick rfl le_rfl hworld
  have hreshape : counted.Reshapes (s.sockets.insert handle (.tcp timed)) :=
    (htick.sound hs).reshapes_closed hsocket ⟨rfl, rfl⟩ id
  have hmember : (s.sockets.insert handle (.tcp timed))[handle]? = some (.tcp timed) := by simp
  have hsize : (s.sockets.insert handle (.tcp timed)).size + 1 ≤ s.limits.sockets := by
    simpa [ExtTreeMap.size_insert, hmem] using hnative
  have hmoved : counted.Moved (s.sockets.insert handle (.tcp timed)) :=
    moved_insert hsocket (.keeps ⟨⟨rfl, rfl, rfl, rfl⟩, rfl, fun _ => rfl⟩)
  refine htick.trans (.trans (.step (.native hreshape fun _ => hmoved) rfl) ?_)
  exact .step (.promote hlistener hpool hmember hstate htuple hbacklog hchild hlogical hsize hbuffers)
    (undisturbed_markListenerReady _ _).device

theorem refreshMember_spec :
    wp (refreshMember listener handle : Op ε ListenerRecord)
      (fun changed s' => Maintains s { s' with tcpListeners := s'.tcpListeners.insert id changed }) E
      { s with tcpListeners := s.tcpListeners.erase id } := by
  obtain ⟨socket, hsocket⟩ := hs.typed.listener id listener hlistener handle hpool
  have hpromotable : ∀ localEndpoint remote (next : Except SocketError SocketIdentity → Op ε ListenerRecord),
      socket.state = .established ∨ socket.state = .closeWait →
      socket.tuple = some (localEndpoint, remote) →
      (∀ child, next (.ok child) = promote listener handle child localEndpoint remote) →
      next (.error .systemLimit) = overflowDrop listener handle →
      wp (if listener.accepted.length < listener.backlog then attempt (childIdentity listener) >>= next
        else overflowDrop listener handle : Op ε ListenerRecord)
        (fun changed s' => Maintains s { s' with tcpListeners := s'.tcpListeners.insert id changed })
        E { s with tcpListeners := s.tcpListeners.erase id } := by
    intro localEndpoint remote next hstate htuple hpromote hdrop
    rw [wp_ite]
    refine ⟨fun hbacklog => ?_, fun _ => overflowDrop_spec hs hlistener hpool⟩
    rw [wp_bind, wp_attempt]
    unfold childIdentity
    simp only [wp_bind, wp_ensureLogicalSocketCapacity, wp_ensureNativeSocketCapacity,
      wp_ensureSocketBufferCapacity]
    refine ⟨fun hlogical => ⟨fun hnative => ⟨fun hbuffers => ?_, fun _ => ?_⟩, fun _ => ?_⟩,
      fun _ => ?_⟩
    · refine wp_mono (insertSocket_spec .tcp) ?_ ?_
      · rintro child s' ⟨hchild, generation, world, hworld, rfl⟩
        have hbytes := socketBufferBytes_eq_listener hlistener
        rw [Nat.add_mul] at hbuffers
        dsimp only
        rw [hpromote]
        exact promote_spec hs hlistener hpool hworld hsocket hstate htuple hbacklog hchild hlogical hnative
          (by omega)
      · rintro e s' ⟨rfl, next, generation, world, hnext, hworld, rfl⟩
        have htick : Maintains s { s with
            nextSocketId := next, nextGeneration := generation, world := world } :=
          .tick rfl hnext hworld
        dsimp only
        rw [hdrop]
        refine wp_mono (overflowDrop_spec (htick.sound hs) hlistener hpool)
          (fun changed s' h => ?_) fun _ _ h => h
        exact htick.trans h
    all_goals
      rw [hdrop]
      exact overflowDrop_spec hs hlistener hpool
  unfold refreshMember
  rw [wp_bind, wp_getTcp]
  refine ⟨socket, hsocket, ?_⟩
  split
  · exact hpromotable _ _ _ (.inl (by assumption)) (by assumption) (fun _ => rfl) rfl
  · exact hpromotable _ _ _ (.inr (by assumption)) (by assumption) (fun _ => rfl) rfl
  · rw [wp_pure]
    dsimp only
    rw [insert_erase_self, insert_eq_self hlistener]
    exact .refl s
  · rw [wp_pure]
    dsimp only
    rw [insert_erase_self, insert_eq_self hlistener]
    exact .refl s
  · exact recycleListenerMember_spec hs hlistener hpool

end

theorem refreshListenerMember_spec (hs : s.Sound) (key : ListenerMemberKey) :
    wp (refreshListenerMember key : Op ε Unit) (fun _ s' => Maintains s s') E s := by
  unfold refreshListenerMember
  rw [wp_bind, wp_get]
  split
  · exact .refl s
  · rename_i listener hlistener
    rw [wp_ite]
    refine ⟨fun hpool => ?_, fun _ => .refl s⟩
    simp only [wp_bind, wp_set, wp_modify]
    exact refreshMember_spec hs hlistener (by simpa using hpool)

theorem refreshLoop_spec (hs : s.Sound) (keys : List ListenerMemberKey) (work : Nat)
    (last : Option ListenerMemberKey) :
    wp (refreshLoop keys work last : Op ε (Nat × Option ListenerMemberKey × Bool))
      (fun _ s' => Maintains s s') E s := by
  induction keys generalizing s work last with
  | nil => exact .refl s
  | cons key keys ih =>
      unfold refreshLoop
      have hspend := Maintains.spend s
      rw [wp_bind, wp_withinBudget, wp_ite]
      refine ⟨fun _ => ?_, fun _ => hspend⟩
      rw [wp_bind]
      refine wp_mono (refreshListenerMember_spec (hspend.sound hs) key) (fun _ t ht => ?_) fun _ _ h => h
      refine wp_mono (ih (ht.sound (hspend.sound hs)) _ _) (fun _ u hu => ?_) fun _ _ h => h
      exact hspend.trans (ht.trans hu)

theorem refreshListeners_spec (hs : s.Sound) (limit : Nat) :
    wp (refreshListeners limit : Op ε (Nat × Bool)) (fun _ s' => Maintains s s') E s := by
  unfold refreshListeners
  simp only [wp_bind, wp_get, wp_ite, wp_set, wp_pure]
  refine ⟨fun _ => .tick rfl le_rfl (.of_polls rfl rfl), fun _ => ⟨fun _ => .refl s, fun _ => ?_⟩⟩
  refine wp_mono (refreshLoop_spec hs _ _ _) (fun _ t ht => ?_) fun _ _ h => h
  refine ⟨fun _ => ?_, fun _ => ⟨fun _ => ?_, fun _ => ?_⟩⟩
  all_goals exact ht.trans (.tick rfl le_rfl (.of_polls rfl rfl))

/-! ## Sockets being closed -/

/-- Aborting a socket that is not closed. -/
theorem Sound.reshapes_abort (hs : s.Sound) {handle : Nat} {socket : TcpSocket}
    (hsocket : s.sockets[handle]? = some (.tcp socket)) :
    s.Reshapes (s.sockets.insert handle (.tcp socket.abort.1)) :=
  hs.reshapes_closed hsocket ⟨rfl, rfl⟩ fun _ => rfl

theorem removeTcpSocket_state (record : TcpRecord) {Q : Unit → NativeStack → Prop} :
    wp (removeTcpSocket record : Op ε Unit) Q E s ↔
      record.handle ∈ s.sockets ∧
        Q () ((s.dropRecord record).unclose record).requestListenerScan := by
  unfold removeTcpSocket
  simp only [wp_bind, wp_removeSocket, wp_modify]
  exact Iff.rfl

/-- Visiting one socket of the close sweep leaves the others in the sweep. -/
structure Reaps (id : Nat) (s s' : NativeStack) : Prop where
  maintains : Maintains s s'
  others : ∀ other, other ≠ id → other ∈ s.closingTcp → other ∈ s'.closingTcp

theorem Reaps.of_closingTcp {id : Nat} {s s' : NativeStack} (h : Maintains s s')
    (hclosing : s'.closingTcp = s.closingTcp) : Reaps id s s' :=
  ⟨h, fun _ _ hother => by rwa [hclosing]⟩

theorem requestListenerScan_closingTcp (s : NativeStack) :
    s.requestListenerScan.closingTcp = s.closingTcp := by
  unfold requestListenerScan
  split
  · rfl
  · split <;> rfl

theorem reapOne_spec (hs : s.Sound) (now : Instant) (id : Nat) (hclosing : id ∈ s.closingTcp) :
    wp (reapOne now id : Op ε Unit) (fun _ s' => Reaps id s s') E s := by
  unfold reapOne
  rw [wp_bind, wp_get]
  split
  · rename_i hrecord
    refine ⟨.step (.forget hrecord) rfl, fun other hne hother => ?_⟩
    simp [hother, hne.symm]
  · rename_i record hrecord
    obtain ⟨hid, -⟩ := hs.filed.tcp id record hrecord
    subst hid
    obtain ⟨socket, hsocket, -⟩ := hs.typed.tcp _ record hrecord
    rw [wp_bind, wp_getTcp]
    refine ⟨socket, hsocket, ?_⟩
    rw [wp_ite]
    refine ⟨fun hended => ?_, fun _ => ?_⟩
    · rw [removeTcpSocket_state]
      refine ⟨hs.mem_sockets.2 ⟨_, owns_tcp hrecord⟩,
        .trans (.step (.reap hrecord hclosing hsocket hended.1 hended.2) rfl) (.requestListenerScan _),
        fun other hne hother => ?_⟩
      rw [requestListenerScan_closingTcp]
      simp [unclose, dropRecord, removeTcpRecord, hother, hne.symm]
    · split
      · exact .of_closingTcp (.refl s) rfl
      · rename_i deadline hdeadline
        rw [wp_ite]
        refine ⟨fun _ => ?_, fun _ => .of_closingTcp (.refl s) rfl⟩
        -- Whatever the abort left, the record loses its deadline.
        have hexpire : ∀ (t : NativeStack) (left : TcpSocket), Maintains s t →
            t.tcpRecords = s.tcpRecords → t.closingTcp = s.closingTcp →
            t.sockets[record.handle]? = some (.tcp left) → left.state = .closed →
            Reaps record.identity.id s { t with
              closingDeadlines := t.closingDeadlines.erase (deadline, record.identity.id)
              tcpRecords := t.tcpRecords.insert record.identity.id
                { record with closeDeadline := none } } := by
          intro t left ht hrecords hclosingEq hleft hstate
          refine .of_closingTcp (ht.trans (.step (.expire ?_ ?_ hdeadline hleft hstate) rfl)) hclosingEq
          · rw [hrecords]
            exact hrecord
          · rw [hclosingEq]
            exact hclosing
        simp only [wp_bind, wp_ite, wp_updateTcp, wp_modify]
        refine ⟨fun _ => ⟨socket, hsocket, ?_⟩, fun hstate =>
          hexpire s socket (.refl s) rfl rfl hsocket (not_not.1 hstate)⟩
        have hgone := SocketTable.roster_eq_none.1 (hs.rostered.closing _ hclosing)
        have hmoved := moved_insert hsocket (.aborts hrecord rfl hgone (rfl : socket.abort.1.state = _))
        have habort : Maintains s (s.putSocket record.handle (.tcp socket.abort.1)) :=
          .step (.native (hs.reshapes_abort hsocket) fun _ => hmoved) rfl
        have hsame := undisturbed_wakeAll (s.putSocket record.handle (.tcp socket.abort.1))
          socket.abort.2
        refine hexpire _ socket.abort.1 (habort.trans (.wakeAll _ socket.abort.2)) hsame.tcpRecords
          hsame.closingTcp ?_ rfl
        rw [hsame.sockets]
        exact ExtTreeMap.getElem?_insert_self

theorem reapLoop_spec (hs : s.Sound) (now : Instant) {ids : List Nat} (hnodup : ids.Nodup)
    (hclosing : ∀ id ∈ ids, id ∈ s.closingTcp) (work : Nat) (last : Option Nat) :
    wp (reapLoop now ids work last : Op ε (Nat × Option Nat × Bool)) (fun _ s' => Maintains s s') E
      s := by
  induction ids generalizing s work last with
  | nil => exact .refl s
  | cons id ids ih =>
      obtain ⟨hnotin, hnodup⟩ := List.nodup_cons.1 hnodup
      unfold reapLoop
      have hspend := Maintains.spend s
      rw [wp_bind, wp_withinBudget, wp_ite]
      refine ⟨fun _ => ?_, fun _ => hspend⟩
      rw [wp_bind]
      refine wp_mono (reapOne_spec (hspend.sound hs) now id (hclosing id (by simp)))
        (fun _ t ht => ?_) fun _ _ h => h
      have hrest : ∀ other ∈ ids, other ∈ t.closingTcp := fun other hother =>
        ht.others other (fun heq => hnotin (heq ▸ hother)) (hclosing other (by simp [hother]))
      refine wp_mono (ih (ht.maintains.sound (hspend.sound hs)) hnodup hrest _ _)
        (fun _ u hu => ?_) fun _ _ h => h
      exact hspend.trans (ht.maintains.trans hu)

theorem reapClosingTcp_spec (hs : s.Sound) (now : Instant) (limit : Nat) :
    wp (reapClosingTcp now limit : Op ε (Nat × Bool)) (fun _ s' => Maintains s s') E s := by
  unfold reapClosingTcp
  simp only [wp_bind, wp_get, wp_ite, wp_set, wp_pure]
  refine ⟨fun _ => .tick rfl le_rfl (.of_polls rfl rfl), fun _ => ⟨fun _ => .refl s, fun _ => ?_⟩⟩
  have hnodup : (s.closingTcp.toList.filter fun id =>
      s.closingSweepCursor.all fun cursor => cursor < id).Nodup :=
    (ExtTreeSet.distinct_toList.imp fun h => by simpa using h).filter _
  refine wp_mono (reapLoop_spec hs now (hnodup.sublist (List.take_sublist _ _)) ?_ _ _)
    (fun _ t ht => ?_) fun _ _ h => h
  · intro id hid
    have hid := List.mem_of_mem_filter (List.mem_of_mem_take hid)
    exact ExtTreeSet.mem_toList.1 hid
  refine ⟨fun _ => ?_, fun _ => ⟨fun _ => ?_, fun _ => ⟨fun _ => ?_, fun _ => ?_⟩⟩⟩
  all_goals exact ht.trans (.tick rfl le_rfl (.of_polls rfl rfl))

end SmolNet.NativeStack
