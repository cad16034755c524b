import SmolNet.ShutdownSpecs

/-!
# The caps on sockets and buffers

How many native sockets a stack has, and how many bytes their buffers take, are both sums over the
records: what one socket of a record costs, times the sockets the record owns.  Every step either
adds to no such sum or has checked the cap before it does.
-/

namespace SmolNet.NativeStack

open Std TreeMap Ownership

variable {s s' : NativeStack}

/-- The sum over all native sockets of a cost: `tcp` of the buffer sizes for a TCP socket, `udp`
for a UDP socket. -/
def load (tcp : Nat → Nat → Nat) (udp : Nat) (s : NativeStack) : Nat :=
  total (fun record : TcpRecord => tcp record.rcvbuf record.sndbuf) s.tcpRecords +
    total (fun listener : ListenerRecord => listener.pool.size * tcp listener.rcvbuf listener.sndbuf)
      s.tcpListeners +
    total (fun record : UdpRecord => record.handles.length * udp) s.udpRecords

theorem socketBufferBytes_eq_load (s : NativeStack) :
    s.socketBufferBytes = s.load (· + ·) udpBufferBytes := rfl

/-- Counting the handles of the records counts the native sockets. -/
theorem Sound.size_eq_load (h : s.Sound) : s.sockets.size = s.load (fun _ _ => 1) 1 := by
  rw [← card_keySet, ← h.handles]
  simp [Ownership.handles, tcpHandles, poolHandles, udpHandles, load, total, Multiset.card_bind,
    Function.comp_def]

/-! ## How the load changes -/

section

variable (tcp : Nat → Nat → Nat) (udp : Nat)

theorem load_congr (hrecords : s'.tcpRecords = s.tcpRecords) (hlisteners : s'.tcpListeners = s.tcpListeners)
    (hudp : s'.udpRecords = s.udpRecords) : s'.load tcp udp = s.load tcp udp := by
  unfold load
  rw [hrecords, hlisteners, hudp]

theorem load_inert (h : Inert s s') : s'.load tcp udp = s.load tcp udp :=
  load_congr tcp udp h.tcpRecords h.tcpListeners h.udpRecords

theorem load_putRecord (changed : TcpRecord) {record : TcpRecord}
    (h : s.tcpRecords[record.identity.id]? = some record) (hidentity : changed.identity = record.identity)
    (hrcvbuf : changed.rcvbuf = record.rcvbuf) (hsndbuf : changed.sndbuf = record.sndbuf) :
    (s.putRecord changed).load tcp udp = s.load tcp udp := by
  unfold load putRecord
  dsimp only
  rw [hidentity, total_insert_same h (by rw [hrcvbuf, hsndbuf])]

theorem load_dropRecord (s : NativeStack) (record : TcpRecord) :
    (s.dropRecord record).load tcp udp ≤ s.load tcp udp := by
  have hle := total_erase_le (fun record : TcpRecord => tcp record.rcvbuf record.sndbuf) s.tcpRecords
    record.identity.id
  unfold load
  dsimp only [NativeStack.dropRecord, removeTcpRecord]
  omega

theorem load_putListener (changed : ListenerRecord) {listener : ListenerRecord}
    (h : s.tcpListeners[listener.identity.id]? = some listener)
    (hidentity : changed.identity = listener.identity) (hpool : changed.pool.size = listener.pool.size)
    (hrcvbuf : changed.rcvbuf = listener.rcvbuf) (hsndbuf : changed.sndbuf = listener.sndbuf) :
    (s.putListener changed).load tcp udp = s.load tcp udp := by
  unfold load putListener
  dsimp only
  rw [hidentity, total_insert_same h (by rw [hpool, hrcvbuf, hsndbuf])]

theorem load_dropListener (s : NativeStack) (listener : ListenerRecord) :
    (s.dropListener listener).load tcp udp ≤ s.load tcp udp := by
  have hle := total_erase_le
    (fun listener : ListenerRecord => listener.pool.size * tcp listener.rcvbuf listener.sndbuf)
    s.tcpListeners listener.identity.id
  unfold load
  dsimp only [NativeStack.dropListener]
  omega

theorem load_dropUdp (s : NativeStack) (record : UdpRecord) :
    (s.dropUdp record).load tcp udp ≤ s.load tcp udp := by
  have hle := total_erase_le (fun record : UdpRecord => record.handles.length * udp) s.udpRecords
    record.identity.id
  unfold load
  dsimp only [NativeStack.dropUdp]
  omega

/-- Refilling keeps the size of a pool. -/
theorem size_refilled {listener : ListenerRecord} {handle : Nat} (hpool : handle ∈ listener.pool)
    {sockets : SocketSet} (hsockets : ∀ other ∈ listener.pool, other ≠ handle → other ∈ sockets) :
    (refilled sockets listener handle).pool.size = listener.pool.size := by
  have hfresh : sockets.freeHandle ∉ listener.pool.erase handle := by
    intro hin
    have hmember : sockets.freeHandle ∈ listener.pool ∧ sockets.freeHandle ≠ handle := by grind
    exact SocketSet.freeHandle_not_mem sockets (hsockets _ hmember.1 hmember.2)
  have hcards := congrArg Multiset.card (elems_refilled hpool hfresh)
  simpa [refilled] using hcards

theorem Sound.load_recycled (h : s.Sound) {listener : ListenerRecord} {handle : Nat}
    (hlistener : s.tcpListeners[listener.identity.id]? = some listener) (hpool : handle ∈ listener.pool) :
    (s.recycled listener handle).load tcp udp = s.load tcp udp := by
  refine load_putListener tcp udp (refilled (s.sockets.erase handle) listener handle) hlistener rfl
    (size_refilled hpool fun other hother hne => ?_) rfl rfl
  have hmem := h.pool_mem hlistener hother
  simp [Ne.symm hne, hmem]

/-- A promoted connection adds the cost of one socket: the pool is refilled. -/
theorem Sound.load_promoted (h : s.Sound) {listener : ListenerRecord} {handle : Nat}
    {child : SocketIdentity} {localEndpoint remote : IpEndpoint}
    (hlistener : s.tcpListeners[listener.identity.id]? = some listener) (hpool : handle ∈ listener.pool)
    (hid : s.nextSocketId ≤ child.id) :
    (s.promoted listener handle child localEndpoint remote).load tcp udp =
      s.load tcp udp + tcp listener.rcvbuf listener.sndbuf := by
  have hsize : (refilled s.sockets listener handle).pool.size = listener.pool.size :=
    size_refilled hpool fun other hother _ => h.pool_mem hlistener hother
  have hnone : s.tcpRecords[child.id]? = none := by
    simpa using (h.rostered.fresh child.id hid).1
  unfold load promoted
  dsimp only [enroll]
  rw [total_insert_of_none _ hnone, total_insert_same hlistener (by dsimp only; rw [hsize]; rfl)]
  dsimp only [TcpRecord.ofAccepted]
  omega

end

/-! ## The caps -/

/-- The caps on logical sockets, native sockets and buffer bytes. -/
structure Capped (s : NativeStack) : Prop where
  logical : s.LogicalCap
  native : s.load (fun _ _ => 1) 1 ≤ s.limits.sockets
  buffers : s.load (· + ·) udpBufferBytes ≤ maxSocketBufferBytes

namespace Capped

/-- Where no sum grows, no cap is exceeded. -/
theorem shrink (h : s.Capped) (hlimits : s'.limits = s.limits)
    (hlogical : s'.socketTable.len + s'.closingTcp.size ≤ s.socketTable.len + s.closingTcp.size)
    (hload : ∀ (tcp : Nat → Nat → Nat) (udp : Nat), s'.load tcp udp ≤ s.load tcp udp) : s'.Capped := by
  refine ⟨?_, ?_, (hload _ _).trans h.buffers⟩
  · unfold LogicalCap
    rw [hlimits]
    exact hlogical.trans h.logical
  · rw [hlimits]
    exact (hload _ _).trans h.native

theorem inert (h : s.Capped) (hlimits : s'.limits = s.limits) (hinert : Inert s s') : s'.Capped := by
  refine h.shrink hlimits ?_ fun tcp udp => (load_inert tcp udp hinert).le
  rw [SocketTable.len_eq_of_roster hinert.roster, hinert.closingTcp]

end Capped

/-- A new entry fits below the cap on logical sockets. -/
theorem len_enroll_le (s : NativeStack) (identity : SocketIdentity) (kind : SocketKind)
    (h : s.socketTable.len + s.closingTcp.size < s.limits.sockets) :
    (s.enroll identity kind).socketTable.len + s.closingTcp.size ≤ s.limits.sockets := by
  have hlen : (s.enroll identity kind).socketTable.len ≤ s.socketTable.len + 1 :=
    ExtTreeMap.size_insert_le
  omega

theorem Capped.driveStep (h : s.Capped) (hs : s.Sound) {label : StepLabel}
    (hstep : DriveStep s label s') : s'.Capped := by
  cases hstep with
  | tick t hid _ => exact h.inert rfl ⟨rfl, rfl, rfl, rfl, rfl, rfl, hid⟩
  | wake key => exact h.inert (s.undisturbed_wake key).limits (s.undisturbed_wake key).inert
  | native _ _ => exact ⟨h.logical, h.native, h.buffers⟩
  | ingest packet _ _ _ hrecords =>
      cases hrecords with
      | unnamed _ => exact ⟨h.logical, h.native, h.buffers⟩
      | standing _ _ _ => exact ⟨h.logical, h.native, h.buffers⟩
      | @failed record failure _ htarget _ _ =>
          obtain ⟨-, -, -, -, hok, -⟩ := resetTarget_eq_some htarget
          refine h.shrink rfl le_rfl fun tcp udp => Nat.le_of_eq ?_
          exact load_putRecord tcp udp { record with phase := .failed failure } (tcpRecord?_eq_ok hok).1 rfl rfl rfl
  | device device => exact ⟨h.logical, h.native, h.buffers⟩
  | amend hrecord hchanged _ _ =>
      refine h.shrink rfl le_rfl fun tcp udp => Nat.le_of_eq ?_
      exact load_putRecord tcp udp _ hrecord hchanged.identity hchanged.rcvbuf hchanged.sndbuf
  | @expire record _ _ hrecord _ _ _ _ =>
      refine h.shrink rfl le_rfl fun tcp udp => Nat.le_of_eq ?_
      exact load_putRecord tcp udp { record with closeDeadline := none } hrecord rfl rfl rfl
  | reap _ _ _ _ _ =>
      refine h.shrink rfl ?_ fun tcp udp => load_dropRecord tcp udp s _
      exact Nat.add_le_add_left ExtTreeSet.size_erase_le _
  | forget _ =>
      refine h.shrink rfl ?_ fun tcp udp => le_rfl
      exact Nat.add_le_add_left ExtTreeSet.size_erase_le _
  | @promote listener handle child socket localEndpoint remote hlistener hpool _ _ _ _ hid hlogical hnative
      hbuffers =>
      have hload : ∀ tcp udp, (s.promoted listener handle child localEndpoint remote).load tcp udp =
          s.load tcp udp + tcp listener.rcvbuf listener.sndbuf :=
        fun tcp udp => hs.load_promoted tcp udp hlistener hpool hid
      have hpromoted : (s.promoted listener handle child localEndpoint remote).Capped := by
        refine ⟨?_, ?_, ?_⟩
        · exact len_enroll_le s child .tcp hlogical
        · rw [hload, ← hs.size_eq_load]
          exact hnative
        · rw [hload, ← socketBufferBytes_eq_load]
          exact hbuffers
      have hmarked := undisturbed_markListenerReady
        (s.promoted listener handle child localEndpoint remote) listener.identity
      exact hpromoted.inert hmarked.limits hmarked.inert
  | recycle hlistener hpool =>
      exact h.shrink rfl le_rfl fun tcp udp => (hs.load_recycled tcp udp hlistener hpool).le

/-- A record that joins adds its own cost. -/
theorem load_insertTcp (tcp : Nat → Nat → Nat) (udp : Nat) {record : TcpRecord} {id : Nat}
    (hnone : s.tcpRecords[id]? = none) (hrecords : s'.tcpRecords = s.tcpRecords.insert id record)
    (hlisteners : s'.tcpListeners = s.tcpListeners) (hudp : s'.udpRecords = s.udpRecords) :
    s'.load tcp udp = s.load tcp udp + tcp record.rcvbuf record.sndbuf := by
  unfold load
  rw [hrecords, hlisteners, hudp, total_insert_of_none _ hnone]
  omega

/-- A UDP record that joins adds the cost of its sockets. -/
theorem load_insertUdp (tcp : Nat → Nat → Nat) (udp : Nat) {record : UdpRecord} {id : Nat}
    (hnone : s.udpRecords[id]? = none) (hrecords : s'.tcpRecords = s.tcpRecords)
    (hlisteners : s'.tcpListeners = s.tcpListeners) (hudp : s'.udpRecords = s.udpRecords.insert id record) :
    s'.load tcp udp = s.load tcp udp + record.handles.length * udp := by
  unfold load
  rw [hrecords, hlisteners, hudp, total_insert_of_none _ hnone]
  omega

/-- A UDP record adds the cost of the sockets it gets. -/
theorem load_extendUdp (tcp : Nat → Nat → Nat) (udp : Nat) {record changed : UdpRecord} (added : List Nat)
    (hrecord : s.udpRecords[record.identity.id]? = some record)
    (hidentity : changed.identity = record.identity) (hhandles : changed.handles = record.handles ++ added) :
    (s.putUdpRecord changed).load tcp udp = s.load tcp udp + added.length * udp := by
  unfold load putUdpRecord
  dsimp only
  rw [hidentity, total_insert, hhandles, List.length_append,
    total_eq_add_erase (fun record : UdpRecord => record.handles.length * udp) hrecord]
  ring

/-- A new pool has the record's own socket and those added. -/
theorem size_newPool {pool : ExtTreeSet Nat} {handle : Nat} {added : List Nat} (hnodup : added.Nodup)
    (hnew : handle ∉ added) (hpool : ∀ other, other ∈ pool ↔ other = handle ∨ other ∈ added) :
    pool.size = added.length + 1 := by
  have helems : elems pool = ((handle :: added : List Nat) : Multiset Nat) := by
    refine (Multiset.Nodup.ext (nodup_elems _) ?_).2 fun other => ?_
    · exact Multiset.coe_nodup.2 (List.nodup_cons.2 ⟨hnew, hnodup⟩)
    · rw [mem_elems, hpool, Multiset.mem_coe, List.mem_cons]
  rw [← card_elems, helems]
  rfl

/-- A listener's pool costs what its record did and the sockets added. -/
theorem Sound.load_listen (h : s.Sound) (tcp : Nat → Nat → Nat) (udp : Nat) {record : TcpRecord}
    {listener : ListenerRecord} {sockets : SocketSet} {added : List Nat}
    (hrecord : s.tcpRecords[record.identity.id]? = some record)
    (hidentity : listener.identity = record.identity) (hpool : listener.pool.size = added.length + 1)
    (hrcvbuf : listener.rcvbuf = record.rcvbuf) (hsndbuf : listener.sndbuf = record.sndbuf) :
    load tcp udp { (s.removeTcpRecord record).putListener listener with sockets := sockets } =
      s.load tcp udp + added.length * tcp record.rcvbuf record.sndbuf := by
  have hnone : s.tcpListeners[listener.identity.id]? = none := by
    rw [hidentity]
    simpa using (h.rostered.tcp_apart _ (mem_of_getElem? hrecord)).1
  unfold load
  dsimp only [putListener, removeTcpRecord]
  rw [total_insert_of_none _ hnone, hpool, hrcvbuf, hsndbuf,
    total_eq_add_erase (fun record : TcpRecord => tcp record.rcvbuf record.sndbuf) hrecord]
  ring

/-- A step that has checked the caps before it adds `count` sockets of one kind. -/
theorem Capped.grow (count cost : Nat) (hs : s.Sound) (hlimits : s'.limits = s.limits)
    (hlogical : s'.socketTable.len + s'.closingTcp.size ≤ s.limits.sockets)
    (hcount : s'.load (fun _ _ => 1) 1 = s.load (fun _ _ => 1) 1 + count)
    (hbytes : s'.load (· + ·) udpBufferBytes = s.load (· + ·) udpBufferBytes + cost)
    (hnative : s.sockets.size + count ≤ s.limits.sockets)
    (hbuffers : s.socketBufferBytes + cost ≤ maxSocketBufferBytes) : s'.Capped := by
  refine ⟨?_, ?_, ?_⟩
  · unfold LogicalCap
    rw [hlimits]
    exact hlogical
  · rw [hlimits, hcount, ← hs.size_eq_load]
    exact hnative
  · rw [hbytes, ← socketBufferBytes_eq_load]
    exact hbuffers

theorem Capped.step (h : s.Capped) (hs : s.Sound) {label : StepLabel} (hstep : Step s label s') :
    s'.Capped := by
  cases hstep with
  | drive hstep => exact h.driveStep hs hstep
  | finish result effects _ =>
      exact h.inert (undisturbed_finish result effects _ s).limits (inert_finish result effects _ s)
  | install hinstall _ _ => exact h.inert rfl (undisturbed_install hinstall _).inert
  | abort habort => exact h.inert rfl (inert_abort habort _ _)
  | cancel hcancel _ _ => exact h.inert rfl (undisturbed_cancel hcancel _).inert
  | close hclose =>
      obtain ⟨entry, hlookup, rfl, rfl⟩ := SocketTable.close_ok hclose
      refine h.shrink rfl ?_ fun tcp udp => le_rfl
      exact Nat.add_le_add_right ExtTreeMap.size_erase_le _
  | @openTcp identity family rcvbuf sndbuf hid _ _ hlogical hnative hbuffers =>
      have hnone : s.tcpRecords[identity.id]? = none := by simpa using (hs.rostered.fresh _ hid).1
      refine Capped.grow _ _ hs rfl ?_ (load_insertTcp _ _ hnone rfl rfl rfl)
        (load_insertTcp _ _ hnone rfl rfl rfl) hnative hbuffers
      exact len_enroll_le s identity .tcp hlogical
  | @openUdp identity family hid hlogical hnative hbuffers =>
      have hnone : s.udpRecords[identity.id]? = none := by simpa using (hs.rostered.fresh _ hid).2.2.1
      refine Capped.grow _ _ hs rfl ?_ (load_insertUdp _ _ hnone rfl rfl rfl)
        (load_insertUdp _ _ hnone rfl rfl rfl) hnative ?_
      · exact len_enroll_le s identity .udp hlogical
      · simpa [UdpRecord.new] using hbuffers
  | allocate _ _ => exact ⟨h.logical, h.native, h.buffers⟩
  | allocateUdp _ _ => exact ⟨h.logical, h.native, h.buffers⟩
  | @bind record endpoint scopeId _ hrecord _ _ _ _ _ =>
      refine h.shrink rfl le_rfl fun tcp udp => Nat.le_of_eq ?_
      exact load_putRecord tcp udp
        { record with phase := .bound, localEndpoint := some endpoint, localScopeId := scopeId }
        hrecord rfl rfl rfl
  | @connect record _ _ selected remote scopeId hrecord _ _ _ _ _ _ _ _ _ _ _ =>
      refine h.shrink rfl le_rfl fun tcp udp => Nat.le_of_eq ?_
      exact load_putRecord tcp udp
        { record with
          phase := .connecting, localEndpoint := some selected, remote := some remote
          remoteScopeId := scopeId } hrecord rfl rfl rfl
  | @listen record listener sockets added hrecord _ hextends _ hpool _ hidentity _ hrcvbuf hsndbuf _ _ _ _ _
      _ _ hnative hbuffers =>
      have hnew : record.handle ∉ added := by
        intro hin
        obtain ⟨socket, hsocket, -⟩ := hs.typed.tcp _ record hrecord
        exact hextends.fresh _ hin (mem_of_getElem? hsocket)
      have hsize := size_newPool hextends.nodup hnew hpool
      have hload : ∀ tcp udp, load tcp udp
          { (s.removeTcpRecord record).putListener listener with sockets := sockets } =
            s.load tcp udp + added.length * tcp record.rcvbuf record.sndbuf :=
        fun tcp udp => hs.load_listen tcp udp hrecord hidentity hsize hrcvbuf hsndbuf
      exact Capped.grow _ _ hs rfl h.logical (hload _ _) (hload _ _) (by simpa using hnative) hbuffers
  | @accept listener child rest hlistener haccepted =>
      refine h.shrink rfl le_rfl fun tcp udp => Nat.le_of_eq ?_
      exact load_putListener tcp udp { listener with accepted := rest } hlistener rfl rfl rfl rfl
  | amendListener hlistener hchanged =>
      refine h.shrink rfl le_rfl fun tcp udp => Nat.le_of_eq ?_
      exact load_putListener tcp udp _ hlistener hchanged.identity (by rw [hchanged.pool]) hchanged.rcvbuf
        hchanged.sndbuf
  | @startClose record deadline hrecord _ hclosed _ hlogical =>
      have hload := fun tcp udp => load_putRecord tcp udp
        { record with closeDeadline := some deadline } hrecord rfl rfl rfl
      refine Capped.grow 0 0 hs rfl ?_ (Eq.trans (load_congr (s := s.putRecord _) _ _ rfl rfl rfl) (hload _ _))
        (Eq.trans (load_congr (s := s.putRecord _) _ _ rfl rfl rfl) (hload _ _)) ?_ h.buffers
      · have hsize : (s.closingTcp.insert record.identity.id).size ≤ s.closingTcp.size + 1 :=
          ExtTreeSet.size_insert_le
        change s.socketTable.len + (s.closingTcp.insert record.identity.id).size ≤ s.limits.sockets
        omega
      · rw [hs.size_eq_load]
        exact h.native
  | dropRecord hrecord hclosed => exact h.shrink rfl le_rfl fun tcp udp => load_dropRecord tcp udp s _
  | unclose record _ =>
      refine h.shrink rfl ?_ fun tcp udp => le_rfl
      exact Nat.add_le_add_left ExtTreeSet.size_erase_le _
  | dropListener hlistener hclosed => exact h.shrink rfl le_rfl fun tcp udp => load_dropListener tcp udp s _
  | dropUdp hrecord hclosed => exact h.shrink rfl le_rfl fun tcp udp => load_dropUdp tcp udp s _
  | amendUdp hrecord hidentity hhandles _ _ =>
      refine h.shrink rfl le_rfl fun tcp udp => Nat.le_of_eq ?_
      simpa using load_extendUdp tcp udp [] hrecord hidentity (by simpa using hhandles)
  | extendUdp _ hrecord _ _ _ hidentity hhandles _ _ _ _ _ hnative hbuffers =>
      have hload := fun tcp udp => load_extendUdp tcp udp _ hrecord hidentity hhandles
      exact Capped.grow _ _ hs rfl h.logical
        (Eq.trans (load_congr (s := s.putUdpRecord _) _ _ rfl rfl rfl) (hload _ _))
        (Eq.trans (load_congr (s := s.putUdpRecord _) _ _ rfl rfl rfl) (hload _ _))
        (by simpa using hnative) hbuffers
  | beginShutdown reason => exact ⟨h.logical, h.native, h.buffers⟩
  | closeNext _ _ hlookup =>
      refine h.shrink rfl ?_ fun tcp udp => le_rfl
      exact Nat.add_le_add_right ExtTreeMap.size_erase_le _
  | dropConnection key _ => exact ⟨h.logical, h.native, h.buffers⟩
  | dropDeadline deadline _ => exact ⟨h.logical, h.native, h.buffers⟩
  | endShutdown _ => exact ⟨h.logical, h.native, h.buffers⟩

end SmolNet.NativeStack
