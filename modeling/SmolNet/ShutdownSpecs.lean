import SmolNet.UdpCallSpecs

/-!
# Shutting down is made of steps

Each slice of a shutdown takes one structure apart.  On a sound stack it finds the native sockets
its records name, so nothing panics, and all it does to the device is to drop queued packets.
-/

namespace SmolNet

open Fifo

/-! ## Dropped packets -/

/-- The device has dropped packets from the fronts of its queues, the received ones first. -/
structure BeamDevice.Discards (d d' : BeamDevice) : Prop where
  receive : ∃ dropped, d'.history.discardedReceive = d.history.discardedReceive ++ dropped ∧
    Flow d.receive [] dropped d'.receive
  transmit : ∃ dropped, d'.history.discardedTransmit = d.history.discardedTransmit ++ dropped ∧
    Flow d.transmit [] dropped d'.transmit
  bytes : d.transmitBytes = byteCount d.transmit → d'.transmitBytes = byteCount d'.transmit
  taken : d'.history.taken = d.history.taken
  emitted : d'.history.emitted = d.history.emitted
  credit : d'.credit = d.credit
  transmitLimit : d'.transmitLimit = d.transmitLimit
  receiveLimit : d'.receiveLimit = d.receiveLimit

namespace BeamDevice.Discards

theorem refl (d : BeamDevice) : Discards d d :=
  ⟨⟨[], by simp, .refl _⟩, ⟨[], by simp, .refl _⟩, id, rfl, rfl, rfl, rfl, rfl⟩

theorem trans {d d' d'' : BeamDevice} (h : Discards d d') (h' : Discards d' d'') : Discards d d'' := by
  obtain ⟨received, hreceived, hreceive⟩ := h.receive
  obtain ⟨received', hreceived', hreceive'⟩ := h'.receive
  obtain ⟨sent, hsent, htransmit⟩ := h.transmit
  obtain ⟨sent', hsent', htransmit'⟩ := h'.transmit
  refine ⟨⟨received ++ received', by rw [hreceived', hreceived, List.append_assoc], ?_⟩,
    ⟨sent ++ sent', by rw [hsent', hsent, List.append_assoc], ?_⟩, fun hbytes => h'.bytes (h.bytes hbytes),
    h'.taken.trans h.taken, h'.emitted.trans h.emitted, h'.credit.trans h.credit,
    h'.transmitLimit.trans h.transmitLimit, h'.receiveLimit.trans h.receiveLimit⟩
  · simpa using hreceive.trans hreceive'
  · simpa using htransmit.trans htransmit'

end BeamDevice.Discards

theorem BeamDevice.discards_discardOne {d d' : BeamDevice} (h : d.discardOne = some d') :
    d.Discards d' := by
  unfold BeamDevice.discardOne at h
  cases hreceive : d.receive with
  | cons packet rest =>
      rw [hreceive] at h
      obtain rfl := Option.some.inj h
      refine ⟨⟨[packet], rfl, ?_⟩, ⟨[], by simp, .refl _⟩, id, rfl, rfl, rfl, rfl, rfl⟩
      rw [hreceive]
      exact .pop [packet] rest
  | nil =>
      cases htransmit : d.transmit with
      | cons packet rest =>
          rw [hreceive, htransmit] at h
          obtain rfl := Option.some.inj h
          refine ⟨⟨[], by simp, ?_⟩, ⟨[packet], rfl, ?_⟩, fun hbytes => ?_, rfl, rfl, rfl, rfl, rfl⟩
          · rw [hreceive]
            exact .refl _
          · rw [htransmit]
            exact .pop [packet] rest
          · rw [hbytes, htransmit]
            simp [byteCount]
      | nil =>
          rw [hreceive, htransmit] at h
          cases h

namespace NativeStack

open Std Program TreeMap Ownership BeamDevice

variable {ε : Type} {s : NativeStack} {E : ε → NativeStack → Prop}

/-! ## Slices -/

/-- Steps of a stack that is being shut down. -/
structure Winds (s s' : NativeStack) : Prop where
  path : Path Gentle s s'
  device : s.device.Discards s'.device
  inHand : s'.history.inHand = s.history.inHand
  lifecycle : s'.lifecycle = s.lifecycle

namespace Winds

theorem refl (s : NativeStack) : Winds s s := ⟨.refl s, .refl _, rfl, rfl⟩

theorem trans {s t u : NativeStack} (h : Winds s t) (h' : Winds t u) : Winds s u :=
  ⟨h.path.trans h'.path, h.device.trans h'.device, h'.inHand.trans h.inHand,
    h'.lifecycle.trans h.lifecycle⟩

theorem step {s s' : NativeStack} {label : StepLabel} (h : Step s label s') (hok : Gentle s label)
    (hdevice : s.device.Discards s'.device) (hinHand : s'.history.inHand = s.history.inHand)
    (hlifecycle : s'.lifecycle = s.lifecycle) : Winds s s' :=
  ⟨.single h hok, hdevice, hinHand, hlifecycle⟩

theorem tick {s t : NativeStack} (hid : s.nextSocketId ≤ t.nextSocketId)
    (hworld : s.world.Continues t.world) : Winds s (s.retimed t) :=
  .step (.drive (.tick t hid hworld)) trivial (.refl _) rfl rfl

theorem sound {s s' : NativeStack} (h : Winds s s') (hs : s.Sound) : s'.Sound := h.path.sound hs

end Winds

theorem lookup_of_first {table : SocketTable} {identity : SocketIdentity} {entry : SocketEntry}
    (h : table.first = some (identity, entry)) : table.lookup identity = some entry := by
  unfold SocketTable.first at h
  obtain ⟨⟨id, generation, entry'⟩, hhead, heq⟩ := Option.map_eq_some_iff.1 h
  obtain ⟨rfl, rfl⟩ := Prod.mk.inj heq
  rw [SocketTable.lookup_eq_some]
  exact ExtTreeMap.mem_toList_iff_getElem?_eq_some.1 (List.mem_of_head? hhead)

theorem entries_of_first {table : SocketTable} (h : table.first = none) (id : Nat) :
    table.entries[id]? = none := by
  unfold SocketTable.first at h
  rw [Option.map_eq_none_iff, List.head?_eq_none_iff] at h
  cases hentry : table.entries[id]? with
  | none => rfl
  | some entry =>
      have hmem := ExtTreeMap.mem_toList_iff_getElem?_eq_some.2 hentry
      rw [h] at hmem
      cases hmem

/-- The first entry of a map is one of its entries. -/
theorem getElem?_of_head? {β : Type} {m : ExtTreeMap Nat β} {id : Nat} {v : β}
    (h : m.toList.head? = some (id, v)) : m[id]? = some v :=
  ExtTreeMap.mem_toList_iff_getElem?_eq_some.1 (List.mem_of_head? h)

theorem getElem?_none_of_head? {β : Type} {m : ExtTreeMap Nat β} (h : m.toList.head? = none) (id : Nat) :
    m[id]? = none := by
  rw [List.head?_eq_none_iff] at h
  cases hentry : m[id]? with
  | none => rfl
  | some v =>
      have hmem := ExtTreeMap.mem_toList_iff_getElem?_eq_some.2 hentry
      rw [h] at hmem
      cases hmem

/-- Dropping a retained index or packet, once no record is left. -/
theorem winds_discardRetained (hdown : s.lifecycle ≠ .running) (hnone : ∀ id : Nat, s.tcpRecords[id]? = none)
    {s' : NativeStack} (h : s.discardRetained = some s') : Winds s s' := by
  unfold discardRetained at h
  split at h
  · rename_i key _ _
    obtain rfl := Option.some.inj h
    exact .step (.dropConnection key hdown) trivial (.refl _) rfl rfl
  · split at h
    · rename_i id _
      obtain rfl := Option.some.inj h
      exact .step (.drive (.forget (hnone id))) trivial (.refl _) rfl rfl
    · split at h
      · rename_i deadline _
        obtain rfl := Option.some.inj h
        exact .step (.dropDeadline deadline hdown) trivial (.refl _) rfl rfl
      · obtain ⟨device, hdiscard, rfl⟩ := Option.map_eq_some_iff.1 h
        exact .step (.drive (.device device)) trivial (discards_discardOne hdiscard) rfl rfl

theorem shutdownStep_spec (hs : s.Sound) (hdown : s.lifecycle ≠ .running)
    (hin : s.history.inHand = []) :
    wp (shutdownStep : Op ε Bool) (fun _ s' => Winds s s') E s := by
  unfold shutdownStep
  rw [wp_bind, wp_get]
  cases hfirst : s.socketTable.first with
  | some found =>
      obtain ⟨identity, entry⟩ := found
      have hlookup := lookup_of_first hfirst
      exact .step (.closeNext hdown hin hlookup) (fun hrunning => absurd hrunning hdown) (.refl _) rfl rfl
  | none =>
  have hgone := entries_of_first hfirst
  dsimp only
  cases hrecord : s.tcpRecords.toList.head? with
  | some found =>
      obtain ⟨id, record⟩ := found
      have hfound := getElem?_of_head? hrecord
      obtain ⟨rfl, -⟩ := hs.filed.tcp id record hfound
      obtain ⟨socket, hsocket, -⟩ := hs.typed.tcp _ record hfound
      simp only [wp_bind, wp_set, wp_removeSocket, wp_modify, wp_pure]
      refine ⟨mem_of_getElem? hsocket, ?_⟩
      have hdrop : Winds s (s.dropRecord record) :=
        .step (.dropRecord hfound (hgone _)) hdown (.refl _) rfl rfl
      exact hdrop.trans (.step (.unclose record (by simp [NativeStack.dropRecord, removeTcpRecord])) trivial
        (.refl _) rfl rfl)
  | none =>
  dsimp only
  cases hlistener : s.tcpListeners.toList.head? with
  | some found =>
      obtain ⟨id, listener⟩ := found
      have hfound := getElem?_of_head? hlistener
      obtain ⟨rfl, -⟩ := hs.filed.listener id listener hfound
      have hnodup : listener.pool.toList.Nodup :=
        ExtTreeSet.distinct_toList.imp fun h => by simpa using h
      have hpool : ∀ handle ∈ listener.pool.toList, handle ∈ s.sockets := fun handle hhandle =>
        hs.pool_mem hfound (ExtTreeSet.mem_toList.1 hhandle)
      simp only [wp_bind, wp_set]
      refine wp_mono (removeSockets_spec hnodup ?_) ?_ fun _ _ h => h
      · exact hpool
      · rintro _ t rfl
        exact .step (.dropListener hfound (hgone _)) trivial (.refl _) rfl rfl
  | none =>
  dsimp only
  cases hudp : s.udpRecords.toList.head? with
  | some found =>
      obtain ⟨id, record⟩ := found
      have hfound := getElem?_of_head? hudp
      obtain ⟨rfl, -⟩ := hs.filed.udp id record hfound
      have hhandles : ∀ handle ∈ record.handles, handle ∈ s.sockets := by
        intro handle hhandle
        obtain ⟨socket, hsocket⟩ := hs.typed.udp _ record hfound handle hhandle
        exact mem_of_getElem? hsocket
      simp only [wp_bind, wp_set]
      refine wp_mono (removeSockets_spec (hs.udp_nodup hfound) ?_) ?_ fun _ _ h => h
      · exact hhandles
      · rintro _ t rfl
        exact .step (.dropUdp hfound (hgone _)) trivial (.refl _) rfl rfl
  | none =>
  dsimp only
  cases hdiscard : s.discardRetained with
  | some s' => exact winds_discardRetained hdown (getElem?_none_of_head? hrecord) hdiscard
  | none => exact .refl s

theorem shutdownLoop_spec (hs : s.Sound) (hdown : s.lifecycle ≠ .running)
    (hin : s.history.inHand = []) (n work : Nat) :
    wp (shutdownLoop n work : Op ε Nat) (fun _ s' => Winds s s') E s := by
  induction n generalizing s work with
  | zero => exact .refl s
  | succ n ih =>
      have hspend : Winds s { s with callBudget := s.callBudget.checkpoint.2 } :=
        .tick (t := { s with callBudget := s.callBudget.checkpoint.2 }) le_rfl (.of_polls rfl rfl)
      unfold shutdownLoop
      rw [wp_bind, wp_withinBudget, wp_ite]
      refine ⟨fun _ => ?_, fun _ => hspend⟩
      rw [wp_bind]
      refine wp_mono (shutdownStep_spec (hspend.sound hs) hdown hin) (fun progressed t ht => ?_) fun _ _ h => h
      have hstepped := hspend.trans ht
      rw [wp_ite]
      refine ⟨fun _ => ?_, fun _ => hstepped⟩
      refine wp_mono (ih (hstepped.sound hs) (by rw [hstepped.lifecycle]; exact hdown)
        (hstepped.inHand.trans hin) _)
        (fun _ _ h => hstepped.trans h) fun _ _ h => h

theorem shutdownWork_spec (hs : s.Sound) (hdown : s.lifecycle ≠ .running)
    (hin : s.history.inHand = []) :
    wp (shutdownWork : Op ε Effects) (fun effects s' => Winds s s' ∧ effects.output = []) E s := by
  unfold shutdownWork
  rw [wp_bind, wp_get, wp_bind]
  refine wp_mono (shutdownLoop_spec hs hdown hin _ _) (fun work t ht => ?_) fun _ _ h => h
  simp only [wp_bind, wp_modify, wp_get, wp_pure]
  refine ⟨ht.trans ?_, trivial⟩
  exact .tick (t := { t with counters := t.counters.observe { maintenanceWork := work } }) le_rfl
    (.of_polls rfl rfl)

theorem shutdownSlice_spec (hs : s.Sound) (hdown : s.lifecycle ≠ .running)
    (hin : s.history.inHand = []) :
    wp (shutdownSlice : Op ε Effects) (fun effects s' => Winds s s' ∧ effects.output = []) E s := by
  unfold shutdownSlice
  rw [wp_bind, wp_get, wp_ite]
  exact ⟨fun _ => shutdownWork_spec hs hdown hin, fun _ => ⟨.refl s, rfl⟩⟩

/-! ## The calls -/

/-- A call on a stack that is being shut down. -/
structure ShutsDown (s : NativeStack) (envelope : Envelope) (s' : NativeStack) : Prop where
  path : Path Gentle s s'
  device : s.device.Discards s'.device
  inHand : s'.history.inHand = []
  lifecycle : s'.lifecycle ≠ .running
  output : envelope.output = []

theorem continues_popLock (world : World) :
    world.Continues { world with locks := world.locks.tail } := .of_polls rfl rfl

/-- Asking for what is left takes an answer from the world at most. -/
theorem readinessLeft_retimed (more : Bool) (s : NativeStack) :
    ∃ world, s.world.Continues world ∧ (s.readinessLeft more).2 = { s with world := world } := by
  unfold readinessLeft
  split
  · exact ⟨s.world, .of_polls rfl rfl, rfl⟩
  · unfold readyPending
    split
    · exact ⟨s.world, .of_polls rfl rfl, rfl⟩
    · exact ⟨_, continues_popLock s.world, rfl⟩

theorem continueShutdown_spec (hs : s.Sound) (hin : s.history.inHand = [])
    (hdown : s.lifecycle ≠ .running) :
    wp (continueShutdown : Op ε Envelope) (fun envelope s' => ShutsDown s envelope s') E s := by
  unfold continueShutdown
  rw [wp_bind]
  refine wp_mono (shutdownSlice_spec hs hdown hin) ?_ fun _ _ h => h
  rintro effects t ⟨ht, houtput⟩
  simp only [wp_bind, wp_finishCall, wp_get, wp_ite, wp_set, wp_pure]
  have hinHand : t.history.inHand = [] := ht.inHand.trans hin
  have hfinish := ht.path.step (.finish .ok effects hinHand.symm) trivial
  have hkept := undisturbed_finish .ok effects [] t
  have hinHandU := hkept.inHand
  have hdevice : s.device.Discards (finish .ok effects [] t).2.device := by
    rw [hkept.device]
    exact ht.device
  have hdownU : (finish .ok effects [] t).2.lifecycle ≠ .running := by
    rw [hkept.lifecycle]
    exact ht.lifecycle.trans_ne hdown
  have houtputU : (finish .ok effects [] t).1.output = [] := houtput
  generalize finish .ok effects [] t = finished at *
  obtain ⟨envelope, u⟩ := finished
  obtain ⟨world, hworld, hpending⟩ := readinessLeft_retimed u.shutdownStructuresPending u
  unfold shutdownPending
  dsimp only at *
  rw [hpending]
  have hlocked : Step u .silent { u with world := world } :=
    .drive (.tick { u with world := world } le_rfl hworld)
  refine ⟨fun _ => ⟨hfinish.step hlocked trivial, hdevice, hinHandU, hdownU, houtputU⟩, fun _ => ?_⟩
  have hcleared : Step u .silent { u with
      closingSweepCursor := none
      closingCleanupPending := false
      closingCleanupResweep := false
      listenerScanCursor := none
      listenerScanPending := false
      listenerScanResweep := false
      world := world } :=
    .drive (.tick { u with
      closingSweepCursor := none
      closingCleanupPending := false
      closingCleanupResweep := false
      listenerScanCursor := none
      listenerScanPending := false
      listenerScanResweep := false
      world := world } le_rfl hworld)
  refine ⟨(hfinish.step hcleared trivial).step (.endShutdown hdownU) trivial, hdevice, hinHandU, ?_, houtputU⟩
  intro hrunning
  cases hrunning

theorem shutdown_spec (hs : s.Sound) (hin : s.history.inHand = []) (reason : AbortReason) :
    wp (shutdown reason : Op ε Envelope) (fun envelope s' => ShutsDown s envelope s') E s := by
  unfold shutdown
  rw [wp_bind, wp_get, wp_ite]
  refine ⟨fun hshut => ⟨.refl s, .refl _, hin, ?_, rfl⟩, fun _ => ?_⟩
  · rw [hshut]
    exact fun h => nomatch h
  rw [wp_bind, wp_set]
  have hbegin := Step.beginShutdown (s := s) reason
  refine wp_mono (continueShutdown_spec (hs.step hbegin) hin fun h => nomatch h) ?_ fun _ _ h => h
  intro envelope t ht
  exact ⟨(Path.single hbegin trivial).trans ht.path, ht.device, ht.inHand, ht.lifecycle, ht.output⟩

end NativeStack

end SmolNet
