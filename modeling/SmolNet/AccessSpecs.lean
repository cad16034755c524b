import SmolNet.Access

/-!
# What the shared programs do

The weakest precondition of each program of `Access`, in terms of the state it reads.
-/

namespace SmolNet.NativeStack

open Std Program

variable {ε α : Type} {s : NativeStack} {handle : Nat} {identity : SocketIdentity}
  {Q : Unit → NativeStack → Prop} {E : ε → NativeStack → Prop}

@[simp] theorem wp_withinBudget {Q : Bool → NativeStack → Prop} :
    wp (withinBudget : Op ε Bool) Q E s ↔
      Q s.callBudget.checkpoint.1 { s with callBudget := s.callBudget.checkpoint.2 } := by
  simp [withinBudget]

/-! ## Native sockets -/

@[simp] theorem wp_getTcp {Q : TcpSocket → NativeStack → Prop} :
    wp (getTcp handle : Op ε TcpSocket) Q E s ↔
      ∃ socket, s.sockets[handle]? = some (.tcp socket) ∧ Q socket s := by
  simp [getTcp, SocketSet.tcp?_eq_some]

@[simp] theorem wp_getUdp {Q : UdpSocket → NativeStack → Prop} :
    wp (getUdp handle : Op ε UdpSocket) Q E s ↔
      ∃ socket, s.sockets[handle]? = some (.udp socket) ∧ Q socket s := by
  simp [getUdp, SocketSet.udp?_eq_some]

@[simp] theorem wp_updateTcp {change : TcpSocket → TcpSocket × List ReadyKey} :
    wp (updateTcp handle change : Op ε Unit) Q E s ↔
      ∃ socket, s.sockets[handle]? = some (.tcp socket) ∧
        Q () ((s.putSocket handle (.tcp (change socket).1)).wakeAll (change socket).2) := by
  simp [updateTcp]

@[simp] theorem wp_putUdp {socket : UdpSocket} :
    wp (putUdp handle socket : Op ε Unit) Q E s ↔ Q () (s.putSocket handle (.udp socket)) := Iff.rfl

@[simp] theorem wp_removeSocket :
    wp (removeSocket handle : Op ε Unit) Q E s ↔
      handle ∈ s.sockets ∧ Q () { s with sockets := s.sockets.erase handle } := by
  rw [removeSocket, wp_bind, wp_get]
  cases hsocket : s.sockets[handle]? with
  | none =>
      have : handle ∉ s.sockets := by simpa using hsocket
      simp [this]
  | some socket =>
      have : handle ∈ s.sockets := by
        rw [ExtTreeMap.mem_iff_isSome_getElem?, hsocket]
        rfl
      simp [this]

/-! ## Checks -/

section

variable {E : SocketError → NativeStack → Prop}

@[simp] theorem wp_ensureRunning :
    wp ensureRunning Q E s ↔
      (s.lifecycle = .running → Q () s) ∧ (s.lifecycle ≠ .running → E .closed s) := by
  simp [ensureRunning]

@[simp] theorem wp_validate {kind : SocketKind} {Q : SocketEntry → NativeStack → Prop} :
    wp (validate identity kind) Q E s ↔
      (∀ entry, s.socketTable.validate identity kind = .ok entry → Q entry s) ∧
        ∀ e, s.socketTable.validate identity kind = .error e → E e s := by
  simp [validate]

@[simp] theorem wp_ensureLogicalSocketCapacity :
    wp ensureLogicalSocketCapacity Q E s ↔
      (s.socketTable.len + s.closingTcp.size < s.limits.sockets → Q () s) ∧
        (¬ s.socketTable.len + s.closingTcp.size < s.limits.sockets → E .systemLimit s) := by
  simp only [ensureLogicalSocketCapacity, wp_bind, wp_get, wp_require]

@[simp] theorem wp_ensureNativeSocketCapacity {added : Nat} :
    wp (ensureNativeSocketCapacity added) Q E s ↔
      (s.sockets.size + added ≤ s.limits.sockets → Q () s) ∧
        (¬ s.sockets.size + added ≤ s.limits.sockets → E .systemLimit s) := by
  simp only [ensureNativeSocketCapacity, wp_bind, wp_get, wp_require]

@[simp] theorem wp_ensureSocketBufferCapacity {added : Nat} :
    wp (ensureSocketBufferCapacity added) Q E s ↔
      (s.socketBufferBytes + added ≤ maxSocketBufferBytes → Q () s) ∧
        (¬ s.socketBufferBytes + added ≤ maxSocketBufferBytes → E .systemLimit s) := by
  simp only [ensureSocketBufferCapacity, wp_bind, wp_get, wp_require]

@[simp] theorem wp_ensureWaiterCapacity :
    wp ensureWaiterCapacity Q E s ↔
      (s.socketTable.waiterCount < s.socketTable.maxWaiters → Q () s) ∧
        (¬ s.socketTable.waiterCount < s.socketTable.maxWaiters → E .systemLimit s) := by
  simp only [ensureWaiterCapacity, wp_bind, wp_get, wp_require]

/-! ## Records -/

@[simp] theorem wp_tcpRecord {Q : TcpRecord → NativeStack → Prop} :
    wp (tcpRecord identity) Q E s ↔
      (∀ record, s.tcpRecord? identity = .ok record → Q record s) ∧
        ∀ e, s.tcpRecord? identity = .error e → E e s := by
  simp [tcpRecord]

@[simp] theorem wp_udpRecord {Q : UdpRecord → NativeStack → Prop} :
    wp (udpRecord identity) Q E s ↔
      (∀ record, s.udpRecord? identity = .ok record → Q record s) ∧
        ∀ e, s.udpRecord? identity = .error e → E e s := by
  simp [udpRecord]

@[simp] theorem wp_updateTcpRecord {change : TcpRecord → TcpRecord} :
    wp (updateTcpRecord identity change) Q E s ↔
      (∀ record, s.tcpRecord? identity = .ok record →
        Q () { s with tcpRecords := s.tcpRecords.insert identity.id (change record) }) ∧
        ∀ e, s.tcpRecord? identity = .error e → E e s := by
  simp [updateTcpRecord]

@[simp] theorem wp_updateUdpRecord {change : UdpRecord → UdpRecord} :
    wp (updateUdpRecord identity change) Q E s ↔
      (∀ record, s.udpRecord? identity = .ok record →
        Q () { s with udpRecords := s.udpRecords.insert identity.id (change record) }) ∧
        ∀ e, s.udpRecord? identity = .error e → E e s := by
  simp [updateUdpRecord]

theorem listener?_eq_some {listener : ListenerRecord} :
    s.listener? identity = some listener ↔
      s.tcpListeners[identity.id]? = some listener ∧ listener.identity = identity := by
  simp [listener?, Option.filter_eq_some_iff]

theorem tcpRecord?_eq_ok {record : TcpRecord} (h : s.tcpRecord? identity = .ok record) :
    s.tcpRecords[identity.id]? = some record ∧ record.identity = identity := by
  unfold tcpRecord? at h
  split at h
  · simp at h
  · split at h
    · split at h <;> simp_all
    · simp at h

theorem tcpRecord?_logPort (s : NativeStack) (ephemeral : Bool) (allocation : Allocation)
    (identity : SocketIdentity) :
    (s.logPort ephemeral allocation).tcpRecord? identity = s.tcpRecord? identity := rfl

theorem tcpRecord?_logTuple (s : NativeStack) (owner : SocketIdentity) (key : ConnectionKey)
    (identity : SocketIdentity) : (s.logTuple owner key).tcpRecord? identity = s.tcpRecord? identity := rfl

theorem tcpRecord?_of_record {record : TcpRecord} (hlisteners : identity.id ∉ s.tcpListeners)
    (hrecord : s.tcpRecords[identity.id]? = some record) (hidentity : record.identity = identity) :
    s.tcpRecord? identity = .ok record := by
  have hnone : s.tcpListeners[identity.id]? = none := by simpa using hlisteners
  unfold tcpRecord? listener?
  simp [hnone, hrecord, hidentity]

theorem udpRecord?_eq_ok {record : UdpRecord} (h : s.udpRecord? identity = .ok record) :
    s.udpRecords[identity.id]? = some record ∧ record.identity = identity := by
  unfold udpRecord? at h
  split at h
  · split at h <;> simp_all
  · simp at h

/-! ## Identities and ports -/

/-- A new identity is beyond the id counter and moves it; if there is none, only the counters
move. -/
theorem insertSocket_spec (kind : SocketKind) :
    wp (insertSocket kind)
      (fun identity s' => s.nextSocketId ≤ identity.id ∧
        ∃ (generation : Nat) (world : World), s.world.Continues world ∧ s' = { s with
          socketTable := s.socketTable.insertEntry identity kind
          nextSocketId := identity.id + 1
          nextGeneration := generation
          world := world })
      (fun e s' => e = .systemLimit ∧ ∃ (id generation : Nat) (world : World), s.nextSocketId ≤ id ∧
        s.world.Continues world ∧
        s' = { s with nextSocketId := id, nextGeneration := generation, world := world }) s := by
  unfold insertSocket drawId drawGeneration
  simp only [wp_bind, wp_get, wp_set, wp_modify, wp_require, wp_pure]
  refine ⟨fun _ => ⟨fun _ => ⟨fun _ => ?_, fun _ => ?_⟩, fun _ => ?_⟩, fun _ => ?_⟩
  · refine ⟨Nat.le_add_right _ _, _, _, ?_, rfl⟩
    exact .of_polls rfl rfl
  · refine ⟨trivial, _, _, _, (Nat.le_add_right _ _).trans (Nat.le_succ _), ?_, rfl⟩
    exact .of_polls rfl rfl
  · refine ⟨trivial, _, _, _, Nat.le_add_right _ _, ?_, rfl⟩
    exact .of_polls rfl rfl
  · exact ⟨trivial, s.nextSocketId, s.nextGeneration, s.world, le_rfl, .of_polls rfl rfl, rfl⟩

/-- A port from the range that is not in use. -/
theorem allocateEphemeral_some {used : List Nat} {start first last port : Nat} (hrange : first ≤ last)
    (h : allocateEphemeral used start first last = some port) :
    (first ≤ port ∧ port ≤ last) ∧ port ∉ used := by
  unfold allocateEphemeral at h
  have hmem := List.mem_of_find?_eq_some h
  have hfree := List.find?_some h
  obtain ⟨offset, -, rfl⟩ := List.mem_map.1 hmem
  have hmod := Nat.mod_lt (max first (min start last) - first + offset)
    (show 0 < last - first + 1 by omega)
  refine ⟨⟨by omega, by omega⟩, ?_⟩
  simpa using hfree

theorem allocateEphemeralPort_spec (family : AddressFamily) :
    wp (allocateEphemeralPort family)
      (fun port s' => Ephemeral port ∧ port ∉ s.usedTcpPorts family ∧
        s' = { s with nextEphemeralPort := nextEphemeral port })
      (fun _ s' => s' = s) s := by
  unfold allocateEphemeralPort
  simp only [wp_bind, wp_get, wp_orFail, wp_set, wp_pure]
  refine ⟨fun port hport => ?_, fun _ => trivial⟩
  obtain ⟨hrange, hfree⟩ := allocateEphemeral_some (by decide) hport
  exact ⟨hrange, hfree, trivial⟩

theorem allocateUdpEphemeralPort_spec (family : AddressFamily) :
    wp (allocateUdpEphemeralPort family)
      (fun port s' => Ephemeral port ∧ port ∉ s.usedUdpPorts family ∧
        s' = { s with nextUdpEphemeralPort := nextEphemeral port })
      (fun _ s' => s' = s) s := by
  unfold allocateUdpEphemeralPort
  simp only [wp_bind, wp_get, wp_orFail, wp_set, wp_pure]
  refine ⟨fun port hport => ?_, fun _ => trivial⟩
  obtain ⟨hrange, hfree⟩ := allocateEphemeral_some (by decide) hport
  exact ⟨hrange, hfree, trivial⟩

/-- A port that no TCP socket of the family has is not in use. -/
theorem portInUse_of_unused {port : Nat} {family : AddressFamily}
    (h : port ∉ s.usedTcpPorts family) (excluding : Option SocketIdentity) :
    s.portInUse port family excluding = false := by
  rw [Bool.eq_false_iff]
  intro huse
  apply h
  unfold usedTcpPorts
  simp only [portInUse, Bool.or_eq_true, List.any_eq_true, Bool.and_eq_true, Prod.exists,
    Option.any_eq_true, beq_iff_eq] at huse
  simp only [List.mem_append, List.mem_filterMap, Prod.exists]
  rcases huse with ⟨id, record, hmem, ⟨⟨-, hfamily⟩, -⟩, endpoint, hendpoint, rfl⟩ |
    ⟨id, listener, hmem, ⟨-, hfamily⟩, rfl⟩
  · exact .inl ⟨id, record, hmem, by simp [hfamily, hendpoint]⟩
  · exact .inr ⟨id, listener, hmem, by simp [hfamily]⟩

theorem udpPortInUse_of_unused {port : Nat} {family : AddressFamily}
    (h : port ∉ s.usedUdpPorts family) (excluding : Option SocketIdentity) :
    s.udpPortInUse port family excluding = false := by
  rw [Bool.eq_false_iff]
  intro huse
  apply h
  unfold usedUdpPorts
  simp only [udpPortInUse, List.any_eq_true, Bool.and_eq_true, Prod.exists, Option.any_eq_true,
    beq_iff_eq] at huse
  simp only [List.mem_filterMap, Prod.exists]
  obtain ⟨id, record, hmem, ⟨-, hfamily⟩, endpoint, hendpoint, rfl⟩ := huse
  exact ⟨id, record, hmem, by simp [hfamily, hendpoint]⟩

end

end SmolNet.NativeStack
