import SmolNet.RecordSteps
import SmolNet.Script

/-!
# Ports

A socket that was opened here, or the listener it has become, holds its local port alone among the
sockets of its protocol and family.  A port from the ephemeral range was held by none of them, nor by a
connection that a listener has promoted, when it was given out.
-/

namespace SmolNet

/-- The phase of a record, its family and its local endpoint agree, and a record that may still be bound
or listen is not a promoted connection's. -/
structure TcpRecord.Placed (record : TcpRecord) : Prop where
  opened : record.phase = .open → record.localEndpoint = none
  family : ∀ endpoint, record.localEndpoint = some endpoint → AddressFamily.of endpoint.addr = record.family
  own : record.phase.idle = true → record.accepted = false

namespace NativeStack

open Std TreeMap Ownership

variable {s s' : NativeStack} {label : StepLabel}

/-! ## Holders -/

/-- The socket `id` holds a port of a family: a record that is not a promoted connection's, a listener
or a UDP record has it as its local port. -/
inductive HoldsPort (s : NativeStack) (id : Nat) (family : AddressFamily) (port : Nat) : SocketKind → Prop
  | record {record : TcpRecord} {endpoint : IpEndpoint} (h : s.tcpRecords[id]? = some record)
      (hown : record.accepted = false) (hfamily : record.family = family)
      (hlocal : record.localEndpoint = some endpoint) (hport : endpoint.port = port) :
      HoldsPort s id family port .tcp
  | listener {listener : ListenerRecord} (h : s.tcpListeners[id]? = some listener)
      (hfamily : AddressFamily.of listener.localEndpoint.addr = family)
      (hport : listener.localEndpoint.port = port) : HoldsPort s id family port .tcp
  | udp {record : UdpRecord} {endpoint : ValidatedEndpoint} (h : s.udpRecords[id]? = some record)
      (hfamily : record.family = family) (hlocal : record.localEndpoint = some endpoint)
      (hport : endpoint.port = port) : HoldsPort s id family port .udp

/-- No two sockets of one protocol and family hold the same port. -/
def PortsApart (s : NativeStack) : Prop :=
  ∀ (kind : SocketKind) (family : AddressFamily) (port id other : Nat),
    s.HoldsPort id family port kind → s.HoldsPort other family port kind → id = other

/-- The check that a protocol makes before it gives out a port. -/
def inUse (s : NativeStack) (port : Nat) (family : AddressFamily) (excluding : Option SocketIdentity) :
    SocketKind → Bool
  | .tcp => s.portInUse port family excluding
  | .udp => s.udpPortInUse port family excluding
  | .synthetic => false

/-- The check finds every holder but the socket it is made for. -/
theorem HoldsPort.inUse (hs : s.Sound) {kind : SocketKind} {family : AddressFamily} {port id : Nat}
    (h : s.HoldsPort id family port kind) {identity : SocketIdentity} (hother : identity.id ≠ id) :
    s.inUse port family (some identity) kind = true := by
  have hne : ∀ {found : SocketIdentity}, found.id = id → (some found != some identity) = true := by
    rintro found rfl
    have hdiffers : found ≠ identity := fun heq => hother (congrArg SocketIdentity.id heq.symm)
    simpa using hdiffers
  cases h with
  | @record record endpoint h hown hfamily hlocal hport =>
      have hin : (id, record) ∈ s.tcpRecords.toList := ExtTreeMap.mem_toList_iff_getElem?_eq_some.2 h
      simp only [NativeStack.inUse, portInUse, Bool.or_eq_true]
      refine .inl (List.any_eq_true.2 ⟨_, hin, ?_⟩)
      simp [hne (hs.filed.tcp id record h).1, hown, hfamily, hlocal, hport]
  | @listener listener h hfamily hport =>
      have hin : (id, listener) ∈ s.tcpListeners.toList := ExtTreeMap.mem_toList_iff_getElem?_eq_some.2 h
      simp only [NativeStack.inUse, portInUse, Bool.or_eq_true]
      refine .inr (List.any_eq_true.2 ⟨_, hin, ?_⟩)
      simp [hne (hs.filed.listener id listener h).1, AddressFamily.includes, hfamily, hport]
  | @udp record endpoint h hfamily hlocal hport =>
      have hin : (id, record) ∈ s.udpRecords.toList := ExtTreeMap.mem_toList_iff_getElem?_eq_some.2 h
      simp only [NativeStack.inUse, udpPortInUse]
      refine List.any_eq_true.2 ⟨_, hin, ?_⟩
      simp [hne (hs.filed.udp id record h).1, hfamily, hlocal, hport]

/-! ## Records in their place -/

theorem RecordFrom.placed {id : Nat} {record : TcpRecord} (h : s.RecordFrom id record)
    (hplaced : All (fun _ record => record.Placed) s.tcpRecords) : record.Placed := by
  cases h with
  | amended hrecord hchanged =>
      have hbefore := hplaced _ _ hrecord
      refine ⟨fun hopen => ?_, fun endpoint hlocal => ?_, fun hidle => ?_⟩
      · rw [hchanged.localEndpoint]
        exact hbefore.opened (hchanged.opened hopen)
      · rw [hchanged.family]
        exact hbefore.family endpoint (hchanged.localEndpoint ▸ hlocal)
      · rw [hchanged.accepted]
        exact hbefore.own (hchanged.idle hidle)
  | opened identity handle family rcvbuf sndbuf _ =>
      exact ⟨fun _ => rfl, fun endpoint hlocal => (by cases hlocal), fun _ => rfl⟩
  | @bound before endpoint scopeId hrecord hphase hfamily _ =>
      refine ⟨fun hopen => (by cases hopen), fun local' hlocal => ?_, fun _ => ?_⟩
      · obtain rfl := Option.some.inj hlocal
        exact (beq_iff_eq.1 hfamily).symm
      · exact (hplaced _ _ hrecord).own (by rw [hphase]; rfl)
  | @connected before selected remote scopeId hrecord hidle hfamily _ _ =>
      refine ⟨fun hopen => (by cases hopen), fun local' hlocal => ?_, fun hidle' => (by cases hidle')⟩
      obtain rfl := Option.some.inj hlocal
      exact (beq_iff_eq.1 hfamily).symm
  | accepted child handle localEndpoint remote scopeId rcvbuf sndbuf _ =>
      refine ⟨fun hopen => (by cases hopen), fun local' hlocal => ?_, fun hidle' => (by cases hidle')⟩
      obtain rfl := Option.some.inj hlocal
      rfl

/-! ## One step -/

/-- A record that a step has written holds a port that it held before or that was free. -/
theorem RecordFrom.holds (hs : s.Sound) {id : Nat} {record : TcpRecord} {endpoint : IpEndpoint}
    (h : s.RecordFrom id record) (hown : record.accepted = false) (hlocal : record.localEndpoint = some endpoint) :
    s.HoldsPort id record.family endpoint.port .tcp ∨
      ∃ identity : SocketIdentity, identity.id = id ∧
        s.portInUse endpoint.port record.family (some identity) = false := by
  cases h with
  | amended hrecord hchanged =>
      refine .inl (.record hrecord ?_ hchanged.family.symm (hchanged.localEndpoint ▸ hlocal) rfl)
      rw [← hchanged.accepted]
      exact hown
  | opened identity handle family rcvbuf sndbuf _ => cases hlocal
  | @bound before endpoint scopeId hrecord _ _ hfree =>
      obtain rfl := Option.some.inj hlocal
      exact .inr ⟨before.identity, (hs.filed.tcp id before hrecord).1, hfree⟩
  | @connected before selected remote scopeId hrecord _ _ hfree _ =>
      obtain rfl := Option.some.inj hlocal
      exact .inr ⟨before.identity, (hs.filed.tcp id before hrecord).1, hfree⟩
  | accepted child handle localEndpoint remote scopeId rcvbuf sndbuf _ => cases hown

/-- A listener that a step has written holds the port that it or its record held. -/
theorem ListenerFrom.holds (hplaced : All (fun _ record => record.Placed) s.tcpRecords) {id : Nat}
    {listener : ListenerRecord} (h : s.ListenerFrom id listener) :
    s.HoldsPort id (AddressFamily.of listener.localEndpoint.addr) listener.localEndpoint.port .tcp := by
  cases h with
  | amended hlistener hlocal => exact .listener hlistener (by rw [hlocal]) (by rw [hlocal])
  | listens hrecord hphase hlocal =>
      have hrecordPlaced := hplaced _ _ hrecord
      refine .record hrecord (hrecordPlaced.own ?_) (hrecordPlaced.family _ hlocal).symm hlocal rfl
      rw [hphase]
      rfl

theorem UdpFrom.holds (hs : s.Sound) {id : Nat} {record : UdpRecord} {endpoint : ValidatedEndpoint}
    (h : s.UdpFrom id record) (hlocal : record.localEndpoint = some endpoint) :
    s.HoldsPort id record.family endpoint.port .udp ∨
      ∃ identity : SocketIdentity, identity.id = id ∧
        s.udpPortInUse endpoint.port record.family (some identity) = false := by
  cases h with
  | amended hrecord hfamily hsame => exact .inl (.udp hrecord hfamily.symm (hsame ▸ hlocal) rfl)
  | opened identity handle family _ heq =>
      rw [heq] at hlocal
      cases hlocal
  | @bound before bound hrecord hfamily _ hbound hfree =>
      rw [hbound] at hlocal
      obtain rfl := Option.some.inj hlocal
      rw [hfamily]
      exact .inr ⟨before.identity, (hs.filed.udp id before hrecord).1, hfree⟩

/-- Only one socket of each protocol can come to hold a port in a step, and the port was free. -/
theorem Step.holders (hstep : Step s label s') (hs : s.Sound)
    (hplaced : All (fun _ record => record.Placed) s.tcpRecords) (kind : SocketKind) :
    ∃ mover, ∀ (family : AddressFamily) (port id : Nat), s'.HoldsPort id family port kind →
      s.HoldsPort id family port kind ∨ id = mover ∧
        ∃ identity : SocketIdentity, identity.id = id ∧ s.inUse port family (some identity) kind = false := by
  cases kind with
  | tcp =>
      obtain ⟨mover, hmover⟩ := hstep.writesRecords.entries
      obtain ⟨key, hkey⟩ := hstep.writesListeners.entries
      refine ⟨mover, fun family port id hholds => ?_⟩
      cases hholds with
      | @record record endpoint hrecord hown hfamily hlocal hport =>
          subst hfamily
          subst hport
          rcases hmover id record hrecord with hold | ⟨hid, hfrom⟩
          · exact .inl (.record hold hown rfl hlocal rfl)
          · exact (hfrom.holds hs hown hlocal).imp_right fun hfree => ⟨hid, hfree⟩
      | @listener listener hlistener hfamily hport =>
          subst hfamily
          subst hport
          rcases hkey id listener hlistener with hold | ⟨-, hfrom⟩
          · exact .inl (.listener hold rfl rfl)
          · exact .inl (hfrom.holds hplaced)
  | udp =>
      obtain ⟨mover, hmover⟩ := hstep.writesUdp.entries
      refine ⟨mover, fun family port id hholds => ?_⟩
      cases hholds with
      | @udp record endpoint hrecord hfamily hlocal hport =>
          subst hfamily
          subst hport
          rcases hmover id record hrecord with hold | ⟨hid, hfrom⟩
          · exact .inl (.udp hold rfl hlocal rfl)
          · exact (hfrom.holds hs hlocal).imp_right fun hfree => ⟨hid, hfree⟩
  | synthetic => exact ⟨0, fun family port id hholds => by cases hholds⟩

theorem PortsApart.step (h : s.PortsApart) (hs : s.Sound)
    (hplaced : All (fun _ record => record.Placed) s.tcpRecords) (hstep : Step s label s') :
    s'.PortsApart := by
  intro kind family port id other hid hother
  obtain ⟨mover, hmover⟩ := hstep.holders hs hplaced kind
  by_contra hne
  -- A holder before the step makes the check of the socket that moves fail.
  have hbusy : ∀ (i j : Nat) (identity : SocketIdentity), s.HoldsPort i family port kind → j ≠ i →
      identity.id = j → s.inUse port family (some identity) kind ≠ false := by
    rintro i j identity hholds hji rfl hfree
    rw [hholds.inUse hs hji] at hfree
    cases hfree
  rcases hmover family port id hid with hold | ⟨rfl, identity, hidentity, hfree⟩
  · rcases hmover family port other hother with hold' | ⟨rfl, identity, hidentity, hfree⟩
    · exact hne (h kind family port id other hold hold')
    · exact hbusy id _ identity hold (Ne.symm hne) hidentity hfree
  · rcases hmover family port other hother with hold' | ⟨hsame, -⟩
    · exact hbusy other _ identity hold' hne hidentity hfree
    · exact hne hsame.symm

/-! ## Ports given out -/

/-- An allocation is of an ephemeral port that no socket of the family held, and the socket that got the
port keeps it, as a record and as a listener. -/
structure Allotted (s : NativeStack) (allocation : Allocation) : Prop where
  ephemeral : Ephemeral allocation.port
  unheld : allocation.port ∉ allocation.held
  known : allocation.identity.id < s.nextSocketId
  tcp : allocation.kind = .tcp → ∀ record, s.tcpRecords[allocation.identity.id]? = some record →
    ∃ endpoint, record.localEndpoint = some endpoint ∧ endpoint.port = allocation.port
  listener : allocation.kind = .tcp → ∀ listener, s.tcpListeners[allocation.identity.id]? = some listener →
    listener.localEndpoint.port = allocation.port
  udp : allocation.kind = .udp → ∀ record, s.udpRecords[allocation.identity.id]? = some record →
    ∃ endpoint, record.localEndpoint = some endpoint ∧ endpoint.port = allocation.port

/-- A socket keeps the port it was given. -/
theorem Allotted.step {allocation : Allocation} (h : s.Allotted allocation)
    (hplaced : All (fun _ record => record.Placed) s.tcpRecords) (hstep : Step s label s') :
    s'.Allotted allocation := by
  have hknown := h.known
  refine ⟨h.ephemeral, h.unheld, hknown.trans_le hstep.nextSocketId_le, fun hkind record hrecord => ?_,
    fun hkind listener hlistener => ?_, fun hkind record hrecord => ?_⟩
  · obtain ⟨_, hwrites⟩ := hstep.writesRecords.entries
    rcases hwrites _ record hrecord with hold | ⟨-, hfrom⟩
    · exact h.tcp hkind record hold
    cases hfrom with
    | amended hbefore hchanged =>
        rw [hchanged.localEndpoint]
        exact h.tcp hkind _ hbefore
    | opened _ _ _ _ _ hid => omega
    | bound endpoint scopeId hbefore hphase _ _ =>
        obtain ⟨held, hheld, -⟩ := h.tcp hkind _ hbefore
        rw [(hplaced _ _ hbefore).opened hphase] at hheld
        cases hheld
    | connected selected remote scopeId hbefore _ _ _ hbound =>
        obtain ⟨held, hheld, hport⟩ := h.tcp hkind _ hbefore
        exact ⟨selected, rfl, (hbound held hheld).trans hport⟩
    | accepted _ _ _ _ _ _ _ hid => omega
  · obtain ⟨_, hwrites⟩ := hstep.writesListeners.entries
    rcases hwrites _ listener hlistener with hold | ⟨-, hfrom⟩
    · exact h.listener hkind listener hold
    cases hfrom with
    | amended hbefore hlocal =>
        rw [hlocal]
        exact h.listener hkind _ hbefore
    | listens hbefore _ hlocal =>
        obtain ⟨held, hheld, hport⟩ := h.tcp hkind _ hbefore
        rw [hlocal] at hheld
        obtain rfl := Option.some.inj hheld
        exact hport
  · obtain ⟨_, hwrites⟩ := hstep.writesUdp.entries
    rcases hwrites _ record hrecord with hold | ⟨-, hfrom⟩
    · exact h.udp hkind record hold
    cases hfrom with
    | amended hbefore _ hlocal =>
        rw [hlocal]
        exact h.udp hkind _ hbefore
    | opened _ _ _ hid _ => omega
    | bound hbefore _ hopen _ _ =>
        obtain ⟨held, hheld, -⟩ := h.udp hkind _ hbefore
        rw [hopen] at hheld
        cases hheld

/-- A socket that is bound or connects to an ephemeral port is allotted it. -/
theorem allotted_record (hs : s.Sound) {record changed : TcpRecord} {endpoint : IpEndpoint}
    (hrecord : s.tcpRecords[record.identity.id]? = some record) (hrange : Ephemeral endpoint.port)
    (hunused : endpoint.port ∉ s.usedTcpPorts record.family)
    (hlocal : changed.localEndpoint = some endpoint)
    (hrecords : s'.tcpRecords = s.tcpRecords.insert record.identity.id changed)
    (hlisteners : s'.tcpListeners = s.tcpListeners) (hnext : s'.nextSocketId = s.nextSocketId) :
    s'.Allotted ⟨.tcp, record.identity, endpoint.port, s.usedTcpPorts record.family⟩ := by
  refine ⟨hrange, hunused, ?_, fun _ found hfound => ?_, fun _ listener hlistener => ?_,
    fun hkind => by cases hkind⟩
  · rw [hnext]
    exact hs.lt_next hrecord
  · rw [hrecords, ExtTreeMap.getElem?_insert_self] at hfound
    obtain rfl := Option.some.inj hfound
    exact ⟨endpoint, hlocal, rfl⟩
  · rw [hlisteners] at hlistener
    exact ((hs.rostered.tcp_apart _ (mem_of_getElem? hrecord)).1 (mem_of_getElem? hlistener)).elim

/-- Every port that a step gives out is allotted. -/
theorem Step.allocations (h : Step s label s') (hs : s.Sound) :
    ∀ allocation ∈ s'.history.allocations, allocation ∈ s.history.allocations ∨ s'.Allotted allocation := by
  have hlogged : ∀ {ephemeral : Bool} {allocation : Allocation},
      (ephemeral = true → s'.Allotted allocation) →
      s'.history.allocations = (if ephemeral then s.history.allocations ++ [allocation]
        else s.history.allocations) →
      ∀ other ∈ s'.history.allocations, other ∈ s.history.allocations ∨ s'.Allotted other := by
    intro ephemeral allocation hallotted hlog other hother
    rw [hlog] at hother
    split at hother
    · rename_i hephemeral
      rcases List.mem_append.1 hother with hold | hnew
      · exact .inl hold
      · exact .inr (List.mem_singleton.1 hnew ▸ hallotted hephemeral)
    · exact .inl hother
  cases h with
  | drive h =>
      cases h with
      | wake key => exact fun _ hmem => .inl ((s.undisturbed_wake key).allocations ▸ hmem)
      | promote _ _ _ _ _ _ _ _ _ _ =>
          intro _ hmem
          rw [(undisturbed_markListenerReady _ _).allocations] at hmem
          exact .inl hmem
      | _ => exact fun _ hmem => .inl hmem
  | finish result effects _ =>
      exact fun _ hmem => .inl ((undisturbed_finish result effects _ s).allocations ▸ hmem)
  | bind endpoint scopeId ephemeral hrecord _ _ _ _ hunused =>
      refine hlogged (fun hephemeral => ?_) rfl
      obtain ⟨hrange, hfree⟩ := hunused hephemeral
      exact allotted_record hs hrecord hrange hfree rfl rfl rfl rfl
  | connect scopeId hrecord _ _ _ _ _ _ _ _ _ _ hunused =>
      refine hlogged (fun hephemeral => ?_) rfl
      obtain ⟨hrange, hfree⟩ := hunused (Option.isNone_iff_eq_none.1 hephemeral)
      exact allotted_record hs hrecord hrange hfree rfl rfl rfl rfl
  | @extendUdp record changed _ _ endpoint ephemeral hrecord _ _ _ hidentity _ _ _ hlocal _ hunused _ _ =>
      refine hlogged (fun hephemeral => ?_) rfl
      obtain ⟨hrange, hfree⟩ := hunused hephemeral
      refine ⟨hrange, hfree, ?_, fun hkind => (by cases hkind), fun hkind => (by cases hkind),
        fun _ found hfound => ?_⟩
      · by_contra hle
        exact (hs.rostered.fresh _ (Nat.le_of_not_lt hle)).2.2.1 (mem_of_getElem? hrecord)
      · change (s.udpRecords.insert changed.identity.id changed)[record.identity.id]? = some found at hfound
        rw [hidentity, ExtTreeMap.getElem?_insert_self] at hfound
        obtain rfl := Option.some.inj hfound
        exact ⟨endpoint, hlocal, rfl⟩
  | _ => exact fun _ hmem => .inl hmem

/-! ## The counters -/

theorem ephemeral_next {port : Nat} (hfirst : ephemeralPortFirst ≤ port) (hlast : port ≤ ephemeralPortLast) :
    Ephemeral (nextEphemeral port) := by
  have hrange : ephemeralPortFirst ≤ ephemeralPortLast := by decide
  unfold Ephemeral nextEphemeral
  split <;> omega

/-- The search for a port always starts in the range. -/
theorem Step.searches (h : Step s label s')
    (hnext : Ephemeral s.nextEphemeralPort ∧ Ephemeral s.nextUdpEphemeralPort) :
    Ephemeral s'.nextEphemeralPort ∧ Ephemeral s'.nextUdpEphemeralPort := by
  have hkept : s'.nextEphemeralPort = s.nextEphemeralPort → s'.nextUdpEphemeralPort = s.nextUdpEphemeralPort →
      Ephemeral s'.nextEphemeralPort ∧ Ephemeral s'.nextUdpEphemeralPort := by
    intro htcp hudp
    rw [htcp, hudp]
    exact hnext
  cases h with
  | drive h =>
      cases h with
      | wake key =>
          have hsame := s.undisturbed_wake key
          exact hkept hsame.nextEphemeralPort hsame.nextUdpEphemeralPort
      | promote _ _ _ _ _ _ _ _ _ _ =>
          have hsame := undisturbed_markListenerReady
          exact hkept (hsame _ _).nextEphemeralPort (hsame _ _).nextUdpEphemeralPort
      | _ => exact hnext
  | @finish result effects aborts _ =>
      have hsame := undisturbed_finish result effects aborts s
      exact hkept hsame.nextEphemeralPort hsame.nextUdpEphemeralPort
  | allocate hfirst hlast => exact ⟨ephemeral_next hfirst hlast, hnext.2⟩
  | allocateUdp hfirst hlast => exact ⟨hnext.1, ephemeral_next hfirst hlast⟩
  | _ => exact hnext

/-! ## Every state that is reached -/

structure Ported (s : NativeStack) : Prop where
  placed : All (fun _ record => record.Placed) s.tcpRecords
  apart : s.PortsApart
  allotted : ∀ allocation ∈ s.history.allocations, s.Allotted allocation
  searches : Ephemeral s.nextEphemeralPort ∧ Ephemeral s.nextUdpEphemeralPort

theorem Ported.step (h : s.Ported) (hs : s.Sound) (hstep : Step s label s') :
    s'.Ported where
  placed := hstep.writesRecords.all h.placed fun _ _ hfrom => hfrom.placed h.placed
  apart := h.apart.step hs h.placed hstep
  allotted := by
    intro allocation hmem
    rcases hstep.allocations hs allocation hmem with hold | hnew
    · exact (h.allotted allocation hold).step h.placed hstep
    · exact hnew
  searches := hstep.searches h.searches

theorem ported_new {limits : Limits} {config : StackConfig} {id generation : Nat}
    (h : NativeStack.new limits config id generation = .ok s) : s.Ported := by
  unfold NativeStack.new at h
  split at h
  · simp at h
  · split at h
    · simp at h
    · obtain rfl := Except.ok.inj h
      have hfirst : Ephemeral ephemeralPortFirst := ⟨le_rfl, by decide⟩
      refine ⟨all_empty _, fun kind family port id other hid _ => ?_, fun _ hmem => (by cases hmem),
        hfirst, hfirst⟩
      cases hid with
      | record hrecord _ _ _ _ => simp at hrecord
      | listener hlistener _ _ => simp at hlistener
      | udp hrecord _ _ _ => simp at hrecord

/-- Ports depend on the records, the allocations and the counters only. -/
theorem Ported.of_same (h : s.Ported) (hrecords : s'.tcpRecords = s.tcpRecords)
    (hlisteners : s'.tcpListeners = s.tcpListeners) (hudp : s'.udpRecords = s.udpRecords)
    (hlog : s'.history.allocations = s.history.allocations) (hid : s'.nextSocketId = s.nextSocketId)
    (hnext : s'.nextEphemeralPort = s.nextEphemeralPort)
    (hnextUdp : s'.nextUdpEphemeralPort = s.nextUdpEphemeralPort) : s'.Ported := by
  have hholds : ∀ {kind : SocketKind} {family : AddressFamily} {port id : Nat},
      s'.HoldsPort id family port kind → s.HoldsPort id family port kind := by
    intro kind family port id hholds
    cases hholds with
    | record hrecord hown hfamily hlocal hport => exact .record (hrecords ▸ hrecord) hown hfamily hlocal hport
    | listener hlistener hfamily hport => exact .listener (hlisteners ▸ hlistener) hfamily hport
    | udp hrecord hfamily hlocal hport => exact .udp (hudp ▸ hrecord) hfamily hlocal hport
  refine ⟨hrecords ▸ h.placed, fun kind family port id other hid hother =>
    h.apart kind family port id other (hholds hid) (hholds hother), fun allocation hmem => ?_, ?_⟩
  · have hbefore := h.allotted allocation (hlog ▸ hmem)
    refine ⟨hbefore.ephemeral, hbefore.unheld, hid ▸ hbefore.known, ?_, ?_, ?_⟩
    · rw [hrecords]
      exact hbefore.tcp
    · rw [hlisteners]
      exact hbefore.listener
    · rw [hudp]
      exact hbefore.udp
  · rw [hnext, hnextUdp]
    exact h.searches

theorem Reachable.ported (h : Reachable s) : s.Ported :=
  h.keeps (P := Ported) ported_new (fun _ _ hs => hs.of_same rfl rfl rfl rfl rfl rfl rfl)
    (fun _ hs => hs.of_same rfl rfl rfl rfl rfl rfl rfl) fun _ _ _ hregular hs hstep =>
      hs.step hregular.sound hstep

end NativeStack

end SmolNet
