import SmolNet.Runs

/-!
# What a step writes to the records

A step writes at most one TCP record, one listener and one UDP record.  Each written entry is an old
one that was amended or moved on, or a new one under an id that was not in use.
-/

namespace SmolNet.NativeStack

open Std TreeMap Ownership

variable {s s' : NativeStack} {label : StepLabel}

/-- Where a TCP record comes from that a step writes. -/
inductive RecordFrom (s : NativeStack) (id : Nat) : TcpRecord → Prop
  | amended {record changed : TcpRecord} (h : s.tcpRecords[id]? = some record)
      (hchanged : Amends record changed) : RecordFrom s id changed
  | opened (identity : SocketIdentity) (handle : Nat) (family : AddressFamily) (rcvbuf sndbuf : Nat)
      (hid : s.nextSocketId ≤ id) : RecordFrom s id (.new identity handle family rcvbuf sndbuf)
  | bound {record : TcpRecord} (endpoint : IpEndpoint) (scopeId : Nat) (h : s.tcpRecords[id]? = some record)
      (hphase : record.phase = .open) (hfamily : record.family.includes endpoint.addr = true)
      (hfree : s.portInUse endpoint.port record.family (some record.identity) = false) :
      RecordFrom s id
        { record with phase := .bound, localEndpoint := some endpoint, localScopeId := scopeId }
  | connected {record : TcpRecord} (selected remote : IpEndpoint) (scopeId : Nat)
      (h : s.tcpRecords[id]? = some record) (hidle : record.phase.idle = true)
      (hfamily : record.family.includes selected.addr = true)
      (hfree : s.portInUse selected.port record.family (some record.identity) = false)
      (hbound : ∀ bound, record.localEndpoint = some bound → selected.port = bound.port) :
      RecordFrom s id
        { record with
          phase := .connecting
          localEndpoint := some selected
          remote := some remote
          remoteScopeId := scopeId }
  | accepted (child : SocketIdentity) (handle : Nat) (localEndpoint remote : IpEndpoint)
      (scopeId rcvbuf sndbuf : Nat) (hid : s.nextSocketId ≤ id) :
      RecordFrom s id (.ofAccepted child handle localEndpoint remote scopeId rcvbuf sndbuf)

/-- Where a listener comes from that a step writes: it keeps its place, or it was a bound record. -/
inductive ListenerFrom (s : NativeStack) (id : Nat) (changed : ListenerRecord) : Prop
  | amended {listener : ListenerRecord} (h : s.tcpListeners[id]? = some listener)
      (hlocal : changed.localEndpoint = listener.localEndpoint)
  | listens {record : TcpRecord} (h : s.tcpRecords[id]? = some record) (hphase : record.phase = .bound)
      (hlocal : record.localEndpoint = some changed.localEndpoint)

/-- Where a UDP record comes from that a step writes. -/
inductive UdpFrom (s : NativeStack) (id : Nat) (changed : UdpRecord) : Prop
  | amended {record : UdpRecord} (h : s.udpRecords[id]? = some record)
      (hfamily : changed.family = record.family) (hlocal : changed.localEndpoint = record.localEndpoint)
  | opened (identity : SocketIdentity) (handle : Nat) (family : AddressFamily)
      (hid : s.nextSocketId ≤ id) (h : changed = .new identity handle family)
  | bound {record : UdpRecord} {endpoint : ValidatedEndpoint} (h : s.udpRecords[id]? = some record)
      (hfamily : changed.family = record.family) (hopen : record.localEndpoint = none)
      (hlocal : changed.localEndpoint = some endpoint)
      (hfree : s.udpPortInUse endpoint.port record.family (some record.identity) = false)

/-- Where a map stays as it is nothing was written. -/
theorem write_of_eq {β : Type} {From : Nat → β → Prop} {m m' : ExtTreeMap Nat β} (h : m' = m) :
    Write From m m' := by
  subst h
  exact .none

theorem DriveStep.writesRecords (h : DriveStep s label s') :
    Write s.RecordFrom s.tcpRecords s'.tcpRecords := by
  cases h with
  | wake key => exact write_of_eq (s.undisturbed_wake key).tcpRecords
  | ingest packet _ _ _ hrecords =>
      cases hrecords with
      | @failed record failure _ htarget _ _ =>
          obtain ⟨-, -, -, -, hok, -⟩ := resetTarget_eq_some htarget
          exact .put _ _ (.amended (tcpRecord?_eq_ok hok).1 (amends_phase record (.failed failure) rfl))
      | _ => exact .none
  | @amend record changed hrecord hchanged _ _ =>
      refine .put _ _ (.amended ?_ hchanged)
      rw [hchanged.identity]
      exact hrecord
  | expire hrecord _ _ _ _ =>
      exact .put _ _ (.amended hrecord ⟨rfl, rfl, rfl, rfl, rfl, rfl, rfl, rfl, id, id, id⟩)
  | reap _ _ _ _ _ => exact .drop _
  | @promote listener handle child _ localEndpoint remote _ _ _ _ _ _ hid _ _ _ =>
      rw [(undisturbed_markListenerReady _ _).tcpRecords]
      exact .put child.id _ (.accepted child handle localEndpoint remote _ _ _ hid)
  | _ => exact .none

theorem Step.writesRecords (h : Step s label s') : Write s.RecordFrom s.tcpRecords s'.tcpRecords := by
  cases h with
  | drive h => exact h.writesRecords
  | finish result effects _ => exact write_of_eq (undisturbed_finish result effects _ s).tcpRecords
  | openTcp hid _ _ _ _ _ => exact .put _ _ (.opened _ _ _ _ _ hid)
  | bind endpoint scopeId _ hrecord hphase _ hfamily hfree _ =>
      exact .put _ _ (.bound endpoint scopeId hrecord hphase hfamily hfree)
  | @connect record _ _ selected remote scopeId hrecord hidle _ _ _ _ _ _ hfamily hfree hbound _ =>
      exact .put _ _ (.connected selected remote scopeId hrecord hidle hfamily hfree hbound)
  | listen _ _ _ _ _ _ _ _ _ _ _ _ _ _ _ _ _ _ _ => exact .drop _
  | startClose deadline hrecord _ _ _ _ =>
      exact .put _ _ (.amended hrecord ⟨rfl, rfl, rfl, rfl, rfl, rfl, rfl, rfl, id, id, id⟩)
  | dropRecord _ _ => exact .drop _
  | _ => exact .none

theorem DriveStep.writesListeners (h : DriveStep s label s') :
    Write s.ListenerFrom s.tcpListeners s'.tcpListeners := by
  cases h with
  | wake key => exact write_of_eq (s.undisturbed_wake key).tcpListeners
  | promote hlistener _ _ _ _ _ _ _ _ _ =>
      rw [(undisturbed_markListenerReady _ _).tcpListeners]
      exact .put _ _ (.amended hlistener rfl)
  | recycle hlistener _ => exact .put _ _ (.amended hlistener rfl)
  | _ => exact .none

theorem Step.writesListeners (h : Step s label s') : Write s.ListenerFrom s.tcpListeners s'.tcpListeners := by
  cases h with
  | drive h => exact h.writesListeners
  | finish result effects _ => exact write_of_eq (undisturbed_finish result effects _ s).tcpListeners
  | @listen record listener _ _ hrecord hphase _ _ _ _ hidentity _ _ _ hlocal _ _ _ _ _ _ _ _ =>
      refine .put listener.identity.id listener (.listens ?_ hphase hlocal)
      rw [hidentity]
      exact hrecord
  | @amendListener listener changed hlistener hchanged =>
      refine .put changed.identity.id changed (.amended ?_ hchanged.localEndpoint)
      rw [hchanged.identity]
      exact hlistener
  | accept hlistener _ => exact .put _ _ (.amended hlistener rfl)
  | dropListener _ _ => exact .drop _
  | _ => exact .none

theorem DriveStep.keepsUdp (h : DriveStep s label s') : s'.udpRecords = s.udpRecords := by
  cases h with
  | wake key => exact (s.undisturbed_wake key).udpRecords
  | promote _ _ _ _ _ _ _ _ _ _ => exact (undisturbed_markListenerReady _ _).udpRecords
  | _ => rfl

theorem Step.writesUdp (h : Step s label s') : Write s.UdpFrom s.udpRecords s'.udpRecords := by
  cases h with
  | drive h => exact write_of_eq h.keepsUdp
  | finish result effects _ => exact write_of_eq (undisturbed_finish result effects _ s).udpRecords
  | openUdp hid _ _ _ => exact .put _ _ (.opened _ _ _ hid rfl)
  | dropUdp _ _ => exact .drop _
  | @amendUdp record changed hrecord hidentity _ hfamily hlocal =>
      refine .put changed.identity.id changed (.amended ?_ hfamily hlocal)
      rw [hidentity]
      exact hrecord
  | @extendUdp record changed _ _ endpoint _ hrecord _ _ _ hidentity _ hfamily hopen hlocal hfree _ _ _ =>
      refine .put changed.identity.id changed (.bound ?_ hfamily hopen hlocal hfree)
      rw [hidentity]
      exact hrecord
  | _ => exact .none

/-! ## Ids -/

/-- The id counter never goes back. -/
theorem Step.nextSocketId_le (h : Step s label s') : s.nextSocketId ≤ s'.nextSocketId := by
  cases h with
  | drive h =>
      cases h with
      | tick t hid _ => exact hid
      | wake key => exact (s.undisturbed_wake key).nextSocketId.ge
      | @promote _ _ child _ _ _ _ _ _ _ _ _ hid _ _ _ =>
          rw [(undisturbed_markListenerReady _ _).nextSocketId]
          exact hid.trans (Nat.le_succ child.id)
      | _ => exact le_rfl
  | finish result effects _ => exact (undisturbed_finish result effects _ s).nextSocketId.ge
  | openTcp hid _ _ _ _ _ => exact hid.trans (Nat.le_succ _)
  | openUdp hid _ _ _ => exact hid.trans (Nat.le_succ _)
  | _ => exact le_rfl

/-- A record's id has been given out. -/
theorem Sound.lt_next (h : s.Sound) {id : Nat} {record : TcpRecord} (hrecord : s.tcpRecords[id]? = some record) :
    id < s.nextSocketId := by
  by_contra hle
  exact (h.rostered.fresh id (Nat.le_of_not_lt hle)).1 (mem_of_getElem? hrecord)

end SmolNet.NativeStack
