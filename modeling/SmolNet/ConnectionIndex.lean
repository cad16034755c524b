import SmolNet.AcceptQueues
import SmolNet.RecordSteps
import SmolNet.Script

/-!
# The index of connections

`tcp_connections` finds the record of a connection by its four-tuple.  It is exact as long as no
connection takes a four-tuple that the record of another one still has.  Nothing in the code prevents
that: a connection that the peer has reset keeps its record until it is closed, and the peer may connect
from the same port again.
-/

namespace SmolNet

open Std TreeMap

/-- The index is exactly the map from the four-tuples of the records to their identities. -/
structure Indexed (records : ExtTreeMap Nat TcpRecord)
    (connections : ExtTreeMap ConnectionKey SocketIdentity ConnectionKey.cmp) : Prop where
  record : ∀ (id : Nat) (record : TcpRecord) (key : ConnectionKey), records[id]? = some record →
    record.connectionKey = some key → connections[key]? = some record.identity
  entry : ∀ (key : ConnectionKey) (identity : SocketIdentity), connections[key]? = some identity →
    ∃ record, records[identity.id]? = some record ∧ record.identity = identity ∧
      record.connectionKey = some key

namespace Indexed

variable {records : ExtTreeMap Nat TcpRecord}
  {connections : ExtTreeMap ConnectionKey SocketIdentity ConnectionKey.cmp} {id : Nat}
  {record changed : TcpRecord}

/-- A record that is new or has no four-tuple, and gets none. -/
theorem put (h : Indexed records connections)
    (hkey : ∀ record, records[id]? = some record → record.connectionKey = changed.connectionKey ∧
      record.identity = changed.identity)
    (hnone : records[id]? = none → changed.connectionKey = none) :
    Indexed (records.insert id changed) connections where
  record := by
    intro other found key hfound hfoundKey
    rcases getElem?_insert_eq_some.1 hfound with ⟨rfl, rfl⟩ | ⟨-, hold⟩
    · cases hrecord : records[other]? with
      | none =>
          rw [hnone hrecord] at hfoundKey
          cases hfoundKey
      | some record =>
          obtain ⟨hsame, hidentity⟩ := hkey record hrecord
          rw [← hidentity]
          exact h.record other record key hrecord (hsame.trans hfoundKey)
    · exact h.record other found key hold hfoundKey
  entry := by
    intro key identity hentry
    obtain ⟨record, hrecord, hidentity, hrecordKey⟩ := h.entry key identity hentry
    by_cases hid : identity.id = id
    · subst hid
      obtain ⟨hsame, hidentity'⟩ := hkey record hrecord
      exact ⟨changed, ExtTreeMap.getElem?_insert_self, hidentity'.symm.trans hidentity,
        hsame.symm.trans hrecordKey⟩
    · exact ⟨record, getElem?_insert_eq_some.2 (.inr ⟨hid, hrecord⟩), hidentity, hrecordKey⟩

/-- A record keeps its identity and its four-tuple. -/
theorem amend (h : Indexed records connections) (hrecord : records[id]? = some record)
    (hidentity : changed.identity = record.identity) (hkey : changed.connectionKey = record.connectionKey) :
    Indexed (records.insert id changed) connections := by
  refine h.put (fun found hfound => ?_) fun hnone => ?_
  · rw [hrecord] at hfound
    obtain rfl := Option.some.inj hfound
    exact ⟨hkey.symm, hidentity.symm⟩
  · rw [hrecord] at hnone
    cases hnone

/-- A record takes a four-tuple that no other record has. -/
theorem take (h : Indexed records connections) {key : ConnectionKey}
    (hid : changed.identity.id = id) (hkey : changed.connectionKey = some key)
    (hbefore : ∀ record, records[id]? = some record → record.connectionKey = none)
    (hfree : ∀ (other : Nat) (record : TcpRecord), records[other]? = some record → other ≠ id →
      record.connectionKey ≠ some key) :
    Indexed (records.insert id changed) (connections.insert key changed.identity) where
  record := by
    intro other found otherKey hfound hfoundKey
    rcases getElem?_insert_eq_some.1 hfound with ⟨rfl, rfl⟩ | ⟨hne, hold⟩
    · rw [hkey] at hfoundKey
      obtain rfl := Option.some.inj hfoundKey
      exact ExtTreeMap.getElem?_insert_self
    · have hapart : otherKey ≠ key := by
        rintro rfl
        exact hfree other found hold hne hfoundKey
      exact getElem?_insert_eq_some.2 (.inr ⟨hapart, h.record other found otherKey hold hfoundKey⟩)
  entry := by
    intro otherKey identity hentry
    rcases getElem?_insert_eq_some.1 hentry with ⟨rfl, rfl⟩ | ⟨hne, hold⟩
    · refine ⟨changed, ?_, rfl, hkey⟩
      rw [hid]
      exact ExtTreeMap.getElem?_insert_self
    · obtain ⟨record, hrecord, hidentity, hrecordKey⟩ := h.entry otherKey identity hold
      have hapart : identity.id ≠ id := by
        rintro rfl
        rw [hbefore record hrecord] at hrecordKey
        cases hrecordKey
      exact ⟨record, getElem?_insert_eq_some.2 (.inr ⟨hapart, hrecord⟩), hidentity, hrecordKey⟩

/-- A record goes, with its four-tuple. -/
theorem drop (h : Indexed records connections)
    (hfiled : ∀ (id : Nat) (record : TcpRecord), records[id]? = some record → record.identity.id = id)
    (hrecord : records[record.identity.id]? = some record) :
    Indexed (records.erase record.identity.id) (record.connectionKey.elim connections connections.erase) := by
  cases hkey : record.connectionKey with
  | none =>
      refine ⟨fun other found key hfound => h.record other found key (getElem?_erase_eq_some.1 hfound).2,
        fun key identity hentry => ?_⟩
      obtain ⟨found, hfound, hidentity, hfoundKey⟩ := h.entry key identity hentry
      have hapart : identity.id ≠ record.identity.id := by
        intro hid
        rw [hid, hrecord] at hfound
        obtain rfl := Option.some.inj hfound
        rw [hkey] at hfoundKey
        cases hfoundKey
      exact ⟨found, getElem?_erase_eq_some.2 ⟨hapart, hfound⟩, hidentity, hfoundKey⟩
  | some dropped =>
      have hdropped := h.record _ record dropped hrecord hkey
      refine ⟨fun other found key hfound hfoundKey => ?_, fun key identity hentry => ?_⟩
      · obtain ⟨hne, hold⟩ := getElem?_erase_eq_some.1 hfound
        have hindex := h.record other found key hold hfoundKey
        refine getElem?_erase_eq_some.2 ⟨?_, hindex⟩
        rintro rfl
        -- One four-tuple finds one record.
        have hsame : found.identity = record.identity := Option.some.inj (hindex.symm.trans hdropped)
        exact hne ((hfiled other found hold).symm.trans (congrArg SocketIdentity.id hsame))
      · obtain ⟨hne, hold⟩ := getElem?_erase_eq_some.1 hentry
        obtain ⟨found, hfound, hidentity, hfoundKey⟩ := h.entry key identity hold
        have hapart : identity.id ≠ record.identity.id := by
          intro hid
          rw [hid, hrecord] at hfound
          obtain rfl := Option.some.inj hfound
          rw [hkey] at hfoundKey
          exact hne (Option.some.inj hfoundKey).symm
        exact ⟨found, getElem?_erase_eq_some.2 ⟨hapart, hfound⟩, hidentity, hfoundKey⟩

end Indexed

namespace NativeStack

open Ownership

variable {s s' : NativeStack}

/-- A connection that is logged as no reuse takes a four-tuple that no other record has. -/
theorem untaken_of_logTuple {identity : SocketIdentity} {key : ConnectionKey}
    (h : (s.logTuple identity key).history.reused = []) :
    s.history.reused = [] ∧ ∀ (id : Nat) (record : TcpRecord), s.tcpRecords[id]? = some record →
      record.identity ≠ identity → record.connectionKey ≠ some key := by
  unfold logTuple at h
  dsimp only at h
  split at h
  · simp at h
  · rename_i htaken
    refine ⟨h, fun id record hrecord hne hkey => htaken ?_⟩
    have hin : (id, record) ∈ s.tcpRecords.toList := ExtTreeMap.mem_toList_iff_getElem?_eq_some.2 hrecord
    refine List.any_eq_true.2 ⟨_, hin, ?_⟩
    simp [hne, hkey]

/-- A record that is not connected yet has no four-tuple. -/
theorem TcpRecord.Valid.connectionKey_idle {record : TcpRecord} (h : record.Valid)
    (hidle : record.phase.idle = true) : record.connectionKey = none := by
  unfold TcpRecord.connectionKey
  rw [h.idle hidle]
  cases record.localEndpoint <;> rfl

theorem Indexed.dropRecord (hs : s.Sound) (h : Indexed s.tcpRecords s.tcpConnections) {record : TcpRecord}
    (hrecord : s.tcpRecords[record.identity.id]? = some record) :
    Indexed (s.removeTcpRecord record).tcpRecords (s.removeTcpRecord record).tcpConnections :=
  h.drop (fun id record hrecord => (hs.filed.tcp id record hrecord).1) hrecord

/-- A step of a run in which no four-tuple has been reused keeps the index exact. -/
theorem DriveStep.indexed (hs : s.Sound) {label : StepLabel} (hstep : DriveStep s label s')
    (h : s.history.reused = [] → Indexed s.tcpRecords s.tcpConnections)
    (hreused : s'.history.reused = []) : Indexed s'.tcpRecords s'.tcpConnections := by
  cases hstep with
  | wake key =>
      have hsame := s.undisturbed_wake key
      rw [hsame.tcpRecords, hsame.tcpConnections]
      exact h (hsame.reused ▸ hreused)
  | ingest packet _ _ _ hrecords =>
      cases hrecords with
      | @failed record failure _ htarget _ _ =>
          obtain ⟨-, -, -, -, hok, -⟩ := resetTarget_eq_some htarget
          exact (h hreused).amend (tcpRecord?_eq_ok hok).1 rfl rfl
      | _ => exact h hreused
  | @amend record changed hrecord hchanged _ _ =>
      change Indexed (s.tcpRecords.insert changed.identity.id changed) s.tcpConnections
      rw [hchanged.identity]
      exact (h hreused).amend hrecord hchanged.identity hchanged.key
  | expire hrecord _ _ _ _ => exact (h hreused).amend hrecord rfl rfl
  | reap hrecord _ _ _ _ => exact Indexed.dropRecord hs (h hreused) hrecord
  | @promote listener handle child _ localEndpoint remote _ _ _ _ _ _ hid _ _ _ =>
      have hsame := undisturbed_markListenerReady
        (s.promoted listener handle child localEndpoint remote) listener.identity
      rw [hsame.reused] at hreused
      obtain ⟨hbefore, hfree⟩ := untaken_of_logTuple hreused
      rw [hsame.tcpRecords, hsame.tcpConnections]
      refine (h hbefore).take rfl rfl (fun record hrecord => ?_) fun other record hrecord hne => ?_
      · exact ((hs.rostered.fresh child.id hid).1 (mem_of_getElem? hrecord)).elim
      · refine hfree other record hrecord fun hidentity => hne ?_
        rw [← (hs.filed.tcp other record hrecord).1, hidentity]
  | _ => exact h hreused

theorem Step.indexed (hs : s.Sound) {label : StepLabel} (hstep : Step s label s')
    (hrunning : s.lifecycle = .running)
    (h : s.history.reused = [] → Indexed s.tcpRecords s.tcpConnections)
    (hreused : s'.history.reused = []) : Indexed s'.tcpRecords s'.tcpConnections := by
  cases hstep with
  | drive hstep => exact hstep.indexed hs h hreused
  | @finish result effects aborts _ =>
      have hsame := undisturbed_finish result effects aborts s
      rw [hsame.tcpRecords, hsame.tcpConnections]
      exact h (hsame.reused ▸ hreused)
  | @openTcp identity _ _ _ hid _ _ _ _ _ =>
      refine (h hreused).put (fun record hrecord => ?_) fun _ => rfl
      exact ((hs.rostered.fresh identity.id hid).1 (mem_of_getElem? hrecord)).elim
  | @bind record endpoint _ _ hrecord hphase _ _ _ _ =>
      have hvalid := (hs.filed.tcp _ record hrecord).2
      have hidle : record.phase.idle = true := by rw [hphase]; rfl
      refine (h hreused).amend hrecord rfl ?_
      rw [TcpRecord.Valid.connectionKey_idle hvalid hidle]
      unfold TcpRecord.connectionKey
      dsimp only
      rw [hvalid.idle hidle]
  | @connect record _ _ selected remote _ hrecord hidle _ _ _ _ _ _ _ _ _ _ =>
      obtain ⟨hbefore, hfree⟩ := untaken_of_logTuple hreused
      refine (h hbefore).take rfl rfl (fun found hfound => ?_) fun other found hfound hne => ?_
      · rw [hrecord] at hfound
        obtain rfl := Option.some.inj hfound
        exact TcpRecord.Valid.connectionKey_idle (hs.filed.tcp _ record hrecord).2 hidle
      · refine hfree other found hfound fun hidentity => hne ?_
        rw [← (hs.filed.tcp other found hfound).1, hidentity]
  | listen hrecord _ _ _ _ _ _ _ _ _ _ _ _ _ _ _ _ _ _ => exact Indexed.dropRecord hs (h hreused) hrecord
  | startClose deadline hrecord _ _ _ _ => exact (h hreused).amend hrecord rfl rfl
  | dropRecord hrecord _ => exact Indexed.dropRecord hs (h hreused) hrecord
  | dropConnection key hdown => exact (hdown hrunning).elim
  | _ => exact h hreused

/-- The index is exact on a running stack if no connection of the run took a four-tuple that the record
of another one still had. -/
theorem reachable_indexed (h : Reachable s) (hrunning : s.lifecycle = .running)
    (hreused : s.history.reused = []) : Indexed s.tcpRecords s.tcpConnections := by
  refine h.keeps (P := fun s => s.lifecycle = .running → s.history.reused = [] →
    Indexed s.tcpRecords s.tcpConnections) (fun hnew _ _ => ?_) (fun _ _ hs => hs) (fun _ hs => hs)
    (fun u label u' hregular hu hstep hrunning' hreused' => ?_) hrunning hreused
  · unfold NativeStack.new at hnew
    split at hnew
    · simp at hnew
    · split at hnew
      · simp at hnew
      · obtain rfl := Except.ok.inj hnew
        exact ⟨fun id record key hrecord => by simp at hrecord, fun key identity hentry => by simp at hentry⟩
  · have hbefore := hstep.running hrunning'
    exact hstep.indexed hregular.sound hbefore (hu hbefore) hreused'

/-- The peer's connection from port 5000 waits, and is in the index. -/
theorem reachable_indexed_waiting :
    Reachable Script.waiting ∧ Script.waiting.lifecycle = .running ∧ Script.waiting.history.reused = [] ∧
      Script.waiting.tcpConnections[ConnectionKey.ofEndpoints (Script.endpoint Script.host 80)
        (Script.endpoint Script.peer 5000)]? = some ⟨2, 2⟩ ∧
      Indexed Script.waiting.tcpRecords Script.waiting.tcpConnections :=
  have hreached : Reachable Script.waiting := Script.reachable_stack.run _
  ⟨hreached, by decide +kernel, by decide +kernel, by decide +kernel,
    reachable_indexed hreached (by decide +kernel) (by decide +kernel)⟩

/-- The peer resets its accepted connection and connects again from the same port, and then the
application closes the socket of the first connection. -/
def reconnected : NativeStack :=
  let s := (Script.waiting.run [(.tcpAccept ⟨1, 1⟩ 7 1, {}), Script.receives 5000 80 Script.rst 0 .resets]).2
  let s := (s.run (Script.handshake 5000 80 1)).2
  (s.run [(.tcpAccept ⟨1, 1⟩ 7 2, {}), (.tcpClose ⟨2, 2⟩ 0, {})]).2

/-- The second connection is established, and the index has lost it. -/
theorem reconnected_not_indexed :
    Reachable reconnected ∧ reconnected.lifecycle = .running ∧
      (∃ record, reconnected.tcpRecords[3]? = some record ∧ record.phase = .connected ∧
        record.connectionKey = some (.ofEndpoints (Script.endpoint Script.host 80)
          (Script.endpoint Script.peer 5000)) ∧
        (reconnected.sockets.tcp? record.handle).map TcpSocket.state = some .established) ∧
      reconnected.tcpConnections.toList = [] ∧
      ¬ Indexed reconnected.tcpRecords reconnected.tcpConnections := by
  have hreached : Reachable reconnected := (((Script.reachable_stack.run _).run _).run _).run _
  have hsome : reconnected.tcpRecords[3]?.isSome = true := by decide +kernel
  obtain ⟨record, hrecord⟩ := Option.isSome_iff_exists.1 hsome
  have hkey : reconnected.tcpRecords[3]?.bind TcpRecord.connectionKey =
      some (.ofEndpoints (Script.endpoint Script.host 80) (Script.endpoint Script.peer 5000)) := by
    decide +kernel
  have hphase : reconnected.tcpRecords[3]?.map TcpRecord.phase = some .connected := by decide +kernel
  have hstate : (reconnected.tcpRecords[3]?.bind fun record =>
      (reconnected.sockets.tcp? record.handle).map TcpSocket.state) = some .established := by
    decide +kernel
  have hempty : reconnected.tcpConnections.toList = [] := by decide +kernel
  rw [hrecord, Option.bind_some] at hkey hstate
  rw [hrecord, Option.map_some] at hphase
  have hrunning : reconnected.lifecycle = .running := by decide +kernel
  refine ⟨hreached, hrunning, ⟨record, hrecord, Option.some.inj hphase, hkey, hstate⟩, hempty, fun hindexed => ?_⟩
  have hfound := hindexed.record 3 record _ hrecord hkey
  have hin := ExtTreeMap.mem_toList_iff_getElem?_eq_some.2 hfound
  rw [hempty] at hin
  cases hin

end NativeStack

end SmolNet
