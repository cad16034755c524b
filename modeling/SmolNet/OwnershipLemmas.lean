import SmolNet.Ownership

/-!
# Ownership under changes of the maps

How each part of the ownership invariant follows one change of a map: a record replaced, added or
removed, a handle added to or removed from the socket set.
-/

namespace SmolNet.Ownership

open Std TreeMap

variable {tcpRecords : ExtTreeMap Nat TcpRecord} {tcpListeners : ExtTreeMap Nat ListenerRecord}
  {udpRecords : ExtTreeMap Nat UdpRecord} {sockets : SocketSet} {id : Nat}

theorem mem_of_getElem? {β : Type} {m : ExtTreeMap Nat β} {v : β} (h : m[id]? = some v) : id ∈ m := by
  rw [ExtTreeMap.mem_iff_isSome_getElem?, h]
  rfl

/-! ## Handles held -/

theorem handles_insert_tcp (record : TcpRecord) :
    handles (tcpRecords.insert id record) tcpListeners udpRecords =
      record.handle ::ₘ handles (tcpRecords.erase id) tcpListeners udpRecords := by
  simp [handles, tcpHandles, vals_insert]

theorem handles_eq_tcp {record : TcpRecord} (h : tcpRecords[id]? = some record) :
    handles tcpRecords tcpListeners udpRecords =
      record.handle ::ₘ handles (tcpRecords.erase id) tcpListeners udpRecords := by
  simp [handles, tcpHandles, vals_eq_cons_erase h]

theorem handles_insert_listener (listener : ListenerRecord) :
    handles tcpRecords (tcpListeners.insert id listener) udpRecords =
      elems listener.pool + handles tcpRecords (tcpListeners.erase id) udpRecords := by
  simp only [handles, poolHandles, vals_insert, Multiset.cons_bind]
  abel

theorem handles_eq_listener {listener : ListenerRecord} (h : tcpListeners[id]? = some listener) :
    handles tcpRecords tcpListeners udpRecords =
      elems listener.pool + handles tcpRecords (tcpListeners.erase id) udpRecords := by
  simp only [handles, poolHandles, vals_eq_cons_erase h, Multiset.cons_bind]
  abel

theorem handles_insert_udp (record : UdpRecord) :
    handles tcpRecords tcpListeners (udpRecords.insert id record) =
      (record.handles : Multiset Nat) + handles tcpRecords tcpListeners (udpRecords.erase id) := by
  simp only [handles, udpHandles, vals_insert, Multiset.cons_bind]
  abel

theorem handles_eq_udp {record : UdpRecord} (h : udpRecords[id]? = some record) :
    handles tcpRecords tcpListeners udpRecords =
      (record.handles : Multiset Nat) + handles tcpRecords tcpListeners (udpRecords.erase id) := by
  simp only [handles, udpHandles, vals_eq_cons_erase h, Multiset.cons_bind]
  abel

/-! ## The socket set -/

theorem keySet_add (sockets : SocketSet) (socket : NativeSocket) :
    keySet (sockets.add socket).2 = sockets.freeHandle ::ₘ keySet sockets :=
  keySet_insert_of_not_mem sockets.freeHandle_not_mem socket

theorem getElem?_eraseAll (sockets : SocketSet) (removed : List Nat) (handle : Nat) :
    (NativeStack.eraseAll sockets removed)[handle]? =
      if handle ∈ removed then none else sockets[handle]? := by
  induction removed generalizing sockets with
  | nil => simp [NativeStack.eraseAll]
  | cons first removed ih =>
      have hstep : NativeStack.eraseAll sockets (first :: removed) =
        NativeStack.eraseAll (sockets.erase first) removed := rfl
      rw [hstep, ih, ExtTreeMap.getElem?_erase]
      grind

theorem keySet_eraseAll {removed : List Nat} (hnodup : removed.Nodup)
    (hmem : ∀ handle ∈ removed, handle ∈ sockets) :
    keySet sockets = (removed : Multiset Nat) + keySet (NativeStack.eraseAll sockets removed) := by
  induction removed generalizing sockets with
  | nil => simp [NativeStack.eraseAll]
  | cons first removed ih =>
      rw [List.nodup_cons] at hnodup
      rw [keySet_eq_cons_erase (hmem first (by simp)), ← Multiset.cons_coe, Multiset.cons_add]
      refine congrArg (first ::ₘ ·) (ih hnodup.2 fun handle hhandle => ?_)
      have := hmem handle (by simp [hhandle])
      grind

theorem keySet_extends {s : NativeStack} {added : List Nat} (h : s.Extends sockets added) :
    keySet sockets = (added : Multiset Nat) + keySet s.sockets := by
  refine (Multiset.Nodup.ext (nodup_keySet _) ?_).2 fun handle => ?_
  · refine Multiset.nodup_add.2 ⟨Multiset.coe_nodup.2 h.nodup, nodup_keySet _, ?_⟩
    refine Multiset.disjoint_left.2 ?_
    intro handle hadded hkey
    exact h.fresh handle hadded (mem_keySet.1 hkey)
  · rw [mem_keySet, h.mem, Multiset.mem_add, mem_keySet, Multiset.mem_coe, or_comm]

/-! ## Identities -/

section

variable {roster : Nat → Option (Nat × SocketKind × SocketLifecycle)} {closingTcp : ExtTreeSet Nat}
  {next : Nat} (h : Rostered tcpRecords tcpListeners udpRecords roster closingTcp next)
include h

namespace Rostered

theorem replaceTcp {old new : TcpRecord} (hold : tcpRecords[id]? = some old)
    (hidentity : new.identity = old.identity) :
    Rostered (tcpRecords.insert id new) tcpListeners udpRecords roster closingTcp next := by
  have hmem := mem_of_getElem? hold
  obtain ⟨hentry, htcp, hlistener, hfresh, hclosing⟩ := h
  refine ⟨?_, ?_, hlistener, ?_, hclosing⟩
  · intro i generation kind lifecycle hroster
    have := hentry i generation kind lifecycle hroster
    cases kind <;> simp only [Holds] at this ⊢ <;> grind
  · grind
  · grind

theorem eraseTcp (hroster : roster id = none) :
    Rostered (tcpRecords.erase id) tcpListeners udpRecords roster closingTcp next := by
  obtain ⟨hentry, htcp, hlistener, hfresh, hclosing⟩ := h
  refine ⟨?_, ?_, hlistener, ?_, hclosing⟩
  · intro i generation kind lifecycle hi
    have := hentry i generation kind lifecycle hi
    cases kind <;> simp only [Holds] at this ⊢ <;> grind
  · grind
  · grind

theorem replaceListener {old new : ListenerRecord} (hold : tcpListeners[id]? = some old)
    (hidentity : new.identity = old.identity) :
    Rostered tcpRecords (tcpListeners.insert id new) udpRecords roster closingTcp next := by
  have hmem := mem_of_getElem? hold
  obtain ⟨hentry, htcp, hlistener, hfresh, hclosing⟩ := h
  refine ⟨?_, ?_, ?_, ?_, hclosing⟩
  · intro i generation kind lifecycle hroster
    have := hentry i generation kind lifecycle hroster
    cases kind <;> simp only [Holds] at this ⊢ <;> grind
  · grind
  · grind
  · grind

theorem eraseListener (hroster : roster id = none) :
    Rostered tcpRecords (tcpListeners.erase id) udpRecords roster closingTcp next := by
  obtain ⟨hentry, htcp, hlistener, hfresh, hclosing⟩ := h
  refine ⟨?_, ?_, ?_, ?_, hclosing⟩
  · intro i generation kind lifecycle hi
    have := hentry i generation kind lifecycle hi
    cases kind <;> simp only [Holds] at this ⊢ <;> grind
  · grind
  · grind
  · grind

theorem replaceUdp {old new : UdpRecord} (hold : udpRecords[id]? = some old)
    (hidentity : new.identity = old.identity) :
    Rostered tcpRecords tcpListeners (udpRecords.insert id new) roster closingTcp next := by
  have hmem := mem_of_getElem? hold
  obtain ⟨hentry, htcp, hlistener, hfresh, hclosing⟩ := h
  refine ⟨?_, ?_, ?_, ?_, hclosing⟩
  · intro i generation kind lifecycle hroster
    have := hentry i generation kind lifecycle hroster
    cases kind <;> simp only [Holds] at this ⊢ <;> grind
  · grind
  · grind
  · grind

theorem eraseUdp (hroster : roster id = none) :
    Rostered tcpRecords tcpListeners (udpRecords.erase id) roster closingTcp next := by
  obtain ⟨hentry, htcp, hlistener, hfresh, hclosing⟩ := h
  refine ⟨?_, ?_, ?_, ?_, hclosing⟩
  · intro i generation kind lifecycle hi
    have := hentry i generation kind lifecycle hi
    cases kind <;> simp only [Holds] at this ⊢ <;> grind
  · grind
  · grind
  · grind

/-- A record becomes a listener of the same identity. -/
theorem tcpToListener {record : TcpRecord} {listener : ListenerRecord}
    (hold : tcpRecords[id]? = some record) (hidentity : listener.identity = record.identity) :
    Rostered (tcpRecords.erase id) (tcpListeners.insert id listener) udpRecords roster closingTcp
      next := by
  have hmem := mem_of_getElem? hold
  obtain ⟨hentry, htcp, hlistener, hfresh, hclosing⟩ := h
  refine ⟨?_, ?_, ?_, ?_, hclosing⟩
  · intro i generation kind lifecycle hroster
    have := hentry i generation kind lifecycle hroster
    cases kind <;> simp only [Holds] at this ⊢ <;> grind
  · grind
  · grind
  · grind

/-- A new TCP socket gets its entry and its record. -/
theorem admitTcp (record : TcpRecord) (hid : next ≤ id) (hrecord : record.identity.id = id) :
    Rostered (tcpRecords.insert id record) tcpListeners udpRecords
      (Function.update roster id (some (record.identity.generation, .tcp, .open))) closingTcp
      (id + 1) := by
  have hunused := h.fresh id hid
  obtain ⟨hentry, htcp, hlistener, hfresh, hclosing⟩ := h
  refine ⟨?_, ?_, hlistener, ?_, ?_⟩
  · intro i generation kind lifecycle hroster
    rw [Function.update_apply] at hroster
    split at hroster
    · rename_i hi
      simp only [Option.some.injEq, Prod.mk.injEq] at hroster
      obtain ⟨rfl, rfl, rfl⟩ := hroster
      subst hi hrecord
      exact ⟨rfl, .inl ⟨record, by simp, rfl⟩⟩
    · have := hentry i generation kind lifecycle hroster
      cases kind <;> simp only [Holds] at this ⊢ <;> grind
  · grind
  · simp only [Function.update_apply]
    grind
  · simp only [Function.update_apply]
    grind

/-- A new UDP socket gets its entry and its record. -/
theorem admitUdp (record : UdpRecord) (hid : next ≤ id) (hrecord : record.identity.id = id) :
    Rostered tcpRecords tcpListeners (udpRecords.insert id record)
      (Function.update roster id (some (record.identity.generation, .udp, .open))) closingTcp
      (id + 1) := by
  have hunused := h.fresh id hid
  obtain ⟨hentry, htcp, hlistener, hfresh, hclosing⟩ := h
  refine ⟨?_, ?_, ?_, ?_, ?_⟩
  · intro i generation kind lifecycle hroster
    rw [Function.update_apply] at hroster
    split at hroster
    · rename_i hi
      simp only [Option.some.injEq, Prod.mk.injEq] at hroster
      obtain ⟨rfl, rfl, rfl⟩ := hroster
      subst hi hrecord
      exact ⟨rfl, record, by simp, rfl⟩
    · have := hentry i generation kind lifecycle hroster
      cases kind <;> simp only [Holds] at this ⊢ <;> grind
  · grind
  · grind
  · simp only [Function.update_apply]
    grind
  · simp only [Function.update_apply]
    grind

/-- An entry leaves the table. -/
theorem close :
    Rostered tcpRecords tcpListeners udpRecords (Function.update roster id none) closingTcp next := by
  obtain ⟨hentry, htcp, hlistener, hfresh, hclosing⟩ := h
  refine ⟨?_, htcp, hlistener, ?_, ?_⟩
  · intro i generation kind lifecycle hroster
    rw [Function.update_apply] at hroster
    split at hroster
    · simp at hroster
    · exact hentry i generation kind lifecycle hroster
  · simp only [Function.update_apply]
    grind
  · simp only [Function.update_apply]
    grind

theorem startClosing (hroster : roster id = none) (hmem : id ∈ tcpRecords) :
    Rostered tcpRecords tcpListeners udpRecords roster (closingTcp.insert id) next := by
  obtain ⟨hentry, htcp, hlistener, hfresh, hclosing⟩ := h
  refine ⟨hentry, htcp, hlistener, ?_, ?_⟩
  · grind
  · grind

theorem endClosing :
    Rostered tcpRecords tcpListeners udpRecords roster (closingTcp.erase id) next := by
  obtain ⟨hentry, htcp, hlistener, hfresh, hclosing⟩ := h
  refine ⟨hentry, htcp, hlistener, ?_, ?_⟩
  · grind
  · grind

end Rostered

end

/-! ## Accept queues -/

theorem queued_insert (listener : ListenerRecord) :
    queued (tcpListeners.insert id listener) =
      (listener.accepted : Multiset SocketIdentity) + queued (tcpListeners.erase id) := by
  simp [queued, vals_insert]

theorem queued_eq {listener : ListenerRecord} (h : tcpListeners[id]? = some listener) :
    queued tcpListeners =
      (listener.accepted : Multiset SocketIdentity) + queued (tcpListeners.erase id) := by
  simp [queued, vals_eq_cons_erase h]

theorem mem_queued {child : SocketIdentity} :
    child ∈ queued tcpListeners ↔
      ∃ (id : Nat) (listener : ListenerRecord),
        tcpListeners[id]? = some listener ∧ child ∈ listener.accepted := by
  simp only [queued, Multiset.mem_bind, mem_vals, Multiset.mem_coe]
  constructor
  · rintro ⟨listener, ⟨id, hid⟩, h⟩
    exact ⟨id, listener, hid, h⟩
  · rintro ⟨id, listener, hid, h⟩
    exact ⟨listener, ⟨id, hid⟩, h⟩

section

variable {next : Nat} (h : QueuedOnce tcpRecords tcpListeners udpRecords next)
include h

namespace QueuedOnce

theorem replaceTcp {old new : TcpRecord} (hold : tcpRecords[id]? = some old)
    (hidle : new.phase.idle = true → old.phase.idle = true) :
    QueuedOnce (tcpRecords.insert id new) tcpListeners udpRecords next := by
  refine ⟨h.nodup, fun child hchild => ?_⟩
  have := h.child child hchild
  grind

theorem eraseTcp : QueuedOnce (tcpRecords.erase id) tcpListeners udpRecords next := by
  refine ⟨h.nodup, fun child hchild => ?_⟩
  have := h.child child hchild
  grind

theorem insertTcp (record : TcpRecord) (hid : next ≤ id) :
    QueuedOnce (tcpRecords.insert id record) tcpListeners udpRecords next := by
  refine ⟨h.nodup, fun child hchild => ?_⟩
  have := h.child child hchild
  grind

theorem replaceListener {old new : ListenerRecord} (hold : tcpListeners[id]? = some old)
    (hle : (new.accepted : Multiset SocketIdentity) ≤ old.accepted) :
    QueuedOnce tcpRecords (tcpListeners.insert id new) udpRecords next := by
  have hmem := mem_of_getElem? hold
  have hqueued : queued (tcpListeners.insert id new) ≤ queued tcpListeners := by
    rw [queued_insert, queued_eq hold]
    exact add_le_add_left hle _
  refine ⟨Multiset.nodup_of_le hqueued h.nodup, fun child hchild => ?_⟩
  have := h.child child (Multiset.mem_of_le hqueued hchild)
  grind

theorem eraseListener : QueuedOnce tcpRecords (tcpListeners.erase id) udpRecords next := by
  have hqueued : queued (tcpListeners.erase id) ≤ queued tcpListeners := by
    cases hid : tcpListeners[id]? with
    | none => rw [erase_eq_self hid]
    | some listener =>
        rw [queued_eq hid]
        exact Multiset.le_add_left _ _
  refine ⟨Multiset.nodup_of_le hqueued h.nodup, fun child hchild => ?_⟩
  have := h.child child (Multiset.mem_of_le hqueued hchild)
  grind

/-- A new connection joins a queue. -/
theorem append {old new : ListenerRecord} {child : SocketIdentity}
    (hold : tcpListeners[id]? = some old) (haccepted : new.accepted = old.accepted ++ [child])
    (hid : next ≤ child.id) (hlistener : child.id ∉ tcpListeners) (hudp : child.id ∉ udpRecords)
    (hrecord : ∀ record, tcpRecords[child.id]? = some record → record.phase.idle = false) :
    QueuedOnce tcpRecords (tcpListeners.insert id new) udpRecords (child.id + 1) := by
  have hmem := mem_of_getElem? hold
  have hqueued : queued (tcpListeners.insert id new) = child ::ₘ queued tcpListeners := by
    rw [queued_insert, queued_eq hold, haccepted, ← Multiset.coe_add, Multiset.coe_singleton,
      ← Multiset.singleton_add]
    abel
  have hnew : child ∉ queued tcpListeners := fun hchild => by
    have := (h.child child hchild).1
    omega
  refine ⟨?_, ?_⟩
  · rw [hqueued]
    exact Multiset.nodup_cons.2 ⟨hnew, h.nodup⟩
  · intro other hother
    rw [hqueued, Multiset.mem_cons] at hother
    rcases hother with rfl | hother
    · grind
    · have := h.child other hother
      grind

/-- A record that is not connected becomes a listener with an empty queue. -/
theorem tcpToListener {record : TcpRecord} {listener : ListenerRecord}
    (hold : tcpRecords[id]? = some record) (hidle : record.phase.idle = true)
    (haccepted : listener.accepted = []) :
    QueuedOnce (tcpRecords.erase id) (tcpListeners.insert id listener) udpRecords next := by
  have herase : QueuedOnce tcpRecords (tcpListeners.erase id) udpRecords next := h.eraseListener
  have hqueued : queued (tcpListeners.insert id listener) = queued (tcpListeners.erase id) := by
    rw [queued_insert, haccepted]
    simp
  refine ⟨hqueued ▸ herase.nodup, fun child hchild => ?_⟩
  rw [hqueued] at hchild
  have := herase.child child hchild
  have hle : child ∈ queued tcpListeners := by
    cases hid : tcpListeners[id]? with
    | none => rwa [erase_eq_self hid] at hchild
    | some old =>
        rw [queued_eq hid]
        exact Multiset.mem_add.2 (.inr hchild)
  have := h.child child hle
  grind

theorem insertUdp (record : UdpRecord) (hid : next ≤ id) :
    QueuedOnce tcpRecords tcpListeners (udpRecords.insert id record) next := by
  refine ⟨h.nodup, fun child hchild => ?_⟩
  have := h.child child hchild
  grind

theorem replaceUdp {old : UdpRecord} (hold : udpRecords[id]? = some old) (new : UdpRecord) :
    QueuedOnce tcpRecords tcpListeners (udpRecords.insert id new) next := by
  have hmem := mem_of_getElem? hold
  refine ⟨h.nodup, fun child hchild => ?_⟩
  have := h.child child hchild
  grind

theorem eraseUdp : QueuedOnce tcpRecords tcpListeners (udpRecords.erase id) next := by
  refine ⟨h.nodup, fun child hchild => ?_⟩
  have := h.child child hchild
  grind

end QueuedOnce

end

end SmolNet.Ownership
