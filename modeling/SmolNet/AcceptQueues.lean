import SmolNet.Runs

/-!
# Connections that wait to be accepted

A connection that a listener has promoted waits in the listener's queue.  It stays open there, with
its record, unless a caller closes it by name or the stack shuts down.
-/

namespace SmolNet.NativeStack

open Std TreeMap Ownership

variable {s s' : NativeStack} {child : SocketIdentity}

/-- On a running stack the step does not close the connection while it waits in an accept queue. -/
def Spares (child : SocketIdentity) (s : NativeStack) : StepLabel → Prop
  | .closes identity => s.lifecycle = .running → identity = child → child ∉ queued s.tcpListeners
  | _ => True

theorem Gentle.spares {label : StepLabel} (h : Gentle s label) : Spares child s label := by
  cases label with
  | closes identity =>
      rintro hrunning rfl
      exact (h hrunning).2
  | silent => trivial
  | drops identity => trivial
  | cancels key => trivial
  | connects identity localEndpoint remote => trivial

/-- A call that does not close the connection while it waits in an accept queue. -/
def SparesChild (child : SocketIdentity) (s : NativeStack) (call : Call) (_ : World) : Prop :=
  ∀ now, call = .tcpClose child now → s.lifecycle = .running → child ∉ queued s.tcpListeners

/-- A call that closes no connection that waits in an accept queue. -/
def SparesQueued (s : NativeStack) (call : Call) (world : World) : Prop := ∀ child, SparesChild child s call world

theorem SparesChild.allowed {call : Call} {world : World} (h : SparesChild child s call world) :
    call.Allowed (Spares child) (s.beginCall world) := by
  cases call with
  | tcpClose identity now =>
      refine ⟨?_, ?_, fun _ _ _ _ => trivial⟩
      · rintro hrunning rfl
        exact h now rfl hrunning
      · rintro _ _ _ hapart _ rfl
        exact hapart
  | _ => simp [Call.Allowed, Spares]

/-- A queued connection stays open where no queue grows and its entry and record stay. -/
theorem QueuedOpen.of_kept (h : s.QueuedOpen child)
    (hsub : child ∈ queued s'.tcpListeners → child ∈ queued s.tcpListeners)
    (hroster : child ∈ queued s.tcpListeners → s'.socketTable.roster child.id = s.socketTable.roster child.id)
    (hrecord : child ∈ queued s.tcpListeners → ∀ record, s.tcpRecords[child.id]? = some record →
      ∃ changed, s'.tcpRecords[child.id]? = some changed ∧ changed.identity = record.identity) :
    s'.QueuedOpen child := by
  intro hchild
  have hold := hsub hchild
  obtain ⟨hopen, record, hfound, hidentity⟩ := h hold
  obtain ⟨changed, hchanged, hsame⟩ := hrecord hold record hfound
  exact ⟨(hroster hold).trans hopen, changed, hchanged, hsame.trans hidentity⟩

theorem QueuedOpen.inert (h : s.QueuedOpen child) (hinert : Inert s s') : s'.QueuedOpen child := by
  refine h.of_kept (fun hchild => ?_) (fun _ => ?_) fun _ record hrecord => ?_
  · rw [← hinert.tcpListeners]
    exact hchild
  · rw [hinert.roster]
  · exact ⟨record, by rw [hinert.tcpRecords]; exact hrecord, rfl⟩

/-- Only a record changes, and keeps its identity. -/
theorem QueuedOpen.putRecord (h : s.QueuedOpen child) {record : TcpRecord}
    (hrecord : s.tcpRecords[record.identity.id]? = some record)
    (hrecords : ∃ changed : TcpRecord, s'.tcpRecords = s.tcpRecords.insert record.identity.id changed ∧
      changed.identity = record.identity)
    (hlisteners : s'.tcpListeners = s.tcpListeners) (hroster : s'.socketTable = s.socketTable) :
    s'.QueuedOpen child := by
  refine h.of_kept (by rw [hlisteners]; exact id) (by rw [hroster]; exact fun _ => rfl) ?_
  intro hchild found hfound
  obtain ⟨changed, hrecords, hidentity⟩ := hrecords
  rw [hrecords, ExtTreeMap.getElem?_insert]
  split
  · rename_i hid
    rw [Std.compare_eq_iff_eq] at hid
    rw [← hid, hrecord] at hfound
    cases hfound
    exact ⟨changed, rfl, hidentity⟩
  · exact ⟨found, hfound, rfl⟩

/-- A record leaves that no queued connection has. -/
theorem QueuedOpen.eraseRecord (h : s.QueuedOpen child) {id : Nat}
    (hapart : child ∈ queued s.tcpListeners → child.id ≠ id)
    (hrecords : s'.tcpRecords = s.tcpRecords.erase id)
    (hsub : child ∈ queued s'.tcpListeners → child ∈ queued s.tcpListeners)
    (hroster : s'.socketTable = s.socketTable) : s'.QueuedOpen child := by
  refine h.of_kept hsub (by rw [hroster]; exact fun _ => rfl) fun hchild record hrecord => ?_
  rw [hrecords, ExtTreeMap.getElem?_erase, if_neg]
  · exact ⟨record, hrecord, rfl⟩
  · rw [Std.compare_eq_iff_eq]
    exact (hapart hchild).symm

/-- An entry leaves that no queued connection has. -/
theorem QueuedOpen.eraseEntry (h : s.QueuedOpen child) {identity : SocketIdentity} {entry : SocketEntry}
    (hapart : identity = child → child ∉ queued s.tcpListeners)
    (hlookup : s.socketTable.lookup identity = some entry)
    (hentries : s'.socketTable.entries = s.socketTable.entries.erase identity.id)
    (hrecords : s'.tcpRecords = s.tcpRecords) (hlisteners : s'.tcpListeners = s.tcpListeners) :
    s'.QueuedOpen child := by
  refine h.of_kept (by rw [hlisteners]; exact id) (fun hchild => ?_) ?_
  · have hne : child.id ≠ identity.id := by
      intro hid
      have hopen := (h hchild).1
      have hheld := SocketTable.roster_of_lookup hlookup
      rw [← hid, hopen] at hheld
      have hgeneration : child.generation = identity.generation := congrArg Prod.fst (Option.some.inj hheld)
      refine hapart ?_ hchild
      cases child
      cases identity
      simp_all
    rw [SocketTable.roster_erase hentries]
    exact Function.update_of_ne hne _ _
  · rw [hrecords]
    exact fun _ record hrecord => ⟨record, hrecord, rfl⟩

/-- A new entry, under an id that no queued connection has. -/
theorem QueuedOpen.enroll (h : s.QueuedOpen child) (hs : s.Sound) {identity : SocketIdentity} {kind : SocketKind}
    (hid : s.nextSocketId ≤ identity.id)
    (htable : s'.socketTable = s.socketTable.insertEntry identity kind)
    (hrecords : s'.tcpRecords = s.tcpRecords ∨ ∃ record, s'.tcpRecords = s.tcpRecords.insert identity.id record)
    (hlisteners : s'.tcpListeners = s.tcpListeners) : s'.QueuedOpen child := by
  have hne : child ∈ queued s.tcpListeners → child.id ≠ identity.id := by
    intro hchild heq
    exact absurd (hs.queues.child child hchild).1 (Nat.not_lt.2 (heq ▸ hid))
  refine h.of_kept (by rw [hlisteners]; exact id) (fun hchild => ?_) ?_
  · rw [htable, SocketTable.roster_insertEntry]
    exact Function.update_of_ne (hne hchild) _ _
  · intro hchild record hrecord
    refine ⟨record, ?_, rfl⟩
    rcases hrecords with hrecords | ⟨new, hrecords⟩
    · rw [hrecords]
      exact hrecord
    · rw [hrecords, ExtTreeMap.getElem?_insert, if_neg]
      · exact hrecord
      · rw [Std.compare_eq_iff_eq]
        exact (hne hchild).symm

/-- No step leads back to a running stack. -/
theorem Step.running {label : StepLabel} (h : Step s label s') (hrunning : s'.lifecycle = .running) :
    s.lifecycle = .running := by
  cases h with
  | drive h =>
      cases h with
      | wake key => exact (s.undisturbed_wake key).lifecycle ▸ hrunning
      | promote =>
          rw [(undisturbed_markListenerReady _ _).lifecycle] at hrunning
          exact hrunning
      | _ => exact hrunning
  | finish result effects _ => exact (undisturbed_finish result effects _ s).lifecycle ▸ hrunning
  | beginShutdown reason => cases hrunning
  | endShutdown _ => cases hrunning
  | _ => exact hrunning

theorem queued_putListener {listener changed : ListenerRecord}
    (h : s.tcpListeners[listener.identity.id]? = some listener)
    (hidentity : changed.identity = listener.identity)
    (hsub : ∀ child ∈ changed.accepted, child ∈ listener.accepted) {child : SocketIdentity}
    (hchild : child ∈ queued (s.tcpListeners.insert changed.identity.id changed)) :
    child ∈ queued s.tcpListeners := by
  rw [hidentity, queued_insert, Multiset.mem_add] at hchild
  rw [queued_eq h, Multiset.mem_add]
  exact hchild.imp_left (hsub child)

theorem queued_erase {listeners : ExtTreeMap Nat ListenerRecord} {id : Nat} {child : SocketIdentity}
    (h : child ∈ queued (listeners.erase id)) : child ∈ queued listeners := by
  rw [mem_queued] at h ⊢
  obtain ⟨other, listener, hlistener, hchild⟩ := h
  rw [ExtTreeMap.getElem?_erase] at hlistener
  split at hlistener
  · cases hlistener
  · exact ⟨other, listener, hlistener, hchild⟩

/-- A queued connection is open, so it is none of the sockets that have lost their entry. -/
theorem QueuedOpen.ne_of_gone (h : s.QueuedOpen child) {id : Nat} (hgone : s.socketTable.entries[id]? = none)
    (hchild : child ∈ queued s.tcpListeners) : child.id ≠ id := by
  rintro rfl
  have hopen := (h hchild).1
  rw [SocketTable.roster_eq_none.2 hgone] at hopen
  cases hopen

theorem QueuedOpen.step (h : s.QueuedOpen child) (hs : s.Sound) {label : StepLabel} (hstep : Step s label s')
    (hspares : Spares child s label) (hrunning : s.lifecycle = .running) : s'.QueuedOpen child := by
  have hsame : s'.tcpListeners = s.tcpListeners → s'.tcpRecords = s.tcpRecords →
      s'.socketTable = s.socketTable → s'.QueuedOpen child := by
    intro hlisteners hrecords htable
    rw [QueuedOpen, hlisteners, hrecords, htable]
    exact h
  -- The queues may shrink while entries and records stay.
  have hshrinks : (child ∈ queued s'.tcpListeners → child ∈ queued s.tcpListeners) →
      s'.tcpRecords = s.tcpRecords → s'.socketTable = s.socketTable → s'.QueuedOpen child := by
    intro hsub hrecords htable hchild
    rw [hrecords, htable]
    exact h (hsub hchild)
  cases hstep with
  | drive hstep => exact hstep.queuedOpen hs h
  | finish result effects _ => exact h.inert (inert_finish result effects _ s)
  | install hinstall _ _ => exact h.inert (undisturbed_install hinstall _).inert
  | abort habort => exact h.inert (inert_abort habort _ _)
  | cancel hcancel _ _ => exact h.inert (undisturbed_cancel hcancel _).inert
  | close hclose =>
      obtain ⟨entry, hlookup, rfl, rfl⟩ := SocketTable.close_ok hclose
      exact h.eraseEntry (hspares hrunning) hlookup rfl rfl rfl
  | openTcp hid _ _ _ _ _ => exact h.enroll hs hid rfl (.inr ⟨_, rfl⟩) rfl
  | openUdp hid _ _ _ => exact h.enroll hs hid rfl (.inl rfl) rfl
  | bind endpoint scopeId _ hrecord _ _ _ _ _ => exact h.putRecord hrecord ⟨_, rfl, rfl⟩ rfl rfl
  | connect scopeId hrecord _ _ _ _ _ _ _ _ _ _ _ => exact h.putRecord hrecord ⟨_, rfl, rfl⟩ rfl rfl
  | @listen record listener sockets added hrecord hphase _ _ _ _ hidentity haccepted _ _ _ _ _ _ _ _ _ _ _ =>
      -- The record that becomes a listener was bound only, so it is no queued connection's.
      have hapart : child ∈ queued s.tcpListeners → child.id ≠ record.identity.id := by
        intro hchild heq
        have hidle := (hs.queues.child child hchild).2.2.2 record (by rw [heq]; exact hrecord)
        rw [hphase] at hidle
        cases hidle
      refine h.eraseRecord hapart rfl (fun hchild => ?_) rfl
      · change child ∈ queued (s.tcpListeners.insert listener.identity.id listener) at hchild
        rw [queued_insert, haccepted, Multiset.coe_nil, zero_add] at hchild
        exact queued_erase hchild
  | amendListener hlistener hchanged =>
      refine hshrinks (fun hchild => ?_) rfl rfl
      exact queued_putListener hlistener hchanged.identity (by rw [hchanged.accepted]; exact fun _ h => h) hchild
  | @accept listener _ rest hlistener haccepted =>
      refine hshrinks (fun hother => ?_) rfl rfl
      have hsub : ∀ queuer ∈ rest, queuer ∈ listener.accepted := by
        rw [haccepted]
        exact fun _ h => List.mem_cons_of_mem _ h
      exact @queued_putListener s listener { listener with accepted := rest } hlistener rfl hsub _ hother
  | startClose deadline hrecord _ _ _ _ => exact h.putRecord hrecord ⟨_, rfl, rfl⟩ rfl rfl
  | dropRecord hrecord hclosed =>
      exact h.eraseRecord (h.ne_of_gone hclosed) rfl id rfl
  | dropListener hlistener hclosed => exact hshrinks queued_erase rfl rfl
  | closeNext hdown _ _ => exact (hdown hrunning).elim
  | _ => exact hsame rfl rfl rfl

/-- A connection stays open while it is queued in every run whose calls do not close it by name then. -/
theorem ReachableBy.queuedOpen (h : ReachableBy (SparesChild child) s) (hrunning : s.lifecycle = .running) :
    s.QueuedOpen child := by
  refine h.keeps (Spares child) (P := fun s => s.lifecycle = .running → s.QueuedOpen child)
    (fun _ _ => Gentle.spares) (fun _ _ _ _ => SparesChild.allowed) (fun hnew _ hchild => ?_)
    (fun _ _ _ _ hs => hs) (fun _ hs => hs) (fun u label u' hu hopen hstep hspares hrunning' => ?_) hrunning
  · unfold NativeStack.new at hnew
    split at hnew
    · simp at hnew
    · split at hnew
      · simp at hnew
      · obtain rfl := Except.ok.inj hnew
        simp [queued] at hchild
  · have hbefore := hstep.running hrunning'
    exact (hopen hbefore).step hu.sound hstep hspares hbefore

theorem ReachableBy.queuesOpen (h : ReachableBy SparesQueued s) (hrunning : s.lifecycle = .running) :
    s.QueuesOpen :=
  fun child => (h.mono fun _ _ _ hspares => hspares child).queuedOpen hrunning

end SmolNet.NativeStack
