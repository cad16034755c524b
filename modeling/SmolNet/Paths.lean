import SmolNet.OwnershipSteps

/-!
# Paths of steps

Sequences of steps, what they keep, and the paths of the helpers the programs use.
-/

namespace SmolNet.NativeStack

open Std Ownership

variable {s s' t u : NativeStack} {label : StepLabel}

/-- A sequence of drive steps. -/
def DrivePath : NativeStack → NativeStack → Prop :=
  Relation.ReflTransGen fun s s' => ∃ label, DriveStep s label s'

/-- A sequence of steps each of which is `ok` where it is taken. -/
def Path (ok : NativeStack → StepLabel → Prop) : NativeStack → NativeStack → Prop :=
  Relation.ReflTransGen fun s s' => ∃ label, Step s label s' ∧ ok s label

/-- The step cancels no waiter, on a running stack it closes no TCP socket and drops no record, and it
connects with no four-tuple that a live accepted connection has. -/
def Gentle (s : NativeStack) : StepLabel → Prop
  | .closes identity => s.lifecycle = .running → identity.id ∉ s.tcpRecords ∧ identity ∉ queued s.tcpListeners
  | .drops _ => s.lifecycle ≠ .running
  | .connects _ localEndpoint remote => ∀ (id : Nat) (record : TcpRecord) (socket : TcpSocket),
      s.tcpRecords[id]? = some record → record.accepted = true →
      record.localEndpoint = some localEndpoint → record.remote = some remote →
      s.sockets[record.handle]? = some (.tcp socket) → socket.state = .closed
  | .cancels _ => False
  | .silent => True

/-! ## Paths -/

namespace DrivePath

theorem refl (s : NativeStack) : DrivePath s s := Relation.ReflTransGen.refl

theorem trans (h : DrivePath s t) (h' : DrivePath t u) : DrivePath s u :=
  Relation.ReflTransGen.trans h h'

theorem single (h : DriveStep s label s') :
    DrivePath s s' := Relation.ReflTransGen.single ⟨label, h⟩

theorem step (h : DrivePath s t) (h' : DriveStep t label u) : DrivePath s u := h.trans (.single h')

/-- A change of the schedule only. -/
theorem tick (h : s.retimed s' = s') (hid : s.nextSocketId ≤ s'.nextSocketId)
    (hworld : s.world.Continues s'.world) : DrivePath s s' := by
  have hstep := DriveStep.tick s' hid hworld
  rw [h] at hstep
  exact .single hstep

theorem wakeAll (s : NativeStack) (keys : List ReadyKey) : DrivePath s (s.wakeAll keys) := by
  induction keys generalizing s with
  | nil => exact .refl s
  | cons key keys ih => exact (single (.wake key)).trans (ih (s.wake key))

theorem requestListenerScan (s : NativeStack) : DrivePath s s.requestListenerScan := by
  unfold NativeStack.requestListenerScan
  split
  · exact .refl s
  · split <;> exact .tick rfl le_rfl (.of_polls rfl rfl)

theorem requestClosingCleanup (s : NativeStack) : DrivePath s s.requestClosingCleanup := by
  unfold NativeStack.requestClosingCleanup
  split
  · exact .refl s
  · split <;> exact .tick rfl le_rfl (.of_polls rfl rfl)

theorem sound (h : DrivePath s s') (hs : s.Sound) : s'.Sound := by
  induction h with
  | refl => exact hs
  | tail _ hstep ih =>
      obtain ⟨label, hstep⟩ := hstep
      exact ih.driveStep hstep

end DrivePath

namespace Path

variable {ok : NativeStack → StepLabel → Prop}

theorem refl (s : NativeStack) : Path ok s s := Relation.ReflTransGen.refl

theorem trans (h : Path ok s t) (h' : Path ok t u) : Path ok s u :=
  Relation.ReflTransGen.trans h h'

theorem single (h : Step s label s') (hok : ok s label) :
    Path ok s s' := Relation.ReflTransGen.single ⟨label, h, hok⟩

theorem step (h : Path ok s t) (h' : Step t label u) (hok : ok t label) :
    Path ok s u := h.trans (.single h' hok)

theorem mono {ok' : NativeStack → StepLabel → Prop} (hok : ∀ s label, ok s label → ok' s label)
    (h : Path ok s s') : Path ok' s s' := by
  induction h with
  | refl => exact .refl _
  | tail _ hstep ih =>
      obtain ⟨label, hstep, h⟩ := hstep
      exact ih.step hstep (hok _ label h)

/-- A property that every step keeps is kept by a path. -/
theorem keeps {P : NativeStack → Prop} (hP : ∀ s label s', P s → Step s label s' → ok s label → P s')
    {s s' : NativeStack} (h : Path ok s s') (hs : P s) : P s' := by
  induction h with
  | refl => exact hs
  | tail _ hstep ih =>
      obtain ⟨label, hstep, hok⟩ := hstep
      exact hP _ label _ ih hstep hok

theorem sound (h : Path ok s s') (hs : s.Sound) : s'.Sound :=
  h.keeps (fun _ _ _ hs hstep _ => hs.step hstep) hs

end Path

/-- A drive step is never a close. -/
theorem DriveStep.gentle (h : DriveStep s label s') : Gentle s label := by
  cases h <;> trivial

theorem DrivePath.path (h : DrivePath s s') : Path Gentle s s' := by
  induction h with
  | refl => exact .refl _
  | tail _ hstep ih =>
      obtain ⟨label, hstep⟩ := hstep
      exact ih.step (.drive hstep) hstep.gentle

/-! ## What a drive keeps -/

/-- The parts of a record that a drive does not change. -/
structure SameBinding (record changed : TcpRecord) : Prop where
  identity : changed.identity = record.identity
  handle : changed.handle = record.handle
  family : changed.family = record.family
  accepted : changed.accepted = record.accepted
  localEndpoint : changed.localEndpoint = record.localEndpoint
  remote : changed.remote = record.remote
  deadline : changed.closeDeadline = record.closeDeadline

namespace SameBinding

theorem refl (record : TcpRecord) : SameBinding record record := ⟨rfl, rfl, rfl, rfl, rfl, rfl, rfl⟩

theorem trans {first second third : TcpRecord} (h : SameBinding first second)
    (h' : SameBinding second third) : SameBinding first third :=
  ⟨h'.identity.trans h.identity, h'.handle.trans h.handle, h'.family.trans h.family,
    h'.accepted.trans h.accepted, h'.localEndpoint.trans h.localEndpoint, h'.remote.trans h.remote,
    h'.deadline.trans h.deadline⟩

theorem key {record changed : TcpRecord} (h : SameBinding record changed) :
    changed.connectionKey = record.connectionKey := by
  unfold TcpRecord.connectionKey
  rw [h.localEndpoint, h.remote]

end SameBinding

/-- What holds after a drive whatever it did: the configuration and the set of listeners stay,
waiters in hand stay in hand, and a record survives unless its socket is being closed. -/
structure DriveKeeps (s s' : NativeStack) : Prop where
  lifecycle : s'.lifecycle = s.lifecycle
  limits : s'.limits = s.limits
  inHand : s'.history.inHand = s.history.inHand
  nextSocketId : s.nextSocketId ≤ s'.nextSocketId
  closing : ∀ id, id ∈ s'.closingTcp → id ∈ s.closingTcp
  listeners : ∀ id, id ∈ s'.tcpListeners ↔ id ∈ s.tcpListeners
  record : ∀ (id : Nat) (record : TcpRecord), id ∉ s.closingTcp → s.tcpRecords[id]? = some record →
    ∃ changed, s'.tcpRecords[id]? = some changed ∧ SameBinding record changed
  entries : ∀ id, id < s.nextSocketId → s'.socketTable.entries[id]? = s.socketTable.entries[id]?
  waiterCount : s'.socketTable.waiterCount = s.socketTable.waiterCount
  maxWaiters : s'.socketTable.maxWaiters = s.socketTable.maxWaiters

namespace DriveKeeps

theorem refl (s : NativeStack) : DriveKeeps s s :=
  ⟨rfl, rfl, rfl, le_rfl, fun _ h => h, fun _ => .rfl, fun _ record _ h => ⟨record, h, .refl record⟩,
    fun _ _ => rfl, rfl, rfl⟩

theorem trans (h : DriveKeeps s t) (h' : DriveKeeps t u) : DriveKeeps s u := by
  refine ⟨h'.lifecycle.trans h.lifecycle, h'.limits.trans h.limits, h'.inHand.trans h.inHand,
    h.nextSocketId.trans h'.nextSocketId, fun id hid => h.closing id (h'.closing id hid),
    fun id => (h'.listeners id).trans (h.listeners id), ?_, ?_, h'.waiterCount.trans h.waiterCount,
    h'.maxWaiters.trans h.maxWaiters⟩
  · intro id record hid hrecord
    obtain ⟨middle, hmiddle, hsame⟩ := h.record id record hid hrecord
    obtain ⟨last, hlast, hsame'⟩ := h'.record id middle (fun hin => hid (h.closing id hin)) hmiddle
    exact ⟨last, hlast, hsame.trans hsame'⟩
  · intro id hid
    exact (h'.entries id (hid.trans_le h.nextSocketId)).trans (h.entries id hid)

theorem roster (h : DriveKeeps s s') {id : Nat} (hid : id < s.nextSocketId) :
    s'.socketTable.roster id = s.socketTable.roster id := by
  unfold SocketTable.roster
  rw [h.entries id hid]

theorem lookup (h : DriveKeeps s s') {identity : SocketIdentity} (hid : identity.id < s.nextSocketId) :
    s'.socketTable.lookup identity = s.socketTable.lookup identity := by
  unfold SocketTable.lookup
  rw [h.entries _ hid]

/-- A step that changes no record. -/
theorem of_records (hlifecycle : s'.lifecycle = s.lifecycle) (hlimits : s'.limits = s.limits)
    (hinHand : s'.history.inHand = s.history.inHand) (hnext : s.nextSocketId ≤ s'.nextSocketId)
    (hclosing : ∀ id, id ∈ s'.closingTcp → id ∈ s.closingTcp)
    (hlisteners : ∀ id, id ∈ s'.tcpListeners ↔ id ∈ s.tcpListeners) (hrecords : s'.tcpRecords = s.tcpRecords)
    (hslots : SameSlots s s') : DriveKeeps s s' :=
  ⟨hlifecycle, hlimits, hinHand, hnext, hclosing, hlisteners,
    fun _ record _ h => ⟨record, by rw [hrecords]; exact h, .refl record⟩,
    fun id _ => by rw [hslots.entries], hslots.waiterCount, hslots.maxWaiters⟩

end DriveKeeps

theorem Undisturbed.keeps (h : Undisturbed s s') (hslots : SameSlots s s') : DriveKeeps s s' := by
  refine .of_records h.lifecycle h.limits h.inHand h.nextSocketId.ge ?_ ?_ h.tcpRecords hslots
  · rw [h.closingTcp]
    exact fun _ h => h
  · rw [h.tcpListeners]
    exact fun _ => .rfl

theorem mem_insert_same {listeners : ExtTreeMap Nat ListenerRecord} {id : Nat}
    {listener : ListenerRecord} (h : id ∈ listeners) (other : Nat) :
    other ∈ listeners.insert id listener ↔ other ∈ listeners := by
  rw [ExtTreeMap.mem_insert, Std.compare_eq_iff_eq]
  refine ⟨fun hother => ?_, .inr⟩
  rcases hother with rfl | hother
  · exact h
  · exact hother

/-- A record changes without changing what it is bound to. -/
theorem DriveKeeps.putRecord {record changed : TcpRecord}
    (hrecord : s.tcpRecords[record.identity.id]? = some record) (hsame : SameBinding record changed) :
    DriveKeeps s (s.putRecord changed) := by
  refine ⟨rfl, rfl, rfl, le_rfl, fun _ h => h, fun _ => .rfl, fun id other _ hother => ?_,
    fun _ _ => rfl, rfl, rfl⟩
  by_cases hid : id = record.identity.id
  · obtain rfl : other = record := by
      rw [hid, hrecord] at hother
      exact (Option.some.inj hother).symm
    exact ⟨changed, by simp [NativeStack.putRecord, hsame.identity, hid], hsame⟩
  · refine ⟨other, ?_, .refl other⟩
    simp only [NativeStack.putRecord, hsame.identity]
    grind

theorem DriveStep.keeps (h : DriveStep s label s') (hs : s.Sound) : DriveKeeps s s' := by
  -- A change of the native sockets alone.
  have hnative : ∀ sockets, DriveKeeps s { s with sockets := sockets } := fun sockets =>
    .of_records rfl rfl rfl le_rfl (fun _ h => h) (fun _ => .rfl) rfl ⟨rfl, rfl, rfl⟩
  cases h with
  | tick t hid _ => exact .of_records rfl rfl rfl hid (fun _ h => h) (fun _ => .rfl) rfl ⟨rfl, rfl, rfl⟩
  | wake key => exact (s.undisturbed_wake key).keeps (s.sameSlots_wake key)
  | native _ _ => exact hnative _
  | @ingest sockets records packet _ _ _ hrecords =>
      cases hrecords with
      | unnamed _ => exact hnative _
      | standing _ _ _ => exact hnative _
      | @failed record failure _ htarget _ _ =>
          obtain ⟨-, -, -, -, hok, -⟩ := resetTarget_eq_some htarget
          have hsame : SameBinding record { record with phase := .failed failure } :=
            ⟨rfl, rfl, rfl, rfl, rfl, rfl, rfl⟩
          have hput : DriveKeeps { s with sockets := sockets }
              ({ s with sockets := sockets }.putRecord { record with phase := .failed failure }) :=
            .putRecord (tcpRecord?_eq_ok hok).1 hsame
          exact (hnative sockets).trans hput
  | device _ => exact .of_records rfl rfl rfl le_rfl (fun _ h => h) (fun _ => .rfl) rfl ⟨rfl, rfl, rfl⟩
  | amend hrecord hchanged hdeadline _ =>
      exact .putRecord hrecord ⟨hchanged.identity, hchanged.handle, hchanged.family, hchanged.accepted,
        hchanged.localEndpoint, hchanged.remote, hdeadline⟩
  | @expire record deadline _ hrecord hclosing hdeadline _ _ =>
      refine ⟨rfl, rfl, rfl, le_rfl, fun _ h => h, fun _ => .rfl, fun id other hid hother => ?_,
        fun _ _ => rfl, rfl, rfl⟩
      have hne : id ≠ record.identity.id := by
        rintro rfl
        exact hid hclosing
      refine ⟨other, ?_, .refl other⟩
      simp only [putRecord]
      grind
  | @reap record _ hrecord hclosing _ _ _ =>
      refine ⟨rfl, rfl, rfl, le_rfl, fun id hid => ?_, fun _ => .rfl, fun id other hid hother => ?_,
        fun _ _ => rfl, rfl, rfl⟩
      · simp only [NativeStack.unclose, NativeStack.dropRecord, removeTcpRecord] at hid
        grind
      · have hne : id ≠ record.identity.id := by
          rintro rfl
          exact hid hclosing
        refine ⟨other, ?_, .refl other⟩
        simp only [NativeStack.unclose, NativeStack.dropRecord, removeTcpRecord]
        grind
  | forget _ => exact .of_records rfl rfl rfl le_rfl (fun id hid => by grind) (fun _ => .rfl) rfl ⟨rfl, rfl, rfl⟩
  | @promote listener handle child socket localEndpoint remote hlistener hpool _ _ _ _ hid =>
      have hunused := (hs.rostered.fresh _ hid).1
      refine .trans (t := s.promoted listener handle child localEndpoint remote) ?_
        ((undisturbed_markListenerReady _ _).keeps (sameSlots_markListenerReady _ _))
      refine ⟨rfl, rfl, rfl, hid.trans (Nat.le_succ _), fun _ h => h,
        fun id => mem_insert_same (mem_of_getElem? hlistener) id, fun id other _ hother => ?_,
        fun id hlt => ?_, rfl, rfl⟩
      · refine ⟨other, ?_, .refl other⟩
        simp only [promoted]
        grind
      · dsimp only [promoted, enroll]
        rw [SocketTable.entries_insertEntry, ExtTreeMap.getElem?_insert]
        exact if_neg (by rw [Std.compare_eq_iff_eq]; omega)
  | recycle hlistener _ =>
      exact .of_records rfl rfl rfl le_rfl (fun _ h => h)
        (fun id => mem_insert_same (mem_of_getElem? hlistener) id) rfl ⟨rfl, rfl, rfl⟩

theorem DrivePath.keeps (h : DrivePath s s') (hs : s.Sound) : DriveKeeps s s' := by
  induction h with
  | refl => exact .refl s
  | tail hpath hstep ih =>
      obtain ⟨label, hstep⟩ := hstep
      exact ih.trans (hstep.keeps (DrivePath.sound hpath hs))

/-! ## Accept queues -/

/-- If the connection waits in an accept queue, it is open and has its record. -/
def QueuedOpen (s : NativeStack) (child : SocketIdentity) : Prop :=
  child ∈ queued s.tcpListeners →
    s.socketTable.roster child.id = some (child.generation, .tcp, .open) ∧
      ∃ record, s.tcpRecords[child.id]? = some record ∧ record.identity = child

def QueuesOpen (s : NativeStack) : Prop := ∀ child, s.QueuedOpen child

/-- A drive keeps a queued connection open. -/
theorem DriveKeeps.open_child {child : SocketIdentity} (h : DriveKeeps s s') (hs : s.Sound)
    (hopen : s.QueuedOpen child) (hchild : child ∈ queued s.tcpListeners) :
    s'.socketTable.roster child.id = some (child.generation, .tcp, .open) ∧
      ∃ record, s'.tcpRecords[child.id]? = some record ∧ record.identity = child := by
  obtain ⟨hroster, record, hrecord, hidentity⟩ := hopen hchild
  have hclosing : child.id ∉ s.closingTcp := by
    intro hmem
    rw [hs.rostered.closing _ hmem] at hroster
    cases hroster
  obtain ⟨changed, hchanged, hsame⟩ := h.record _ record hclosing hrecord
  refine ⟨?_, changed, hchanged, hsame.identity.trans hidentity⟩
  rw [h.roster (hs.queues.child child hchild).1]
  exact hroster

theorem DriveStep.queuedOpen {other : SocketIdentity} (h : DriveStep s label s') (hs : s.Sound)
    (hopen : s.QueuedOpen other) : s'.QueuedOpen other := by
  have hkeeps := h.keeps hs
  -- Only a promotion changes a queue.
  have hsame : queued s'.tcpListeners = queued s.tcpListeners → s'.QueuedOpen other := by
    intro hqueued hother
    rw [hqueued] at hother
    exact hkeeps.open_child hs hopen hother
  cases h with
  | wake key => exact hsame (by rw [(s.undisturbed_wake key).tcpListeners])
  | @promote listener handle child socket localEndpoint remote hlistener hpool _ _ _ _ hid =>
      have hkept := undisturbed_markListenerReady
        (s.promoted listener handle child localEndpoint remote) listener.identity
      intro hother
      rw [hkept.tcpListeners] at hother
      dsimp only [promoted] at hother
      rw [queued_insert, Multiset.mem_add] at hother
      have hold : other ∈ queued s.tcpListeners ∨ other = child := by
        rw [queued_eq hlistener, Multiset.mem_add]
        simp only [Multiset.mem_coe, List.mem_append, List.mem_singleton] at hother ⊢
        tauto
      rcases hold with hold | rfl
      · exact hkeeps.open_child hs hopen hold
      · rw [hkept.table.roster, hkept.tcpRecords]
        refine ⟨?_, .ofAccepted other handle localEndpoint remote listener.endpoint.scopeId
          listener.rcvbuf listener.sndbuf, ?_, rfl⟩
        · dsimp only [promoted, enroll]
          rw [SocketTable.roster_insertEntry, Function.update_self]
        · simp [promoted]
  | recycle hlistener hpool =>
      refine hsame ?_
      dsimp only [recycled]
      rw [queued_insert, queued_eq hlistener]
      rfl
  | _ => exact hsame rfl

theorem DrivePath.queuedOpen {child : SocketIdentity} (h : DrivePath s s') (hs : s.Sound)
    (hopen : s.QueuedOpen child) : s'.QueuedOpen child := by
  induction h with
  | refl => exact hopen
  | tail hpath hstep ih =>
      obtain ⟨label, hstep⟩ := hstep
      exact hstep.queuedOpen (DrivePath.sound hpath hs) ih

end SmolNet.NativeStack
