import SmolNet.AcceptQueues
import SmolNet.Script

/-!
# Who owns what

In every state between calls each native socket belongs to one record, listener or UDP record, and
each open socket has one of these.
-/

namespace SmolNet

open Ownership

def Owner.kind : Owner → SocketKind
  | .tcp _ | .listener _ => .tcp
  | .udp _ => .udp

def Owner.id : Owner → Nat
  | .tcp id | .listener id | .udp id => id

/-- The owner stands for the identity. -/
def NativeStack.Names (s : NativeStack) (identity : SocketIdentity) : Owner → Prop
  | .tcp id => ∃ record, s.tcpRecords[id]? = some record ∧ record.identity = identity
  | .listener id => ∃ listener, s.tcpListeners[id]? = some listener ∧ listener.identity = identity
  | .udp id => ∃ record, s.udpRecords[id]? = some record ∧ record.identity = identity

namespace NativeStack

variable {s : NativeStack}

/-- Each native socket has one owner, each open socket is named by one owner, which is of its kind,
and each connection waits in one queue at most. -/
structure Partitioned (s : NativeStack) : Prop where
  sockets : ∀ handle, handle ∈ s.sockets ↔ ∃ owner, s.Owns owner handle
  once : (Ownership.handles s.tcpRecords s.tcpListeners s.udpRecords).Nodup
  owner : ∀ handle owner owner', s.Owns owner handle → s.Owns owner' handle → owner = owner'
  entries : ∀ id generation kind, s.socketTable.roster id = some (generation, kind, .open) →
    ∃ owner : Owner, owner.kind = kind ∧ s.Names ⟨id, generation⟩ owner ∧
      ∀ other, s.Names ⟨id, generation⟩ other → other = owner
  queues : (queued s.tcpListeners).Nodup

/-- An identity is named by one owner at most. -/
theorem Sound.names_unique (h : s.Sound) {identity : SocketIdentity} {owner other : Owner}
    (howner : s.Names identity owner) (hother : s.Names identity other) : other = owner := by
  -- Every owner stands under the id that it names.
  have hid : ∀ owner : Owner, s.Names identity owner → owner.id = identity.id := by
    rintro (id | id | id) ⟨record, hrecord, hidentity⟩
    · rw [← hidentity]
      exact (h.filed.tcp id record hrecord).1.symm
    · rw [← hidentity]
      exact (h.filed.listener id record hrecord).1.symm
    · rw [← hidentity]
      exact (h.filed.udp id record hrecord).1.symm
  have hsame := (hid owner howner).trans (hid other hother).symm
  have hmem : ∀ owner : Owner, s.Names identity owner →
      match owner with
      | .tcp id => id ∈ s.tcpRecords
      | .listener id => id ∈ s.tcpListeners
      | .udp id => id ∈ s.udpRecords := by
    rintro (id | id | id) ⟨record, hrecord, -⟩
    · exact mem_of_getElem? hrecord
    · exact mem_of_getElem? hrecord
    · exact mem_of_getElem? hrecord
  have howned := hmem owner howner
  have hotherOwned := hmem other hother
  cases owner <;> cases other <;> simp only [Owner.id] at hsame <;> subst hsame
  case tcp.tcp => rfl
  case listener.listener => rfl
  case udp.udp => rfl
  case tcp.listener => exact ((h.rostered.tcp_apart _ howned).1 hotherOwned).elim
  case tcp.udp => exact ((h.rostered.tcp_apart _ howned).2 hotherOwned).elim
  case listener.tcp => exact ((h.rostered.tcp_apart _ hotherOwned).1 howned).elim
  case listener.udp => exact (h.rostered.listener_apart _ howned hotherOwned).elim
  case udp.tcp => exact ((h.rostered.tcp_apart _ hotherOwned).2 howned).elim
  case udp.listener => exact (h.rostered.listener_apart _ hotherOwned howned).elim

theorem Sound.partitioned (h : s.Sound) : s.Partitioned where
  sockets handle := h.mem_sockets
  once := by
    rw [h.handles]
    exact TreeMap.nodup_keySet s.sockets
  owner handle owner owner' := h.unique
  entries id generation kind hroster := by
    have hholds := (h.rostered.entry id generation kind .open hroster).2
    have hnamed : ∃ owner : Owner, owner.kind = kind ∧ s.Names ⟨id, generation⟩ owner := by
      cases kind with
      | tcp =>
          rcases hholds with hrecord | hlistener
          · exact ⟨.tcp id, rfl, hrecord⟩
          · exact ⟨.listener id, rfl, hlistener⟩
      | udp => exact ⟨.udp id, rfl, hholds⟩
      | synthetic => exact hholds.elim
    obtain ⟨owner, hkind, hnames⟩ := hnamed
    exact ⟨owner, hkind, hnames, fun other hother => h.names_unique hnames hother⟩
  queues := h.queues.nodup

/-- Every reachable state is partitioned, and no call panics in it.  As long as the stack runs, a connection that
waits in a queue is open and has its record, unless a call has closed that very connection while it waited. -/
theorem reachable_partitioned (h : Reachable s) :
    s.Partitioned ∧ (∀ call world, (s.call call world).1 ≠ .nativePanic) ∧
      ∀ child, ReachableBy (SparesChild child) s → s.lifecycle = .running → s.QueuedOpen child := by
  obtain ⟨hregular, hin⟩ := h.regular
  refine ⟨hregular.sound.partitioned, fun call world hpanic => ?_, fun child hby => hby.queuedOpen⟩
  rcases hregular.completes_or_fails hin (fun _ _ _ => trivial) call world (allowed_any call _) with
    ⟨envelope, t, hcall, -⟩ | ⟨error, t, hcall, -⟩
  · rw [hcall] at hpanic
    cases hpanic
  · rw [hcall] at hpanic
    cases hpanic

theorem reachableBy_waiting : ReachableBy SparesQueued Script.waiting := by
  refine (ReachableBy.new Script.stack_new).run ?_
  simp [Script.listen, Script.handshake, Script.receives, SparesQueued, SparesChild]

theorem waiting_partitioned : Script.waiting.Partitioned ∧ Script.waiting.QueuesOpen ∧
    Script.waiting.tcpListeners[1]?.map ListenerRecord.accepted = some [⟨2, 2⟩] := by
  obtain ⟨hpartitioned, -, hqueues⟩ := reachable_partitioned reachableBy_waiting.reachable
  refine ⟨hpartitioned, fun child => hqueues child ?_ (by decide +kernel), by decide +kernel⟩
  exact reachableBy_waiting.mono fun _ _ _ hspares => hspares child

/-- A caller closes the connection that waits: it keeps its place in the queue. -/
def closedWaiting : NativeStack := (Script.waiting.call (.tcpClose ⟨2, 2⟩ 0) {}).2

/-- A shutdown whose budget ends once the sockets are closed: the listener still has its queue. -/
def cutShort : NativeStack := (Script.waiting.call (.shutdown .linkDown) { budget := [true, true, false] }).2

theorem closedWaiting_queued :
    (Reachable closedWaiting ∧ closedWaiting.lifecycle = .running ∧
      closedWaiting.tcpListeners[1]?.map ListenerRecord.accepted = some [⟨2, 2⟩] ∧
      closedWaiting.socketTable.roster 2 = none) ∧
    ReachableBy SparesQueued cutShort ∧ cutShort.lifecycle ≠ .running ∧
      cutShort.tcpListeners[1]?.map ListenerRecord.accepted = some [⟨2, 2⟩] ∧
      cutShort.socketTable.roster 2 = none := by
  refine ⟨⟨.call _ _ reachableBy_waiting.reachable, ?_, ?_, ?_⟩, .call _ _ reachableBy_waiting ?_, ?_, ?_, ?_⟩
  case refine_4 => exact fun _ _ hcall => by cases hcall
  all_goals decide +kernel

end NativeStack

end SmolNet
