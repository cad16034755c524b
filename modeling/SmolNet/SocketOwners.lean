import SmolNet.Basic
import SmolNet.TreeMap
import SmolNet.Transition

/-!
# Owners of sockets

The stack process monitors the owner of a socket and closes the socket when the owner exits.  A watch
is made by an accept on behalf of an owner or by `socket_watch_owner`, is replaced by the next watch of
the same socket, and ends when the socket is closed.  Calls, exits, the runtime's `DOWN` messages and
their handling interleave freely, and the native side may accept or refuse any call.
-/

namespace SmolNet

open Std

/-- The order of the keys that `identity_key` makes: the id first, then the generation. -/
def SocketIdentity.cmp : SocketIdentity → SocketIdentity → Ordering :=
  compareLex (compareOn (·.id)) (compareOn (·.generation))

instance : TransCmp SocketIdentity.cmp := by
  unfold SocketIdentity.cmp
  infer_instance

instance : LawfulEqCmp SocketIdentity.cmp where
  eq_of_compare {a b} h := by
    simp only [SocketIdentity.cmp, compareLex_eq_eq, compareOn, Std.compare_eq_iff_eq] at h
    cases a
    cases b
    simp_all

namespace SocketOwners

abbrev Pid := Nat

/-- The reference that `Process.monitor` returns; each is new. -/
abbrev Monitor := Nat

/-- The kind of a socket as `Socket` has it. -/
inductive Transport where
  | stream | datagram
deriving DecidableEq, Repr

/-- `native_socket_kind`; a kind without a clause raises. -/
def nativeSocketKind : SocketKind → Option Transport
  | .tcp => some .stream
  | .udp => some .datagram
  | .synthetic => none

/-- A monitor in the runtime: the process it watches, and whether its `DOWN` is in the mailbox. -/
structure Watch where
  owner : Pid
  queued : Bool
deriving DecidableEq, Repr

/-- What happened to a socket. -/
inductive Record where
  | watched (identity : SocketIdentity) (owner : Pid) (monitor : Monitor)
  | closed (identity : SocketIdentity)
  | ownerClosed (identity : SocketIdentity) (owner : Pid)
deriving DecidableEq, Repr

/-- The owner that was watched last, if the socket has not been closed since; the log's newest record is
its head. -/
def lastOwner (identity : SocketIdentity) : List Record → Option Pid
  | [] => none
  | .watched other owner _ :: earlier => if other = identity then some owner else lastOwner identity earlier
  | .closed other :: earlier => if other = identity then none else lastOwner identity earlier
  | .ownerClosed other _ :: earlier => if other = identity then none else lastOwner identity earlier

structure Stack where
  socketOwnerMonitors : ExtTreeMap Monitor (SocketIdentity × SocketKind) compare
  socketOwnerMonitorsByIdentity : ExtTreeMap SocketIdentity Monitor SocketIdentity.cmp
  /-- The monitors of this process in the runtime, and the number of references made so far. -/
  runtime : ExtTreeMap Monitor Watch compare
  issued : Monitor
  exited : List Pid
  log : List Record

namespace Stack

def start : Stack := ⟨∅, ∅, ∅, 0, [], []⟩

/-- `Process.monitor`; the monitor of a process that is gone fires like any other. -/
def monitor (stack : Stack) (owner : Pid) : Stack :=
  { stack with
    runtime := stack.runtime.insert stack.issued ⟨owner, false⟩
    issued := stack.issued + 1 }

/-- `Process.demonitor(monitor, [:flush])`: its message leaves the mailbox with it. -/
def demonitor (stack : Stack) (monitor : Monitor) : Stack :=
  { stack with runtime := stack.runtime.erase monitor }

def note (stack : Stack) (record : Record) : Stack :=
  { stack with log := record :: stack.log }

def unwatchSocketOwner (stack : Stack) (identity : SocketIdentity) : Stack :=
  match stack.socketOwnerMonitorsByIdentity[identity]? with
  | none => stack
  | some monitor =>
      { stack.demonitor monitor with
        socketOwnerMonitors := stack.socketOwnerMonitors.erase monitor
        socketOwnerMonitorsByIdentity := stack.socketOwnerMonitorsByIdentity.erase identity }

def watchSocketOwner (stack : Stack) (identity : SocketIdentity) (nativeKind : SocketKind) (owner : Pid) :
    Stack :=
  let stack := stack.unwatchSocketOwner identity
  let monitor := stack.issued
  { (stack.monitor owner).note (.watched identity owner monitor) with
    socketOwnerMonitors := stack.socketOwnerMonitors.insert monitor (identity, nativeKind)
    socketOwnerMonitorsByIdentity := stack.socketOwnerMonitorsByIdentity.insert identity monitor }

/-- `handle_call({:socket_close, ..})`, with whether the native close succeeds. -/
def socketClose (stack : Stack) (identity : SocketIdentity) (closes : Bool) : Stack :=
  if closes then (stack.unwatchSocketOwner identity).note (.closed identity) else stack

/-- `handle_call({:socket_watch_owner, ..})`, with the kind that `socket_validate` answers. -/
def socketWatchOwner (stack : Stack) (identity : SocketIdentity) (owner : Pid) :
    Option SocketKind → Stack
  | some nativeKind => stack.watchSocketOwner identity nativeKind owner
  | none => stack

/-- `reply_owned_accept`, with the child if the native accept returns one. -/
def socketAcceptOwned (stack : Stack) (owner : Pid) : Option SocketIdentity → Stack
  | some child => stack.watchSocketOwner child .tcp owner
  | none => stack

/-- `close_owned_socket`, after the exit of `owner`. -/
def closeOwnedSocket (stack : Stack) (identity : SocketIdentity) (kind : SocketKind) (owner : Pid)
    (closes : Bool) : Option Stack :=
  (nativeSocketKind kind).map fun _ =>
    if closes then stack.note (.ownerClosed identity owner) else stack

/-- `handle_info({:DOWN, ..})` for a message that has been taken from the mailbox. -/
def down (stack : Stack) (monitor : Monitor) (owner : Pid) (closes : Bool) : Option Stack :=
  match stack.socketOwnerMonitors[monitor]? with
  | none => some stack
  | some (identity, kind) =>
      { stack with
        socketOwnerMonitors := stack.socketOwnerMonitors.erase monitor
        socketOwnerMonitorsByIdentity := stack.socketOwnerMonitorsByIdentity.erase identity
        }.closeOwnedSocket identity kind owner closes

end Stack

/-- A call, a monitor that serves another purpose (the starter's, the link's), an exit, the runtime
putting a `DOWN` into the mailbox, or the handling of one. -/
inductive Event where
  | socketClose (identity : SocketIdentity) (closes : Bool)
  | socketWatchOwner (identity : SocketIdentity) (owner : Pid) (answer : Option SocketKind)
  | socketAcceptOwned (owner : Pid) (answer : Option SocketIdentity)
  | otherMonitor (process : Pid)
  | exit (process : Pid)
  | fire (monitor : Monitor)
  | down (monitor : Monitor) (closes : Bool)
deriving DecidableEq, Repr

namespace Stack

/-- A process that has exited makes each of its monitors send one message. -/
def fire (stack : Stack) (monitor : Monitor) : Option Stack :=
  match stack.runtime[monitor]? with
  | some ⟨owner, false⟩ =>
      if owner ∈ stack.exited then
        some { stack with runtime := stack.runtime.insert monitor ⟨owner, true⟩ }
      else none
  | _ => none

/-- Any message of the mailbox may be the next one. -/
def receive (stack : Stack) (monitor : Monitor) (closes : Bool) : Option Stack :=
  match stack.runtime[monitor]? with
  | some ⟨owner, true⟩ => (stack.demonitor monitor).down monitor owner closes
  | _ => none

def step (stack : Stack) : Event → Option Stack
  | .socketClose identity closes => some (stack.socketClose identity closes)
  | .socketWatchOwner identity owner answer => some (stack.socketWatchOwner identity owner answer)
  | .socketAcceptOwned owner answer => some (stack.socketAcceptOwned owner answer)
  | .otherMonitor process => some (stack.monitor process)
  | .exit process => some { stack with exited := process :: stack.exited }
  | .fire monitor => stack.fire monitor
  | .down monitor closes => stack.receive monitor closes

end Stack

def Record.identity : Record → SocketIdentity
  | .watched identity _ _ => identity
  | .closed identity => identity
  | .ownerClosed identity _ => identity

theorem lastOwner_cons_of_ne {identity : SocketIdentity} {record : Record} {log : List Record}
    (h : record.identity ≠ identity) : lastOwner identity (record :: log) = lastOwner identity log := by
  cases record <;> exact if_neg h

/-- What the maps, the runtime's monitors and the log have to do with each other. -/
structure Followed (stack : Stack) : Prop where
  inverse : TreeMap.Inverse Prod.fst stack.socketOwnerMonitors stack.socketOwnerMonitorsByIdentity
  mapped_lt : ∀ (m : Monitor) v, stack.socketOwnerMonitors[m]? = some v → m < stack.issued
  running_lt : ∀ (m : Monitor) w, stack.runtime[m]? = some w → m < stack.issued
  watched_lt : ∀ (i : SocketIdentity) o m, .watched i o m ∈ stack.log → m < stack.issued
  /-- A monitor that the maps know watches the last owner. -/
  owner : ∀ (m : Monitor) (v : SocketIdentity × SocketKind) (w : Watch), stack.socketOwnerMonitors[m]? = some v →
    stack.runtime[m]? = some w → lastOwner v.1 stack.log = some w.owner
  /-- The runtime has no monitor of a socket but the one that the maps know. -/
  live : ∀ (i : SocketIdentity) o (m : Monitor) w, .watched i o m ∈ stack.log → stack.runtime[m]? = some w →
    stack.socketOwnerMonitorsByIdentity[i]? = some m
  exited : ∀ (m : Monitor) (o : Pid), stack.runtime[m]? = some ⟨o, true⟩ → o ∈ stack.exited
  closed : ∀ i o after before, stack.log = after ++ .ownerClosed i o :: before →
    lastOwner i before = some o ∧ o ∈ stack.exited

theorem followed_start : Followed .start := by
  refine ⟨TreeMap.inverse_empty, ?_, ?_, ?_, ?_, ?_, ?_, ?_⟩
  all_goals simp [Stack.start]

namespace Followed

variable {stack stack' : Stack} {m : Monitor} {v : SocketIdentity × SocketKind} {w : Watch}

theorem demonitor (h : Followed stack) (m : Monitor) : Followed (stack.demonitor m) where
  inverse := h.inverse
  mapped_lt := h.mapped_lt
  running_lt n w hn := by
    obtain ⟨-, hn⟩ := TreeMap.getElem?_erase_eq_some.1 hn
    exact h.running_lt n w hn
  watched_lt := h.watched_lt
  owner n v w hv hn := h.owner n v w hv (TreeMap.getElem?_erase_eq_some.1 hn).2
  live i o n w hwatched hn := h.live i o n w hwatched (TreeMap.getElem?_erase_eq_some.1 hn).2
  exited n o hn := h.exited n o (TreeMap.getElem?_erase_eq_some.1 hn).2
  closed := h.closed

/-- A pair leaves both maps together with its monitor. -/
theorem release (h : Followed stack) (hm : stack.socketOwnerMonitors[m]? = some v) :
    Followed { stack.demonitor m with
      socketOwnerMonitors := stack.socketOwnerMonitors.erase m
      socketOwnerMonitorsByIdentity := stack.socketOwnerMonitorsByIdentity.erase v.1 } where
  inverse := h.inverse.erase hm
  mapped_lt n u hn := h.mapped_lt n u (TreeMap.getElem?_erase_eq_some.1 hn).2
  running_lt := (h.demonitor m).running_lt
  watched_lt := h.watched_lt
  owner n u w hu hn := (h.demonitor m).owner n u w (TreeMap.getElem?_erase_eq_some.1 hu).2 hn
  live i o n w hwatched hn := by
    have hi := (h.demonitor m).live i o n w hwatched hn
    refine TreeMap.getElem?_erase_eq_some.2 ⟨?_, hi⟩
    -- another socket: this one's monitor is the one that was demonitored
    rintro rfl
    have hmn : m = n := Option.some.inj ((h.inverse.getElem? hm).symm.trans hi)
    exact (TreeMap.getElem?_erase_eq_some.1 hn).1 hmn.symm
  exited := (h.demonitor m).exited
  closed := h.closed

theorem unwatchSocketOwner (h : Followed stack) (identity : SocketIdentity) :
    Followed (stack.unwatchSocketOwner identity) := by
  unfold Stack.unwatchSocketOwner
  split
  · exact h
  · rename_i m hm
    obtain ⟨v, hv, rfl⟩ := (h.inverse m identity).2 hm
    exact h.release hv

/-- A record is added for a socket that nobody is watched for; a close after an exit names the last owner. -/
theorem note (h : Followed stack) {record : Record}
    (hfree : stack.socketOwnerMonitorsByIdentity[record.identity]? = none)
    (hnew : ∀ i o m, record ≠ .watched i o m)
    (hclosed : ∀ i o, record = .ownerClosed i o → lastOwner i stack.log = some o ∧ o ∈ stack.exited) :
    Followed (stack.note record) where
  inverse := h.inverse
  mapped_lt := h.mapped_lt
  running_lt := h.running_lt
  watched_lt i o m hm := by
    rcases List.mem_cons.1 hm with heq | hm
    · exact absurd heq.symm (hnew i o m)
    · exact h.watched_lt i o m hm
  owner m v w hv hw := by
    have hne : record.identity ≠ v.1 := by
      intro heq
      rw [heq, h.inverse.getElem? hv] at hfree
      cases hfree
    exact (lastOwner_cons_of_ne hne).trans (h.owner m v w hv hw)
  live i o m w hm hw := by
    rcases List.mem_cons.1 hm with heq | hm
    · exact absurd heq.symm (hnew i o m)
    · exact h.live i o m w hm hw
  exited := h.exited
  closed i o after before hlog := by
    rcases List.cons_eq_append_iff.1 hlog with ⟨-, heq⟩ | ⟨after', -, heq⟩
    · obtain ⟨hrecord, rfl⟩ := List.cons.inj heq
      exact hclosed i o hrecord.symm
    · exact h.closed i o after' before heq

theorem mapped_issued (h : Followed stack) : stack.socketOwnerMonitors[stack.issued]? = none := by
  cases hv : stack.socketOwnerMonitors[stack.issued]? with
  | none => rfl
  | some v => exact absurd (h.mapped_lt _ v hv) (lt_irrefl _)

/-- A new monitor is none of those that the maps or the log know. -/
theorem monitor (h : Followed stack) (process : Pid) : Followed (stack.monitor process) where
  inverse := h.inverse
  mapped_lt m v hv := Nat.lt_succ_of_lt (h.mapped_lt m v hv)
  running_lt m w hw := by
    rcases TreeMap.getElem?_insert_eq_some.1 hw with ⟨rfl, -⟩ | ⟨-, hw⟩
    · exact Nat.lt_succ_self _
    · exact Nat.lt_succ_of_lt (h.running_lt m w hw)
  watched_lt i o m hm := Nat.lt_succ_of_lt (h.watched_lt i o m hm)
  owner m v w hv hw := by
    rcases TreeMap.getElem?_insert_eq_some.1 hw with ⟨rfl, -⟩ | ⟨-, hw⟩
    · exact absurd (h.mapped_lt _ v hv) (lt_irrefl _)
    · exact h.owner m v w hv hw
  live i o m w hm hw := by
    rcases TreeMap.getElem?_insert_eq_some.1 hw with ⟨rfl, -⟩ | ⟨-, hw⟩
    · exact absurd (h.watched_lt i o _ hm) (lt_irrefl _)
    · exact h.live i o m w hm hw
  exited m o hw := by
    rcases TreeMap.getElem?_insert_eq_some.1 hw with ⟨-, heq⟩ | ⟨-, hw⟩
    · cases heq
    · exact h.exited m o hw
  closed := h.closed

theorem unwatched (stack : Stack) (identity : SocketIdentity) :
    (stack.unwatchSocketOwner identity).socketOwnerMonitorsByIdentity[identity]? = none := by
  unfold Stack.unwatchSocketOwner
  split
  · assumption
  · simp

theorem watchSocketOwner (h : Followed stack) (identity : SocketIdentity) (nativeKind : SocketKind)
    (owner : Pid) : Followed (stack.watchSocketOwner identity nativeKind owner) := by
  have hfree := unwatched stack identity
  have hbase := h.unwatchSocketOwner identity
  have hnext := hbase.monitor owner
  unfold Stack.watchSocketOwner
  generalize stack.unwatchSocketOwner identity = base at hfree hbase hnext
  refine
    { inverse := hbase.inverse.insert hbase.mapped_issued hfree
      mapped_lt := ?_, running_lt := hnext.running_lt, watched_lt := ?_, owner := ?_, live := ?_
      exited := hnext.exited, closed := ?_ }
  · intro m v hv
    rcases TreeMap.getElem?_insert_eq_some.1 hv with ⟨rfl, -⟩ | ⟨-, hv⟩
    · exact Nat.lt_succ_self _
    · exact hnext.mapped_lt m v hv
  · intro i o m hm
    rcases List.mem_cons.1 hm with heq | hm
    · cases heq
      exact Nat.lt_succ_self _
    · exact hnext.watched_lt i o m hm
  · intro m v w hv hw
    rcases TreeMap.getElem?_insert_eq_some.1 hv with ⟨rfl, rfl⟩ | ⟨-, hmapped⟩
    · rcases TreeMap.getElem?_insert_eq_some.1 hw with ⟨-, rfl⟩ | ⟨hne, -⟩
      · exact if_pos rfl
      · exact absurd rfl hne
    · -- the monitor of another socket: this one has none in the maps
      have hother : (Record.watched identity owner base.issued).identity ≠ v.1 := by
        rintro rfl
        exact absurd (hfree.symm.trans (hbase.inverse.getElem? hmapped)) (by simp)
      exact (lastOwner_cons_of_ne hother).trans (hnext.owner m v w hmapped hw)
  · intro i o m w hm hw
    rcases List.mem_cons.1 hm with heq | hm
    · cases heq
      simp
    · have hi := hnext.live i o m w hm hw
      refine TreeMap.getElem?_insert_eq_some.2 (.inr ⟨?_, hi⟩)
      rintro rfl
      exact absurd (hfree.symm.trans hi) (by simp)
  · intro i o after before hlog
    rcases List.cons_eq_append_iff.1 hlog with ⟨-, heq⟩ | ⟨after', -, heq⟩
    · cases heq
    · exact hnext.closed i o after' before heq

theorem socketClose (h : Followed stack) (identity : SocketIdentity) (closes : Bool) :
    Followed (stack.socketClose identity closes) := by
  unfold Stack.socketClose
  split
  · refine (h.unwatchSocketOwner identity).note (unwatched stack identity) ?_ ?_
    · intro i o m heq
      cases heq
    · intro i o heq
      cases heq
  · exact h

/-- The owner that has exited is the last one of the socket that its monitor was made for. -/
theorem down (h : Followed stack) (hw : stack.runtime[m]? = some w) (hexited : w.owner ∈ stack.exited)
    {closes : Bool} (hdown : (stack.demonitor m).down m w.owner closes = some stack') :
    Followed stack' := by
  unfold Stack.down at hdown
  split at hdown
  · obtain rfl := Option.some.inj hdown
    exact h.demonitor m
  · rename_i identity kind hm
    have hrest := h.release hm
    obtain ⟨-, -, rfl⟩ := Option.map_eq_some_iff.1 hdown
    split
    · refine hrest.note (by simp [Record.identity]) ?_ ?_
      · intro i o n heq
        cases heq
      · intro i o heq
        cases heq
        exact ⟨h.owner m _ w hm hw, hexited⟩
    · exact hrest

theorem fire (h : Followed stack) (hfire : stack.fire m = some stack') : Followed stack' := by
  unfold Stack.fire at hfire
  split at hfire
  · rename_i owner hw
    obtain ⟨hexited, rfl⟩ := Transition.guarded hfire
    refine { h with running_lt := ?_, owner := ?_, live := ?_, exited := ?_ }
    · intro n u hn
      rcases TreeMap.getElem?_insert_eq_some.1 hn with ⟨rfl, -⟩ | ⟨-, hn⟩
      · exact h.running_lt _ _ hw
      · exact h.running_lt n u hn
    · intro n v u hv hn
      rcases TreeMap.getElem?_insert_eq_some.1 hn with ⟨rfl, rfl⟩ | ⟨-, hn⟩
      · exact h.owner _ v ⟨owner, false⟩ hv hw
      · exact h.owner n v u hv hn
    · intro i o n u hwatched hn
      rcases TreeMap.getElem?_insert_eq_some.1 hn with ⟨rfl, -⟩ | ⟨-, hn⟩
      · exact h.live i o _ _ hwatched hw
      · exact h.live i o n u hwatched hn
    · intro n o hn
      rcases TreeMap.getElem?_insert_eq_some.1 hn with ⟨-, heq⟩ | ⟨-, hn⟩
      · cases heq
        exact hexited
      · exact h.exited n o hn
  · cases hfire

theorem receive (h : Followed stack) {closes : Bool} (hreceive : stack.receive m closes = some stack') :
    Followed stack' := by
  unfold Stack.receive at hreceive
  split at hreceive
  · rename_i owner hw
    exact h.down hw (h.exited m owner hw) hreceive
  · cases hreceive

theorem exit (h : Followed stack) (process : Pid) :
    Followed { stack with exited := process :: stack.exited } :=
  { h with
    exited := fun m o hm => List.mem_cons_of_mem _ (h.exited m o hm)
    closed := fun i o after before hlog =>
      ⟨(h.closed i o after before hlog).1, List.mem_cons_of_mem _ (h.closed i o after before hlog).2⟩ }

theorem step {event : Event} (h : Followed stack) (hstep : stack.step event = some stack') :
    Followed stack' := by
  cases event with
  | socketClose identity closes =>
      obtain rfl := Option.some.inj hstep
      exact h.socketClose identity closes
  | socketWatchOwner identity owner answer =>
      obtain rfl := Option.some.inj hstep
      cases answer with
      | none => exact h
      | some nativeKind => exact h.watchSocketOwner identity nativeKind owner
  | socketAcceptOwned owner answer =>
      obtain rfl := Option.some.inj hstep
      cases answer with
      | none => exact h
      | some child => exact h.watchSocketOwner child .tcp owner
  | otherMonitor process =>
      obtain rfl := Option.some.inj hstep
      exact h.monitor process
  | exit process =>
      obtain rfl := Option.some.inj hstep
      exact h.exit process
  | fire monitor => exact h.fire hstep
  | down monitor closes => exact h.receive hstep

end Followed

abbrev Reaches : Stack → Prop := Transition.Reaches Stack.step (fun _ _ => True) (· = .start)

theorem reaches_followed {stack : Stack} (h : Reaches stack) : Followed stack := by
  refine Transition.Reaches.invariant ?_ ?_ h
  · rintro _ rfl
    exact followed_start
  · intro s event s' hs _ hstep
    exact hs.step hstep

/-- Handling a `DOWN` changes nothing, or ends the watch of the one socket whose monitor it is and closes
that socket for its last owner. -/
theorem Followed.receive_cases {stack stack' : Stack} {m : Monitor} {closes : Bool} (h : Followed stack)
    (hreceive : stack.receive m closes = some stack') :
    stack' = stack.demonitor m ∨
      ∃ i o, stack.socketOwnerMonitorsByIdentity[i]? = some m ∧ lastOwner i stack.log = some o ∧
        (stack'.log = stack.log ∨ stack'.log = .ownerClosed i o :: stack.log) ∧
        stack'.socketOwnerMonitorsByIdentity = stack.socketOwnerMonitorsByIdentity.erase i := by
  unfold Stack.receive at hreceive
  split at hreceive
  · rename_i owner hw
    unfold Stack.down at hreceive
    split at hreceive
    · exact .inl (Option.some.inj hreceive).symm
    · rename_i identity kind hm
      obtain ⟨-, -, rfl⟩ := Option.map_eq_some_iff.1 hreceive
      refine .inr ⟨identity, owner, h.inverse.getElem? hm, h.owner m _ _ hm hw, ?_⟩
      cases closes with
      | false => exact ⟨.inl rfl, rfl⟩
      | true => exact ⟨.inr rfl, rfl⟩
  · cases hreceive

/-- In every reachable state the two maps are inverse, the runtime has at most one monitor for a socket, a
socket was closed for an owner's exit only while that owner was its last one, and a `DOWN` that is handled
next leaves every socket alone but the one that its monitor is the current watch of. -/
theorem reaches_last_owner {stack : Stack} (h : Reaches stack) :
    (∀ (m : Monitor) (i : SocketIdentity),
      (∃ kind, stack.socketOwnerMonitors[m]? = some (i, kind)) ↔
        stack.socketOwnerMonitorsByIdentity[i]? = some m) ∧
    (∀ i o o' m m', .watched i o m ∈ stack.log → .watched i o' m' ∈ stack.log →
      m ∈ stack.runtime → m' ∈ stack.runtime → m = m') ∧
    (∀ i o after before, stack.log = after ++ .ownerClosed i o :: before →
      lastOwner i before = some o ∧ o ∈ stack.exited) ∧
    ∀ m closes stack', stack.receive m closes = some stack' →
      stack' = stack.demonitor m ∨
        ∃ i o, stack.socketOwnerMonitorsByIdentity[i]? = some m ∧ lastOwner i stack.log = some o ∧
          (stack'.log = stack.log ∨ stack'.log = .ownerClosed i o :: stack.log) ∧
          stack'.socketOwnerMonitorsByIdentity = stack.socketOwnerMonitorsByIdentity.erase i := by
  have hs := reaches_followed h
  refine ⟨?_, ?_, hs.closed, fun m closes stack' => hs.receive_cases⟩
  · intro m i
    rw [← hs.inverse m i]
    constructor
    · rintro ⟨kind, hm⟩
      exact ⟨_, hm, rfl⟩
    · rintro ⟨⟨_, kind⟩, hm, rfl⟩
      exact ⟨kind, hm⟩
  · intro i o o' m m' hm hm' hin hin'
    obtain ⟨w, hw⟩ := Option.isSome_iff_exists.1 (ExtTreeMap.isSome_getElem?_iff_mem.2 hin)
    obtain ⟨w', hw'⟩ := Option.isSome_iff_exists.1 (ExtTreeMap.isSome_getElem?_iff_mem.2 hin')
    exact Option.some.inj ((hs.live i o m w hm hw).symm.trans (hs.live i o' m' w' hm' hw'))

/-- The first owner's `DOWN` is in the mailbox when a second owner is watched; the exit of the second one
closes the socket. -/
theorem closed_for_second_owner :
    ∃ stack, Reaches stack ∧
      stack.log = [.ownerClosed ⟨1, 1⟩ 8, .watched ⟨1, 1⟩ 8 1, .watched ⟨1, 1⟩ 7 0] ∧
      lastOwner ⟨1, 1⟩ [.watched ⟨1, 1⟩ 8 1, .watched ⟨1, 1⟩ 7 0] = some 8 := by
  have hrun : (Transition.execute Stack.step (fun _ _ => True) Stack.start
      [.socketAcceptOwned 7 (some ⟨1, 1⟩), .exit 7, .fire 0, .socketWatchOwner ⟨1, 1⟩ 8 (some .tcp), .exit 8,
        .fire 1, .down 1 true]).map Stack.log =
      some [.ownerClosed ⟨1, 1⟩ 8, .watched ⟨1, 1⟩ 8 1, .watched ⟨1, 1⟩ 7 0] := by decide +kernel
  have hstart : Reaches Stack.start := .start rfl
  obtain ⟨stack, hstack, hlog⟩ := hstart.observe hrun
  have hlast := (reaches_last_owner hstack).2.2.1 ⟨1, 1⟩ 8 [] _ hlog
  exact ⟨stack, hstack, hlog, hlast.1⟩

end SocketOwners

end SmolNet
