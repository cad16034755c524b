import SmolNet.AcceptQueues
import SmolNet.RecordSteps
import SmolNet.Script

/-!
# The order of accepts

A listener's promoted connections are taken by `tcp_accept` in the order in which they were promoted, each
once.  Those that have not been taken are exactly the listener's queue, and that is never longer than its
backlog.
-/

namespace SmolNet

open Std TreeMap

/-- The connections of one listener in a log of promotions or accepts. -/
def childrenOf (listener : SocketIdentity) (log : List (SocketIdentity × SocketIdentity)) :
    List SocketIdentity :=
  (log.filter fun entry => entry.1 = listener).map Prod.snd

theorem childrenOf_append (listener : SocketIdentity) (log : List (SocketIdentity × SocketIdentity))
    (entry : SocketIdentity × SocketIdentity) :
    childrenOf listener (log ++ [entry]) =
      childrenOf listener log ++ if entry.1 = listener then [entry.2] else [] := by
  unfold childrenOf
  rw [List.filter_append, List.map_append]
  by_cases h : entry.1 = listener <;> simp [h]

theorem childrenOf_eq_nil {listener : SocketIdentity} {log : List (SocketIdentity × SocketIdentity)}
    (h : ∀ entry ∈ log, entry.1 ≠ listener) : childrenOf listener log = [] := by
  unfold childrenOf
  rw [List.filter_eq_nil_iff.2 fun entry hentry => by simpa using h entry hentry]
  rfl

/-- The queue holds what has been promoted and not yet accepted. -/
structure ListenerRecord.Queues (listener : ListenerRecord)
    (promotions accepts : List (SocketIdentity × SocketIdentity)) : Prop where
  children : childrenOf listener.identity promotions = childrenOf listener.identity accepts ++ listener.accepted
  bounded : listener.accepted.length ≤ listener.backlog

theorem childrenOf_other {listener : SocketIdentity} {entry : SocketIdentity × SocketIdentity}
    (h : entry.1 ≠ listener) (log : List (SocketIdentity × SocketIdentity)) :
    childrenOf listener (log ++ [entry]) = childrenOf listener log := by
  rw [childrenOf_append, if_neg h, List.append_nil]

namespace NativeStack

open Ownership

variable {s s' : NativeStack}

structure InOrder (s : NativeStack) : Prop where
  queues : All (fun _ listener => listener.Queues s.history.promotions s.history.accepts) s.tcpListeners
  order : ∀ listener, childrenOf listener s.history.accepts <+: childrenOf listener s.history.promotions
  past : ∀ entry ∈ s.history.promotions,
    entry.1.id ∉ s.tcpRecords ∧ entry.1.id < s.nextSocketId ∧ entry.2.id < s.nextSocketId
  once : (s.history.promotions.map fun entry => entry.2.id).Nodup

/-- A known id that has a record had it before. -/
theorem Step.record_of {label : StepLabel} (h : Step s label s') {id : Nat} (hid : id < s.nextSocketId)
    (hrecord : id ∈ s'.tcpRecords) : id ∈ s.tcpRecords := by
  obtain ⟨record, hrecord⟩ := Option.isSome_iff_exists.1 (ExtTreeMap.mem_iff_isSome_getElem?.1 hrecord)
  obtain ⟨key, hentries⟩ := h.writesRecords.entries
  rcases hentries id record hrecord with hold | ⟨-, hfrom⟩
  · exact mem_of_getElem? hold
  · cases hfrom with
    | amended hold _ => exact mem_of_getElem? hold
    | opened _ _ _ _ _ hnew => exact (Nat.not_le.2 hid hnew).elim
    | bound _ _ hold _ _ _ => exact mem_of_getElem? hold
    | connected _ _ _ hold _ _ _ _ => exact mem_of_getElem? hold
    | accepted _ _ _ _ _ _ _ hnew => exact (Nat.not_le.2 hid hnew).elim

theorem InOrder.past_step (h : s.InOrder) {label : StepLabel} (hstep : Step s label s') :
    ∀ entry ∈ s.history.promotions,
      entry.1.id ∉ s'.tcpRecords ∧ entry.1.id < s'.nextSocketId ∧ entry.2.id < s'.nextSocketId := by
  intro entry hentry
  obtain ⟨hrecord, hlistener, hchild⟩ := h.past entry hentry
  have hle := hstep.nextSocketId_le
  exact ⟨fun hin => hrecord (hstep.record_of hlistener hin), hlistener.trans_le hle, hchild.trans_le hle⟩

/-- A step that promotes and accepts nothing. -/
theorem InOrder.keeps (h : s.InOrder) {label : StepLabel} (hstep : Step s label s')
    (hpromotions : s'.history.promotions = s.history.promotions)
    (haccepts : s'.history.accepts = s.history.accepts)
    (hlisteners : All (fun _ listener => listener.Queues s.history.promotions s.history.accepts) s'.tcpListeners) :
    s'.InOrder := by
  constructor
  · rw [hpromotions, haccepts]
    exact hlisteners
  · rw [hpromotions, haccepts]
    exact h.order
  · rw [hpromotions]
    exact h.past_step hstep
  · rw [hpromotions]
    exact h.once

theorem InOrder.step (h : s.InOrder) (hs : s.Sound) {label : StepLabel} (hstep : Step s label s') :
    s'.InOrder := by
  have hne : ∀ {id : Nat} {listener other : ListenerRecord}, s.tcpListeners[id]? = some other →
      id ≠ listener.identity.id → listener.identity ≠ other.identity := by
    intro id listener other hother hid hidentity
    rw [hidentity] at hid
    exact hid (hs.filed.listener id other hother).1.symm
  have hwhole := hstep
  cases hstep with
  | drive hstep =>
      cases hstep with
      | wake key =>
          have hsame := s.undisturbed_wake key
          exact h.keeps hwhole hsame.promotions hsame.accepts (hsame.tcpListeners ▸ h.queues)
      | @promote listener handle child _ localEndpoint remote hlistener _ _ _ _ hbacklog hid _ _ _ =>
          have hsame := undisturbed_markListenerReady
            (s.promoted listener handle child localEndpoint remote) listener.identity
          have hpromotions : _ = s.history.promotions ++ [(listener.identity, child)] := hsame.promotions
          have haccepts : _ = s.history.accepts := hsame.accepts
          constructor
          · rw [hsame.tcpListeners, hpromotions, haccepts]
            intro id other hother
            rcases getElem?_insert_eq_some.1 hother with ⟨rfl, rfl⟩ | ⟨hapart, hold⟩
            · obtain ⟨hchildren, -⟩ := h.queues _ listener hlistener
              refine ⟨?_, ?_⟩
              · change childrenOf listener.identity _ = _ ++ (listener.accepted ++ [child])
                rw [childrenOf_append, if_pos rfl, hchildren, List.append_assoc]
                rfl
              · change (listener.accepted ++ [child]).length ≤ listener.backlog
                rw [List.length_append]
                exact hbacklog
            · obtain ⟨hchildren, hbounded⟩ := h.queues id other hold
              exact ⟨(childrenOf_other (hne hold hapart) _).trans hchildren, hbounded⟩
          · rw [hpromotions, haccepts]
            intro other
            rw [childrenOf_append]
            exact (h.order other).trans (List.prefix_append _ _)
          · rw [hpromotions]
            intro entry hentry
            rcases List.mem_append.1 hentry with hold | hnew
            · exact h.past_step hwhole entry hold
            · obtain rfl := List.mem_singleton.1 hnew
              have hknown : listener.identity.id < s.nextSocketId := by
                by_contra hle'
                exact (hs.rostered.fresh _ (Nat.le_of_not_lt hle')).2.1 (mem_of_getElem? hlistener)
              refine ⟨fun hin => ?_, hknown.trans_le hwhole.nextSocketId_le, ?_⟩
              · exact (hs.rostered.tcp_apart _ (hwhole.record_of hknown hin)).1 (mem_of_getElem? hlistener)
              · rw [hsame.nextSocketId]
                exact Nat.lt_succ_self child.id
          · rw [hpromotions, List.map_append]
            refine List.nodup_append.2 ⟨h.once, List.nodup_singleton _, ?_⟩
            intro other hother fresh hfresh
            obtain rfl := List.mem_singleton.1 hfresh
            obtain ⟨entry, hentry, rfl⟩ := List.mem_map.1 hother
            exact ((h.past entry hentry).2.2.trans_le hid).ne
      | @recycle listener handle hlistener hpool =>
          refine h.keeps hwhole rfl rfl (All.insert h.queues ?_)
          exact ⟨(h.queues _ listener hlistener).children, (h.queues _ listener hlistener).bounded⟩
      | _ => exact h.keeps hwhole rfl rfl h.queues
  | @finish result effects aborts _ =>
      have hsame := undisturbed_finish result effects aborts s
      exact h.keeps hwhole hsame.promotions hsame.accepts (hsame.tcpListeners ▸ h.queues)
  | @listen record listener _ _ hrecord _ _ _ _ _ hidentity haccepted _ _ _ _ _ _ _ _ _ _ _ =>
      -- Nothing has been promoted for a socket that has a record.
      have hnone : childrenOf listener.identity s.history.promotions = [] := by
        refine childrenOf_eq_nil fun entry hentry hsame => (h.past entry hentry).1 ?_
        rw [hsame, hidentity]
        exact mem_of_getElem? hrecord
      have hnone' : childrenOf listener.identity s.history.accepts = [] :=
        List.prefix_nil.1 (hnone ▸ h.order listener.identity)
      refine h.keeps hwhole rfl rfl (All.insert h.queues ⟨?_, ?_⟩)
      · rw [hnone, hnone', haccepted]
        rfl
      · rw [haccepted]
        exact Nat.zero_le _
  | @amendListener listener changed hlistener hchanged =>
      obtain ⟨hchildren, hbounded⟩ := h.queues _ listener hlistener
      refine h.keeps hwhole rfl rfl (All.insert h.queues ⟨?_, ?_⟩)
      · rw [hchanged.identity, hchanged.accepted]
        exact hchildren
      · rw [hchanged.accepted, hchanged.backlog]
        exact hbounded
  | @accept listener child rest hlistener haccepted =>
      obtain ⟨hchildren, hbounded⟩ := h.queues _ listener hlistener
      rw [haccepted] at hchildren hbounded
      have hsplit : childrenOf listener.identity s.history.promotions =
          childrenOf listener.identity (s.history.accepts ++ [(listener.identity, child)]) ++ rest := by
        rw [childrenOf_append, if_pos rfl, List.append_assoc]
        exact hchildren
      refine ⟨fun id other hother => ?_, fun other => ?_, h.past, h.once⟩
      · rcases getElem?_insert_eq_some.1 hother with ⟨rfl, rfl⟩ | ⟨hapart, hold⟩
        · exact ⟨hsplit, Nat.le_of_succ_le hbounded⟩
        · obtain ⟨hchildren, hbounded⟩ := h.queues id other hold
          exact ⟨hchildren.trans (congrArg (· ++ _) (childrenOf_other (hne hold hapart) _).symm), hbounded⟩
      · change childrenOf other (s.history.accepts ++ [(listener.identity, child)]) <+: _
        by_cases hsame : listener.identity = other
        · subst hsame
          exact ⟨rest, hsplit.symm⟩
        · rw [childrenOf_other hsame]
          exact h.order other
  | dropListener _ _ => exact h.keeps hwhole rfl rfl (All.erase h.queues _)
  | _ => exact h.keeps hwhole rfl rfl h.queues

theorem inOrder_new {limits : Limits} {config : StackConfig} {id generation : Nat}
    (h : NativeStack.new limits config id generation = .ok s) : s.InOrder := by
  unfold NativeStack.new at h
  split at h
  · simp at h
  · split at h
    · simp at h
    · obtain rfl := Except.ok.inj h
      exact ⟨all_empty _, fun _ => List.nil_prefix, fun _ hentry => (by cases hentry), List.nodup_nil⟩

theorem Reachable.inOrder (h : Reachable s) : s.InOrder := by
  refine h.keeps inOrder_new (fun s world hs => ?_) (fun s hs => ?_) ?_
  · exact ⟨hs.queues, hs.order, hs.past, hs.once⟩
  · exact ⟨hs.queues, hs.order, hs.past, hs.once⟩
  · intro s label s' hregular hs hstep
    exact hs.step hregular.sound hstep

/-- In every run `tcp_accept` takes a listener's connections in the order of their promotion and none of them
twice; those that it has not taken are the listener's queue, which its backlog bounds. -/
theorem accepts_in_order (h : Reachable s) :
    (∀ listener, childrenOf listener s.history.accepts <+: childrenOf listener s.history.promotions) ∧
    (s.history.promotions.map fun entry => entry.2.id).Nodup ∧
    ∀ (id : Nat) (listener : ListenerRecord), s.tcpListeners[id]? = some listener →
      childrenOf listener.identity s.history.promotions =
        childrenOf listener.identity s.history.accepts ++ listener.accepted ∧
      listener.accepted.length ≤ listener.backlog := by
  have hs := h.inOrder
  refine ⟨hs.order, hs.once, fun id listener hlistener => ?_⟩
  exact ⟨(hs.queues id listener hlistener).children, (hs.queues id listener hlistener).bounded⟩

/-- Two connections are promoted and one is accepted: it is the first one. -/
theorem accepts_in_order_script : ∃ s, Reachable s ∧
    s.history.promotions = [(⟨1, 1⟩, ⟨2, 2⟩), (⟨1, 1⟩, ⟨3, 3⟩)] ∧ s.history.accepts = [(⟨1, 1⟩, ⟨2, 2⟩)] ∧
    childrenOf ⟨1, 1⟩ s.history.accepts <+: childrenOf ⟨1, 1⟩ s.history.promotions := by
  have hwaiting : Reachable Script.waiting := Script.reachable_stack.run _
  have hs : Reachable (Script.waiting.run
      (Script.handshake 5001 80 1 ++ [(.tcpAccept ⟨1, 1⟩ 9 1, ({} : World))])).2 := hwaiting.run _
  exact ⟨_, hs, by decide +kernel, by decide +kernel, (accepts_in_order hs).1 ⟨1, 1⟩⟩

end NativeStack

end SmolNet
