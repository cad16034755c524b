import SmolNet.AccessSpecs
import SmolNet.Steps
import SmolNet.TableSpecs

/-!
# What wakers and the end of a call leave alone

Wakers, waiters and `finish_call` touch the ready queue and the waiter slots of the socket table.
`holdings` collects what they leave alone: the native sockets, the records, the device, and the
configuration.
-/

namespace SmolNet

open Std

/-! ## Holdings -/

structure Holdings where
  ipAddrs : List IpCidr
  sockets : SocketSet
  device : BeamDevice
  tcpRecords : ExtTreeMap Nat TcpRecord
  tcpListeners : ExtTreeMap Nat ListenerRecord
  tcpConnections : ExtTreeMap ConnectionKey SocketIdentity ConnectionKey.cmp
  udpRecords : ExtTreeMap Nat UdpRecord
  closingTcp : ExtTreeSet Nat
  closingDeadlines : ExtTreeSet (Instant × Nat) instantCmp
  closingCleanupPending : Bool
  listenerScanPending : Bool
  lifecycle : Lifecycle
  limits : Limits
  mtu : Nat
  tcpTimers : TcpTimers
  routePrefixes : List IpCidr
  nextSocketId : Nat
  nextGeneration : Nat
  nextEphemeralPort : Nat
  nextUdpEphemeralPort : Nat
  inHand : List PendingNotification
  promotions : List (SocketIdentity × SocketIdentity)
  accepts : List (SocketIdentity × SocketIdentity)
  reused : List ConnectionKey
  allocations : List Allocation

namespace NativeStack

def holdings (s : NativeStack) : Holdings where
  ipAddrs := s.ipAddrs
  sockets := s.sockets
  device := s.device
  tcpRecords := s.tcpRecords
  tcpListeners := s.tcpListeners
  tcpConnections := s.tcpConnections
  udpRecords := s.udpRecords
  closingTcp := s.closingTcp
  closingDeadlines := s.closingDeadlines
  closingCleanupPending := s.closingCleanupPending
  listenerScanPending := s.listenerScanPending
  lifecycle := s.lifecycle
  limits := s.limits
  mtu := s.mtu
  tcpTimers := s.tcpTimers
  routePrefixes := s.routePrefixes
  nextSocketId := s.nextSocketId
  nextGeneration := s.nextGeneration
  nextEphemeralPort := s.nextEphemeralPort
  nextUdpEphemeralPort := s.nextUdpEphemeralPort
  inHand := s.history.inHand
  promotions := s.history.promotions
  accepts := s.history.accepts
  reused := s.history.reused
  allocations := s.history.allocations

/-- `s'` differs from `s` in readiness only. -/
structure Undisturbed (s s' : NativeStack) : Prop where
  holdings : s'.holdings = s.holdings
  table : s.socketTable.Agrees s'.socketTable

namespace Undisturbed

theorem refl (s : NativeStack) : Undisturbed s s := ⟨rfl, .refl _⟩

theorem trans {s t u : NativeStack} (h : Undisturbed s t) (h' : Undisturbed t u) : Undisturbed s u :=
  ⟨h'.holdings.trans h.holdings, h.table.trans h'.table⟩

/-- The table stays as it is. -/
theorem of_table {s s' : NativeStack} (h : s'.holdings = s.holdings)
    (htable : s'.socketTable = s.socketTable) : Undisturbed s s' :=
  ⟨h, by rw [htable]; exact .refl _⟩

section

variable {s s' : NativeStack} (h : Undisturbed s s')
include h

theorem sockets : s'.sockets = s.sockets := congrArg Holdings.sockets h.holdings
theorem device : s'.device = s.device := congrArg Holdings.device h.holdings
theorem tcpRecords : s'.tcpRecords = s.tcpRecords := congrArg Holdings.tcpRecords h.holdings
theorem tcpListeners : s'.tcpListeners = s.tcpListeners := congrArg Holdings.tcpListeners h.holdings
theorem tcpConnections : s'.tcpConnections = s.tcpConnections :=
  congrArg Holdings.tcpConnections h.holdings
theorem udpRecords : s'.udpRecords = s.udpRecords := congrArg Holdings.udpRecords h.holdings
theorem closingTcp : s'.closingTcp = s.closingTcp := congrArg Holdings.closingTcp h.holdings
theorem closingDeadlines : s'.closingDeadlines = s.closingDeadlines :=
  congrArg Holdings.closingDeadlines h.holdings
theorem closingCleanupPending : s'.closingCleanupPending = s.closingCleanupPending :=
  congrArg Holdings.closingCleanupPending h.holdings
theorem listenerScanPending : s'.listenerScanPending = s.listenerScanPending :=
  congrArg Holdings.listenerScanPending h.holdings
theorem lifecycle : s'.lifecycle = s.lifecycle := congrArg Holdings.lifecycle h.holdings
theorem limits : s'.limits = s.limits := congrArg Holdings.limits h.holdings
theorem nextSocketId : s'.nextSocketId = s.nextSocketId := congrArg Holdings.nextSocketId h.holdings
theorem inHand : s'.history.inHand = s.history.inHand := congrArg Holdings.inHand h.holdings
theorem nextEphemeralPort : s'.nextEphemeralPort = s.nextEphemeralPort :=
  congrArg Holdings.nextEphemeralPort h.holdings
theorem nextUdpEphemeralPort : s'.nextUdpEphemeralPort = s.nextUdpEphemeralPort :=
  congrArg Holdings.nextUdpEphemeralPort h.holdings
theorem promotions : s'.history.promotions = s.history.promotions :=
  congrArg Holdings.promotions h.holdings
theorem accepts : s'.history.accepts = s.history.accepts := congrArg Holdings.accepts h.holdings
theorem reused : s'.history.reused = s.history.reused := congrArg Holdings.reused h.holdings
theorem allocations : s'.history.allocations = s.history.allocations :=
  congrArg Holdings.allocations h.holdings
theorem len : s'.socketTable.len = s.socketTable.len := SocketTable.len_eq_of_roster h.table.roster

end

end Undisturbed

/-! ## Wakers -/

theorem undisturbed_wake (s : NativeStack) (key : ReadyKey) : Undisturbed s (s.wake key) := by
  unfold wake
  dsimp only
  split
  · exact .of_table rfl rfl
  · exact ⟨rfl, rfl, rfl, rfl⟩

theorem undisturbed_wakeAll (s : NativeStack) (keys : List ReadyKey) :
    Undisturbed s (s.wakeAll keys) := by
  induction keys generalizing s with
  | nil => exact .refl s
  | cons key keys ih => exact (s.undisturbed_wake key).trans (ih _)

/-- A waker sets a flag, and leaves the table otherwise as it is. -/
structure SameSlots (s s' : NativeStack) : Prop where
  entries : s'.socketTable.entries = s.socketTable.entries
  waiterCount : s'.socketTable.waiterCount = s.socketTable.waiterCount
  maxWaiters : s'.socketTable.maxWaiters = s.socketTable.maxWaiters

theorem SameSlots.trans {s t u : NativeStack} (h : SameSlots s t) (h' : SameSlots t u) :
    SameSlots s u :=
  ⟨h'.entries.trans h.entries, h'.waiterCount.trans h.waiterCount, h'.maxWaiters.trans h.maxWaiters⟩

theorem sameSlots_wake (s : NativeStack) (key : ReadyKey) : SameSlots s (s.wake key) := by
  unfold wake
  dsimp only
  split <;> exact ⟨rfl, rfl, rfl⟩

theorem sameSlots_wakeAll (s : NativeStack) (keys : List ReadyKey) :
    SameSlots s (s.wakeAll keys) := by
  induction keys generalizing s with
  | nil => exact ⟨rfl, rfl, rfl⟩
  | cons key keys ih => exact (s.sameSlots_wake key).trans (ih _)

theorem sameSlots_markListenerReady (s : NativeStack) (identity : SocketIdentity) :
    SameSlots s (s.markListenerReady identity) := by
  unfold markListenerReady
  split
  · exact s.sameSlots_wake _
  · exact ⟨rfl, rfl, rfl⟩

theorem undisturbed_markListenerReady (s : NativeStack) (identity : SocketIdentity) :
    Undisturbed s (s.markListenerReady identity) := by
  unfold markListenerReady
  split
  · exact s.undisturbed_wake _
  · exact .refl s

/-- A change that waking any key commutes with, commutes with waking them all. -/
theorem wakeAll_comm {f : NativeStack → NativeStack}
    (hf : ∀ (s : NativeStack) (key : ReadyKey), f (s.wake key) = (f s).wake key) (s : NativeStack)
    (keys : List ReadyKey) : f (s.wakeAll keys) = (f s).wakeAll keys := by
  induction keys generalizing s with
  | nil => rfl
  | cons key keys ih =>
      rw [wakeAll, List.foldl_cons]
      exact (ih (s.wake key)).trans (by rw [hf]; rfl)

/-! ## The end of a call -/

/-- `s'` differs from `s` in the ready queue, its sweep, the budget and the counters only. -/
structure Unposted (s s' : NativeStack) : Prop where
  holdings : s'.holdings = s.holdings
  socketTable : s'.socketTable = s.socketTable
  pendingNotifications : s'.pendingNotifications = s.pendingNotifications
  events : s'.history.events = s.history.events
  world : s.world.Continues s'.world

/-- What the end of a call is made of: changes that post nothing, notifications taken from the head
of the queue, and keys delivered. -/
inductive ReadinessStep : NativeStack → NativeStack → Prop
  | quiet {s s' : NativeStack} (h : Unposted s s') : ReadinessStep s s'
  | send {s : NativeStack} {notification : PendingNotification} {rest : List PendingNotification}
      (h : s.pendingNotifications = notification :: rest) :
      ReadinessStep s ({ s with pendingNotifications := rest }.sendAbort notification)
  | deliver {s : NativeStack} (key : ReadyKey) (h : s.lifecycle = .running) :
      ReadinessStep s (s.deliverReady key)

def ReadinessPath : NativeStack → NativeStack → Prop := Relation.ReflTransGen ReadinessStep

namespace ReadinessPath

theorem refl (s : NativeStack) : ReadinessPath s s := Relation.ReflTransGen.refl

theorem trans {s t u : NativeStack} (h : ReadinessPath s t) (h' : ReadinessPath t u) :
    ReadinessPath s u := Relation.ReflTransGen.trans h h'

theorem quiet {s s' : NativeStack} (hholdings : s'.holdings = s.holdings)
    (htable : s'.socketTable = s.socketTable)
    (hpending : s'.pendingNotifications = s.pendingNotifications)
    (hevents : s'.history.events = s.history.events) (hworld : s.world.Continues s'.world) :
    ReadinessPath s s' := .single (.quiet ⟨hholdings, htable, hpending, hevents, hworld⟩)

theorem spend (s : NativeStack) : ReadinessPath s s.spend := .quiet rfl rfl rfl rfl (.of_polls rfl rfl)

theorem deliverOrDiscardReady (s : NativeStack) (key : ReadyKey) :
    ReadinessPath s (s.deliverOrDiscardReady key) := by
  unfold NativeStack.deliverOrDiscardReady
  split
  · rename_i hrunning
    exact .single (.deliver key hrunning)
  · exact .quiet rfl rfl rfl rfl (.of_polls rfl rfl)

theorem abortLoop (n : Nat) (s : NativeStack) : ReadinessPath s (NativeStack.abortLoop n s).2 := by
  induction n generalizing s with
  | zero => exact .refl s
  | succ n ih =>
      unfold NativeStack.abortLoop
      split
      · exact .refl s
      · rename_i notification rest hpending
        split
        · refine (spend s).trans (.trans ?_ (ih _))
          exact .single (.send (s := s.spend) hpending)
        · exact spend s

theorem takeOverflow (s : NativeStack) : ReadinessPath s s.takeOverflow := by
  unfold NativeStack.takeOverflow
  dsimp only
  split
  · split <;> exact .quiet rfl rfl rfl rfl (.of_polls rfl rfl)
  · exact .quiet rfl rfl rfl rfl (.of_polls rfl rfl)

theorem drainReady (left : Nat) (s : NativeStack) :
    ReadinessPath s (NativeStack.drainReady left s).2 := by
  unfold NativeStack.drainReady
  split
  · exact .refl s
  · split
    · exact spend s
    · dsimp only
      split <;> exact .quiet rfl rfl rfl rfl (.of_polls rfl rfl)

theorem deliverKeys (keys : List ReadyKey) (left : Nat) (s : NativeStack) :
    ReadinessPath s (NativeStack.deliverKeys keys left s).2 := by
  induction keys generalizing left s with
  | nil => exact .refl s
  | cons key keys ih =>
      unfold NativeStack.deliverKeys
      split
      · exact (spend s).trans ((deliverOrDiscardReady _ key).trans (ih _ _))
      · refine .trans ?_ (ih _ _)
        exact .quiet rfl rfl rfl rfl (.of_polls rfl rfl)

theorem pendingLoop (n : Nat) (s : NativeStack) : ReadinessPath s (NativeStack.pendingLoop n s).2 := by
  induction n generalizing s with
  | zero => exact .refl s
  | succ n ih =>
      unfold NativeStack.pendingLoop
      split
      · exact .refl s
      · rename_i key rest _
        split
        · refine .trans (t := { s.spend with readySweepPending := rest }) ?_ ?_
          · exact .quiet rfl rfl rfl rfl (.of_polls rfl rfl)
          · exact (deliverOrDiscardReady _ key).trans (ih _)
        · exact spend s

theorem advanceSweep (s : NativeStack) (scan : ReadyScan) : ReadinessPath s (s.advanceSweep scan) := by
  unfold NativeStack.advanceSweep
  split <;> exact .quiet rfl rfl rfl rfl (.of_polls rfl rfl)

theorem sweepReady (left : Nat) (s : NativeStack) :
    ReadinessPath s (NativeStack.sweepReady left s).2 := by
  unfold NativeStack.sweepReady
  split
  · refine .trans (.trans ?_ (deliverKeys _ _ _)) (advanceSweep _ _)
    exact .quiet rfl rfl rfl rfl (.of_polls rfl rfl)
  · exact .refl s

theorem deliverReadiness (aborts : List PendingNotification) (s : NativeStack) :
    ReadinessPath (s.queueAborts aborts) (NativeStack.deliverReadiness aborts s).2 := by
  unfold NativeStack.deliverReadiness
  dsimp only
  refine .trans ?_ (sweepReady _ _)
  refine .trans ?_ (pendingLoop _ _)
  refine .trans ?_ (deliverKeys _ _ _)
  refine .trans ?_ (drainReady _ _)
  exact (abortLoop _ _).trans (takeOverflow _)

theorem readinessLeft (more : Bool) (s : NativeStack) :
    ReadinessPath s (s.readinessLeft more).2 := by
  unfold NativeStack.readinessLeft
  split
  · exact .refl s
  · dsimp only
    unfold readyPending
    split
    · exact .refl s
    · exact .quiet rfl rfl rfl rfl (.of_polls rfl rfl)

theorem finish (result : Reply) (effects : Effects) (aborts : List PendingNotification)
    (s : NativeStack) :
    ReadinessPath (s.queueAborts aborts) (NativeStack.finish result effects aborts s).2 := by
  unfold NativeStack.finish
  dsimp only
  have h := (deliverReadiness aborts s).trans (readinessLeft effects.more _)
  split
  · exact h.trans (.quiet rfl rfl rfl rfl (.of_polls rfl rfl))
  · exact h.trans (.quiet rfl rfl rfl rfl (.of_polls rfl rfl))

end ReadinessPath

theorem undisturbed_deliverReady (s : NativeStack) (key : ReadyKey) :
    Undisturbed s (s.deliverReady key) := by
  have htake := s.socketTable.agrees_takeReadyWaiter key
  unfold deliverReady
  split <;> rename_i htaken <;> rw [htaken] at htake
  · exact ⟨rfl, htake.trans (SocketTable.agrees_rememberSent _ _ _ _)⟩
  · exact ⟨rfl, htake⟩

theorem Unposted.undisturbed {s s' : NativeStack} (h : Unposted s s') : Undisturbed s s' :=
  .of_table h.holdings h.socketTable

theorem ReadinessStep.undisturbed {s s' : NativeStack} (h : ReadinessStep s s') : Undisturbed s s' := by
  cases h with
  | quiet h => exact h.undisturbed
  | send _ => exact .of_table rfl rfl
  | deliver key _ => exact s.undisturbed_deliverReady key

theorem ReadinessPath.undisturbed {s s' : NativeStack} (h : ReadinessPath s s') : Undisturbed s s' := by
  induction h with
  | refl => exact .refl _
  | tail _ hstep ih => exact ih.trans hstep.undisturbed

theorem undisturbed_finish (result : Reply) (effects : Effects) (aborts : List PendingNotification)
    (s : NativeStack) : Undisturbed (s.queueAborts aborts) (finish result effects aborts s).2 :=
  (ReadinessPath.finish result effects aborts s).undisturbed

end NativeStack

end SmolNet
