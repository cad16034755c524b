import SmolNet.UdpCalls

/-!
# Shutting the stack down

Shutdown first refuses new work, then takes the native structures apart in bounded slices, and
sends the abort notifications each slice produces before it takes the next.
-/

namespace SmolNet.NativeStack

open Std Program

variable {ε : Type}

/-- `close_next`: closes the entry with the least id and queues its waiters' notifications. -/
def closeNext (s : NativeStack) (identity : SocketIdentity) (entry : SocketEntry) : NativeStack :=
  let aborts := notifications identity entry.waiters
  { s with
    socketTable := { s.socketTable with
      entries := s.socketTable.entries.erase identity.id
      waiterCount := s.socketTable.waiterCount - entry.waiters.length }
    pendingNotifications := s.pendingNotifications ++ aborts }.logAborts aborts

/-- Drops one retained index or packet. -/
def discardRetained (s : NativeStack) : Option NativeStack :=
  match s.tcpConnections.toList.head? with
  | some (key, _) => some { s with tcpConnections := s.tcpConnections.erase key }
  | none =>
      match s.closingTcp.toList.head? with
      | some id => some { s with closingTcp := s.closingTcp.erase id }
      | none =>
          match s.closingDeadlines.toList.head? with
          | some deadline => some { s with closingDeadlines := s.closingDeadlines.erase deadline }
          | none => s.device.discardOne.map fun device => { s with device := device }

/-- Takes one structure apart; `false` when none is left. -/
def shutdownStep : Op ε Bool := do
  let s ← get
  match s.socketTable.first with
  | some (identity, entry) =>
      set (s.closeNext identity entry)
      return true
  | none =>
  match s.tcpRecords.toList.head? with
  | some (id, record) =>
      set { s with tcpRecords := s.tcpRecords.erase id }
      removeSocket record.handle
      modify fun s =>
        { s with
          closingTcp := s.closingTcp.erase id
          closingDeadlines := record.closeDeadline.elim s.closingDeadlines fun deadline =>
            s.closingDeadlines.erase (deadline, id)
          tcpConnections := record.connectionKey.elim s.tcpConnections s.tcpConnections.erase }
      return true
  | none =>
  match s.tcpListeners.toList.head? with
  | some (id, listener) =>
      set { s with tcpListeners := s.tcpListeners.erase id }
      each removeSocket listener.pool.toList
      return true
  | none =>
  match s.udpRecords.toList.head? with
  | some (id, record) =>
      set { s with udpRecords := s.udpRecords.erase id }
      each removeSocket record.handles
      return true
  | none =>
  match s.discardRetained with
  | some s' =>
      set s'
      return true
  | none => return false

def shutdownLoop : Nat → Nat → Op ε Nat
  | 0, work => return work
  | n + 1, work => do
      if ← withinBudget then
        if ← shutdownStep then shutdownLoop n (work + 1) else return work
      else return work

def shutdownStructuresPending (s : NativeStack) : Bool :=
  0 < s.socketTable.len || !s.tcpRecords.isEmpty || !s.tcpListeners.isEmpty ||
    !s.udpRecords.isEmpty || !s.tcpConnections.isEmpty || !s.closingTcp.isEmpty ||
    !s.closingDeadlines.isEmpty || s.device.receive != [] || s.device.transmit != []

def shutdownWork : Op ε Effects := do
  let s ← get
  let work ← shutdownLoop s.limits.maintenanceWork 0
  modify fun s => { s with counters := s.counters.observe { maintenanceWork := work } }
  let s ← get
  return { more := s.shutdownStructuresPending, maintenanceWork := work }

/-- Whether the shutdown has work left; the ready set is asked only if nothing else has. -/
def shutdownPending (s : NativeStack) : Bool × NativeStack :=
  s.readinessLeft s.shutdownStructuresPending

/-- Takes structures apart unless notifications of an earlier slice still wait. -/
def shutdownSlice : Op ε Effects := do
  let s ← get
  if s.pendingNotifications = [] then shutdownWork else return {}

def continueShutdown : Op ε Envelope := do
  let effects ← shutdownSlice
  let envelope ← finishCall .ok effects []
  let s ← get
  let pending := s.shutdownPending
  if pending.1 then
    set pending.2
    return { envelope with more := true, pollAt := none }
  else
    set { pending.2 with
      lifecycle := .shutdown
      closingSweepCursor := none
      closingCleanupPending := false
      closingCleanupResweep := false
      listenerScanCursor := none
      listenerScanPending := false
      listenerScanResweep := false
      readySweep := false
      readySweepCursor := none
      readySweepResweep := false
      readySweepPending := [] }
    return { envelope with more := false }

def shutdown (reason : AbortReason) : Op ε Envelope := do
  let s ← get
  if s.lifecycle = .shutdown then return .empty .ok
  else
    set { s with
      shutdownReason := reason
      lifecycle := .shuttingDown
      readySweep := false
      readySweepCursor := none
      readySweepResweep := false
      readySweepPending := [] }
    continueShutdown

end SmolNet.NativeStack
