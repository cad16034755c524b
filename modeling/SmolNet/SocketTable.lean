import SmolNet.ReadyQueue

/-!
# The socket table

Open sockets by id, each with its generation and at most one waiter in each direction.  The ready
flags a socket shares with its wakers outlive its entry, so they are kept beside the entries, by
the key they were made for.
-/

namespace SmolNet

open Std

inductive SocketLifecycle where
  | open | closing
deriving DecidableEq, Repr

structure SocketEntry where
  kind : SocketKind
  lifecycle : SocketLifecycle
  readWaiter : Option Waiter
  writeWaiter : Option Waiter
  readSent : Option Waiter
  writeSent : Option Waiter
deriving DecidableEq, Repr

namespace SocketEntry

def new (kind : SocketKind) : SocketEntry := ⟨kind, .open, none, none, none, none⟩

def waiter (entry : SocketEntry) : Direction → Option Waiter
  | .read => entry.readWaiter
  | .write => entry.writeWaiter

def sent (entry : SocketEntry) : Direction → Option Waiter
  | .read => entry.readSent
  | .write => entry.writeSent

def setWaiter (entry : SocketEntry) (direction : Direction) (waiter : Option Waiter) : SocketEntry :=
  match direction with
  | .read => { entry with readWaiter := waiter }
  | .write => { entry with writeWaiter := waiter }

def setSent (entry : SocketEntry) (direction : Direction) (waiter : Option Waiter) : SocketEntry :=
  match direction with
  | .read => { entry with readSent := waiter }
  | .write => { entry with writeSent := waiter }

/-- The waiters of an entry, read before write. -/
def waiters (entry : SocketEntry) : List (Direction × Waiter) :=
  (entry.readWaiter.map fun waiter => (.read, waiter)).toList ++
    (entry.writeWaiter.map fun waiter => (.write, waiter)).toList

section

variable (entry : SocketEntry) (direction other : Direction) (value : Option Waiter)

@[simp] theorem setWaiter_kind : (entry.setWaiter direction value).kind = entry.kind := by
  cases direction <;> rfl

@[simp] theorem setSent_kind : (entry.setSent direction value).kind = entry.kind := by
  cases direction <;> rfl

@[simp] theorem setWaiter_lifecycle :
    (entry.setWaiter direction value).lifecycle = entry.lifecycle := by
  cases direction <;> rfl

@[simp] theorem setSent_lifecycle : (entry.setSent direction value).lifecycle = entry.lifecycle := by
  cases direction <;> rfl

theorem waiter_setWaiter :
    (entry.setWaiter direction value).waiter other =
      if other = direction then value else entry.waiter other := by
  cases direction <;> cases other <;> rfl

theorem sent_setSent :
    (entry.setSent direction value).sent other =
      if other = direction then value else entry.sent other := by
  cases direction <;> cases other <;> rfl

@[simp] theorem sent_setWaiter : (entry.setWaiter direction value).sent other = entry.sent other := by
  cases direction <;> cases other <;> rfl

@[simp] theorem waiter_setSent : (entry.setSent direction value).waiter other = entry.waiter other := by
  cases direction <;> cases other <;> rfl

end

end SocketEntry

structure SocketTable where
  entries : ExtTreeMap Nat (Nat × SocketEntry)
  maxEntries : Nat
  waiterCount : Nat
  maxWaiters : Nat
  flags : KeySet

inductive InstallResult where
  | armed | alreadyArmed
deriving DecidableEq, Repr

inductive CancelResult where
  | cancelled | alreadySent | notFound
deriving DecidableEq, Repr

inductive ReadyResult where
  | notify (waiter : Waiter)
  | noWaiter | coalesced | stale
deriving DecidableEq, Repr

structure WaiterRegistration where
  identity : SocketIdentity
  expectedKind : SocketKind
  direction : Direction
  pid : Nat
  operation : Operation
  reference : Nat
deriving DecidableEq, Repr

def WaiterRegistration.waiter (registration : WaiterRegistration) : Waiter :=
  ⟨registration.pid, registration.operation, registration.reference⟩

def WaiterRegistration.key (registration : WaiterRegistration) : ReadyKey :=
  ⟨registration.identity, registration.direction⟩

def maxSocketId : Nat := 2 ^ 59 - 1

namespace SocketTable

def new (maxEntries maxWaiters : Nat) : SocketTable where
  entries := ∅
  maxEntries := maxEntries
  waiterCount := 0
  maxWaiters := maxWaiters
  flags := ∅

def len (table : SocketTable) : Nat := table.entries.size

def flag (table : SocketTable) (key : ReadyKey) : Bool := table.flags.contains key

def clearFlag (table : SocketTable) (key : ReadyKey) : SocketTable :=
  { table with flags := table.flags.erase key }

def setFlag (table : SocketTable) (key : ReadyKey) : SocketTable :=
  { table with flags := table.flags.insert key }

/-- The entry of an identity, if its generation is current. -/
def lookup (table : SocketTable) (identity : SocketIdentity) : Option SocketEntry :=
  match table.entries[identity.id]? with
  | some (generation, entry) => if generation = identity.generation then some entry else none
  | none => none

def putEntry (table : SocketTable) (identity : SocketIdentity) (entry : SocketEntry) : SocketTable :=
  { table with entries := table.entries.insert identity.id (identity.generation, entry) }

/-- A new entry, whose two flags are fresh and clear. -/
def insertEntry (table : SocketTable) (identity : SocketIdentity) (kind : SocketKind) : SocketTable :=
  (table.putEntry identity (.new kind)).clearFlag ⟨identity, .read⟩ |>.clearFlag ⟨identity, .write⟩

@[simp] theorem entries_insertEntry (table : SocketTable) (identity : SocketIdentity)
    (kind : SocketKind) : (table.insertEntry identity kind).entries =
      table.entries.insert identity.id (identity.generation, .new kind) := rfl

def validateAny (table : SocketTable) (identity : SocketIdentity) : Except SocketError SocketEntry :=
  match table.lookup identity with
  | none => .error .invalidSocket
  | some entry => if entry.lifecycle = .open then .ok entry else .error .invalidState

def validate (table : SocketTable) (identity : SocketIdentity) (expectedKind : SocketKind) :
    Except SocketError SocketEntry :=
  match table.lookup identity with
  | none => .error .invalidSocket
  | some entry =>
      if entry.kind ≠ expectedKind then .error .wrongKind
      else if entry.lifecycle ≠ .open then .error .invalidState
      else .ok entry

def takeWaiter (table : SocketTable) (identity : SocketIdentity) (expectedKind : SocketKind)
    (direction : Direction) : Except SocketError (Option Waiter × SocketTable) :=
  match table.validate identity expectedKind with
  | .error e => .error e
  | .ok entry =>
      match entry.waiter direction with
      | none => .ok (none, table)
      | some waiter =>
          let table := table.putEntry identity (entry.setWaiter direction none)
          .ok (some waiter,
            { table.clearFlag ⟨identity, direction⟩ with waiterCount := table.waiterCount - 1 })

def installWaiter (table : SocketTable) (registration : WaiterRegistration) :
    Except SocketError (InstallResult × SocketTable) :=
  if registration.operation.direction ≠ registration.direction then .error .invalidOperation
  else
    match table.validate registration.identity registration.expectedKind with
    | .error e => .error e
    | .ok entry =>
        match entry.waiter registration.direction with
        | some waiter =>
            if waiter.pid = registration.pid ∧
                waiter.matches registration.operation registration.reference then
              .ok (.alreadyArmed, table)
            else .error .busy
        | none =>
            if table.maxWaiters ≤ table.waiterCount then .error .systemLimit
            else
              let entry := (entry.setSent registration.direction none).setWaiter
                registration.direction (some registration.waiter)
              .ok (.armed,
                { table.putEntry registration.identity entry with
                  waiterCount := table.waiterCount + 1 })

def cancel (table : SocketTable) (identity : SocketIdentity) (operation : Operation)
    (reference : Nat) : Except SocketError (CancelResult × SocketTable) :=
  match table.validateAny identity with
  | .error e => .error e
  | .ok entry =>
      let direction := operation.direction
      if (entry.waiter direction).any (·.matches operation reference) then
        let table := table.putEntry identity (entry.setWaiter direction none)
        .ok (.cancelled,
          { table.clearFlag ⟨identity, direction⟩ with waiterCount := table.waiterCount - 1 })
      else if (entry.sent direction).any (·.matches operation reference) then .ok (.alreadySent, table)
      else .ok (.notFound, table)

def takeReadyWaiter (table : SocketTable) (key : ReadyKey) : ReadyResult × SocketTable :=
  match table.lookup key.identity with
  | none => (.stale, table)
  | some entry =>
      if entry.lifecycle ≠ .open then (.stale, table)
      else if table.flag key = false then (.coalesced, table)
      else
        let table := table.clearFlag key
        match entry.waiter key.direction with
        | none => (.noWaiter, table)
        | some waiter =>
            -- The waiter passes through the sent slot, which is empty again afterwards.
            let entry := (entry.setWaiter key.direction none).setSent key.direction none
            (.notify waiter,
              { table.putEntry key.identity entry with waiterCount := table.waiterCount - 1 })

def rememberSent (table : SocketTable) (identity : SocketIdentity) (direction : Direction)
    (waiter : Waiter) : SocketTable :=
  match table.lookup identity with
  | none => table
  | some entry => table.putEntry identity (entry.setSent direction (some waiter))

def close (table : SocketTable) (identity : SocketIdentity) :
    Except SocketError (List (Direction × Waiter) × SocketTable) :=
  match table.lookup identity with
  | none => .error .invalidSocket
  | some entry =>
      .ok (entry.waiters,
        { table with
          entries := table.entries.erase identity.id
          waiterCount := table.waiterCount - entry.waiters.length })

/-- The entry with the least id. -/
def first (table : SocketTable) : Option (SocketIdentity × SocketEntry) :=
  table.entries.toList.head?.map fun p => (⟨p.1, p.2.1⟩, p.2.2)

end SocketTable

end SmolNet
