import SmolNet.SocketTable
import SmolNet.TreeMap

/-!
# What the socket table's functions do

One lemma for each function of the table that says what it does when it succeeds, and the part of
the table that waiters and wakers leave alone: who is in it.
-/

namespace SmolNet

open Std

namespace SocketTable

variable {table table' : SocketTable} {identity : SocketIdentity}

/-- Who is in the table: each entry's generation, kind and lifecycle. -/
def roster (table : SocketTable) (id : Nat) : Option (Nat × SocketKind × SocketLifecycle) :=
  table.entries[id]?.map fun p => (p.1, p.2.kind, p.2.lifecycle)

theorem roster_eq_none {id : Nat} : table.roster id = none ↔ table.entries[id]? = none := by
  simp [roster]

theorem lookup_eq_some {entry : SocketEntry} :
    table.lookup identity = some entry ↔
      table.entries[identity.id]? = some (identity.generation, entry) := by
  unfold lookup
  split
  · rename_i generation other h
    rw [h]
    constructor
    · intro hsome
      split at hsome <;> simp_all
    · intro hsome
      simp_all
  · simp_all

theorem roster_of_lookup {entry : SocketEntry} (h : table.lookup identity = some entry) :
    table.roster identity.id = some (identity.generation, entry.kind, entry.lifecycle) := by
  simp [roster, lookup_eq_some.1 h]

theorem len_eq_of_roster (h : table'.roster = table.roster) : table'.len = table.len := by
  unfold len
  rw [← TreeMap.card_keySet, ← TreeMap.card_keySet]
  refine congrArg Multiset.card (TreeMap.keySet_congr fun id => ?_)
  have hid := congrFun h id
  have hnone : table'.entries[id]? = none ↔ table.entries[id]? = none := by
    rw [← roster_eq_none, ← roster_eq_none, hid]
  simpa [not_iff_not] using hnone

/-- Writing an entry back with its kind and lifecycle keeps the roster. -/
theorem roster_putEntry {entry changed : SocketEntry} (h : table.lookup identity = some entry)
    (hkind : changed.kind = entry.kind) (hlifecycle : changed.lifecycle = entry.lifecycle) :
    (table.putEntry identity changed).roster = table.roster := by
  funext id
  unfold roster putEntry
  rw [ExtTreeMap.getElem?_insert]
  by_cases hid : identity.id = id
  · subst hid
    simp [lookup_eq_some.1 h, hkind, hlifecycle]
  · simp [hid]

theorem roster_insertEntry (table : SocketTable) (identity : SocketIdentity) (kind : SocketKind) :
    (table.insertEntry identity kind).roster =
      Function.update table.roster identity.id (some (identity.generation, kind, .open)) := by
  funext id
  rw [Function.update_apply]
  unfold roster insertEntry putEntry clearFlag
  rw [ExtTreeMap.getElem?_insert]
  by_cases hid : id = identity.id
  · simp [hid, SocketEntry.new]
  · simp [hid, Ne.symm hid]

theorem roster_erase {id : Nat} (h : table'.entries = table.entries.erase id) :
    table'.roster = Function.update table.roster id none := by
  funext other
  rw [Function.update_apply]
  unfold roster
  rw [h, ExtTreeMap.getElem?_erase]
  by_cases hid : other = id
  · simp [hid]
  · simp [hid, Ne.symm hid]

/-- What waiters and wakers leave alone in the table. -/
structure Agrees (table table' : SocketTable) : Prop where
  roster : table'.roster = table.roster
  maxEntries : table'.maxEntries = table.maxEntries
  maxWaiters : table'.maxWaiters = table.maxWaiters

namespace Agrees

theorem refl (table : SocketTable) : Agrees table table := ⟨rfl, rfl, rfl⟩

theorem trans {first second third : SocketTable} (h : Agrees first second)
    (h' : Agrees second third) : Agrees first third :=
  ⟨h'.roster.trans h.roster, h'.maxEntries.trans h.maxEntries, h'.maxWaiters.trans h.maxWaiters⟩

theorem of_putEntry {entry changed : SocketEntry} (h : table.lookup identity = some entry)
    (hkind : changed.kind = entry.kind) (hlifecycle : changed.lifecycle = entry.lifecycle)
    (hentries : table'.entries = (table.putEntry identity changed).entries)
    (hmax : table'.maxEntries = table.maxEntries) (hwaiters : table'.maxWaiters = table.maxWaiters) :
    Agrees table table' := by
  refine ⟨?_, hmax, hwaiters⟩
  rw [← roster_putEntry h hkind hlifecycle]
  funext id
  simp [SocketTable.roster, hentries]

end Agrees

theorem validate_eq_ok {kind : SocketKind} {entry : SocketEntry} :
    table.validate identity kind = .ok entry ↔
      table.lookup identity = some entry ∧ entry.kind = kind ∧ entry.lifecycle = .open := by
  unfold validate
  split <;> rename_i hlookup <;> rw [hlookup]
  · simp
  · rename_i other
    by_cases hkind : other.kind = kind <;> by_cases hopen : other.lifecycle = .open <;>
      simp [hkind, hopen] <;> rintro rfl <;> simp_all

/-- Whether an identity is valid can be read off the roster. -/
theorem validate_iff_roster {kind : SocketKind} :
    (∃ entry, table.validate identity kind = .ok entry) ↔
      table.roster identity.id = some (identity.generation, kind, .open) := by
  constructor
  · rintro ⟨entry, hvalid⟩
    obtain ⟨hlookup, hkind, hopen⟩ := validate_eq_ok.1 hvalid
    rw [roster_of_lookup hlookup, hkind, hopen]
  · intro hroster
    obtain ⟨⟨generation, entry⟩, hentry, heq⟩ := Option.map_eq_some_iff.1 hroster
    simp only [Prod.mk.injEq] at heq
    obtain ⟨rfl, hkind, hopen⟩ := heq
    exact ⟨entry, validate_eq_ok.2 ⟨lookup_eq_some.2 hentry, hkind, hopen⟩⟩

theorem validateAny_eq_ok {entry : SocketEntry} :
    table.validateAny identity = .ok entry ↔
      table.lookup identity = some entry ∧ entry.lifecycle = .open := by
  unfold validateAny
  split <;> rename_i hlookup <;> rw [hlookup]
  · simp
  · rename_i other
    by_cases hopen : other.lifecycle = .open <;> simp [hopen] <;> rintro rfl <;> simp_all

/-- What `take_waiter` does when there is a waiter. -/
theorem takeWaiter_some {kind : SocketKind} {direction : Direction} {waiter : Waiter}
    (h : table.takeWaiter identity kind direction = .ok (some waiter, table')) :
    ∃ entry, table.lookup identity = some entry ∧ entry.kind = kind ∧
      entry.waiter direction = some waiter ∧
      table' = { (table.putEntry identity (entry.setWaiter direction none)).clearFlag
          ⟨identity, direction⟩ with waiterCount := table.waiterCount - 1 } := by
  unfold takeWaiter at h
  split at h
  · simp at h
  · rename_i entry hvalid
    obtain ⟨hlookup, hkind, -⟩ := validate_eq_ok.1 hvalid
    split at h
    · simp at h
    · rename_i other hwaiter
      simp only [Except.ok.injEq, Prod.mk.injEq, Option.some.injEq] at h
      obtain ⟨rfl, rfl⟩ := h
      exact ⟨entry, hlookup, hkind, hwaiter, rfl⟩

theorem takeWaiter_ok {kind : SocketKind} {direction : Direction} {e : SocketError}
    (h : table.roster identity.id = some (identity.generation, kind, .open)) :
    table.takeWaiter identity kind direction ≠ .error e := by
  obtain ⟨entry, hvalid⟩ := validate_iff_roster.2 h
  unfold takeWaiter
  rw [hvalid]
  dsimp only
  split <;> simp

/-- What `install_waiter` does when it arms. -/
theorem installWaiter_armed {registration : WaiterRegistration}
    (h : table.installWaiter registration = .ok (.armed, table')) :
    ∃ entry, table.lookup registration.identity = some entry ∧
      entry.waiter registration.direction = none ∧ table.waiterCount < table.maxWaiters ∧
      table' = { table.putEntry registration.identity
          ((entry.setSent registration.direction none).setWaiter registration.direction
            (some registration.waiter)) with waiterCount := table.waiterCount + 1 } := by
  unfold installWaiter at h
  split at h
  · simp at h
  · split at h
    · simp at h
    · rename_i entry hvalid
      obtain ⟨hlookup, -, -⟩ := validate_eq_ok.1 hvalid
      split at h
      · split at h <;> simp at h
      · rename_i hwaiter
        split at h
        · simp at h
        · rename_i hroom
          simp only [Except.ok.injEq, Prod.mk.injEq, true_and] at h
          exact ⟨entry, hlookup, hwaiter, Nat.lt_of_not_le hroom, h.symm⟩

theorem installWaiter_alreadyArmed {registration : WaiterRegistration}
    (h : table.installWaiter registration = .ok (.alreadyArmed, table')) : table' = table := by
  unfold installWaiter at h
  split at h
  · simp at h
  · split at h
    · simp at h
    · split at h
      · split at h <;> simp at h
        exact h.symm
      · split at h <;> simp at h

/-- What `cancel` does when it cancels. -/
theorem cancel_cancelled {operation : Operation} {reference : Nat}
    (h : table.cancel identity operation reference = .ok (.cancelled, table')) :
    ∃ entry waiter, table.lookup identity = some entry ∧
      entry.waiter operation.direction = some waiter ∧
      waiter.matches operation reference = true ∧
      table' = { (table.putEntry identity (entry.setWaiter operation.direction none)).clearFlag
          ⟨identity, operation.direction⟩ with waiterCount := table.waiterCount - 1 } := by
  unfold cancel at h
  split at h
  · simp at h
  · rename_i entry hvalid
    obtain ⟨hlookup, -⟩ := validateAny_eq_ok.1 hvalid
    dsimp only at h
    split at h
    · rename_i hany
      obtain ⟨waiter, hwaiter, hmatches⟩ : ∃ waiter, entry.waiter operation.direction = some waiter ∧
          waiter.matches operation reference = true := by
        simpa [Option.any_eq_true] using hany
      simp only [Except.ok.injEq, Prod.mk.injEq, true_and] at h
      exact ⟨entry, waiter, hlookup, hwaiter, hmatches, h.symm⟩
    · split at h <;> simp at h

theorem cancel_unchanged {operation : Operation} {reference : Nat} {outcome : CancelResult}
    (h : table.cancel identity operation reference = .ok (outcome, table')) (hother : outcome ≠ .cancelled) :
    table' = table := by
  unfold cancel at h
  split at h
  · simp at h
  · dsimp only at h
    split at h
    · simp only [Except.ok.injEq, Prod.mk.injEq] at h
      exact absurd h.1.symm hother
    · split at h <;> simp only [Except.ok.injEq, Prod.mk.injEq] at h <;> exact h.2.symm

theorem close_ok {waiters : List (Direction × Waiter)} (h : table.close identity = .ok (waiters, table')) :
    ∃ entry, table.lookup identity = some entry ∧ waiters = entry.waiters ∧
      table' = { table with
        entries := table.entries.erase identity.id
        waiterCount := table.waiterCount - entry.waiters.length } := by
  unfold close at h
  split at h
  · simp at h
  · rename_i entry hlookup
    simp only [Except.ok.injEq, Prod.mk.injEq] at h
    exact ⟨entry, hlookup, h.1.symm, h.2.symm⟩

/-- What `take_ready_waiter` does: it sends for a waiter, finds a set flag without one, or leaves the
table alone. -/
theorem takeReadyWaiter_cases (table : SocketTable) (key : ReadyKey) :
    (∃ entry waiter, table.lookup key.identity = some entry ∧ entry.lifecycle = .open ∧
      table.flag key = true ∧ entry.waiter key.direction = some waiter ∧
      table.takeReadyWaiter key = (.notify waiter,
        { (table.clearFlag key).putEntry key.identity
            ((entry.setWaiter key.direction none).setSent key.direction none) with
          waiterCount := table.waiterCount - 1 })) ∨
    (∃ entry, table.lookup key.identity = some entry ∧ entry.waiter key.direction = none ∧
      table.takeReadyWaiter key = (.noWaiter, table.clearFlag key)) ∨
    (table.takeReadyWaiter key = (.coalesced, table) ∧ table.flag key = false) ∨
    (table.takeReadyWaiter key = (.stale, table) ∧
      ∀ entry, table.lookup key.identity = some entry → entry.lifecycle ≠ .open) := by
  unfold takeReadyWaiter
  cases hlookup : table.lookup key.identity with
  | none => simp
  | some entry =>
      by_cases hopen : entry.lifecycle = .open
      · by_cases hflag : table.flag key = true
        · cases hwaiter : entry.waiter key.direction with
          | none => simp [hopen, hflag, hwaiter]
          | some waiter =>
              refine .inl ⟨entry, waiter, rfl, hopen, hflag, hwaiter, ?_⟩
              simp [hopen, hflag, hwaiter, clearFlag]
        · simp [hopen, hflag]
      · simp [hopen]

theorem agrees_takeReadyWaiter (table : SocketTable) (key : ReadyKey) :
    Agrees table (table.takeReadyWaiter key).2 := by
  obtain ⟨entry, waiter, hlookup, -, -, -, h⟩ | ⟨entry, -, -, h⟩ | ⟨h, -⟩ | ⟨h, -⟩ :=
    table.takeReadyWaiter_cases key
  · rw [h]
    refine .of_putEntry hlookup ?_ ?_ rfl rfl rfl
    · simp
    · simp
  · rw [h]
    exact ⟨rfl, rfl, rfl⟩
  · rw [h]
    exact .refl table
  · rw [h]
    exact .refl table

theorem agrees_rememberSent (table : SocketTable) (identity : SocketIdentity) (direction : Direction)
    (waiter : Waiter) : Agrees table (table.rememberSent identity direction waiter) := by
  unfold rememberSent
  split
  · exact .refl table
  · rename_i entry hlookup
    exact .of_putEntry hlookup (by simp) (by simp) rfl rfl rfl

end SocketTable

end SmolNet
