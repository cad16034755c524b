import SmolNet.SocketTable

/-!
# The resumable scan for ready flags

`scan_ready` walks the entries in id order from a cursor and collects the keys whose flags are set,
within an entry limit, a key limit and the call's budget.  The main result is that it misses no
key: what lies after the cursor and is flagged is collected, or lies after the new cursor.
-/

namespace SmolNet

open Std

structure ReadyScan where
  keys : List ReadyKey
  cursor : Option ReadyKey
  complete : Bool
  entriesScanned : Nat
deriving DecidableEq, Repr

namespace SocketTable

/-- Whether the scan goes on to the next entry. -/
inductive ScanStep where
  | next (scan : ReadyScan)
  | stop (scan : ReadyScan)

variable (table : SocketTable) (cursor : Option ReadyKey) (entryLimit keyLimit : Nat)

/-- The write direction of an entry, and the limits after it; `last` is whether no entry follows. -/
def finishEntry (identity : SocketIdentity) (last : Bool) (scan : ReadyScan) : ScanStep :=
  let writeKey : ReadyKey := ⟨identity, .write⟩
  let keys := if table.flag writeKey then scan.keys ++ [writeKey] else scan.keys
  let scan := { scan with keys := keys, cursor := some writeKey }
  if scan.keys.length = keyLimit ∨ scan.entriesScanned = entryLimit then
    .stop { scan with complete := last }
  else .next scan

/-- One entry of the scan. -/
def scanEntry (identity : SocketIdentity) (last : Bool) (scan : ReadyScan) (budget : CallBudget) :
    ScanStep × CallBudget :=
  if cursor.any fun key => key.identity.id == identity.id && key.direction == .write then
    (.next scan, budget)
  else
    match budget.checkpoint with
    | (false, budget) => (.stop { scan with complete := false }, budget)
    | (true, budget) =>
        let scan := { scan with entriesScanned := scan.entriesScanned + 1 }
        let skipRead := cursor.any fun key =>
          key.identity.id == identity.id && key.direction == .read
        let readKey : ReadyKey := ⟨identity, .read⟩
        if !skipRead && table.flag readKey then
          let scan := { scan with keys := scan.keys ++ [readKey], cursor := some readKey }
          if scan.keys.length = keyLimit then (.stop { scan with complete := false }, budget)
          else
            match budget.checkpoint with
            | (false, budget) => (.stop { scan with complete := false }, budget)
            | (true, budget) => (table.finishEntry entryLimit keyLimit identity last scan, budget)
        else (table.finishEntry entryLimit keyLimit identity last scan, budget)

def scanLoop : List (Nat × Nat × SocketEntry) → ReadyScan → CallBudget → ReadyScan × CallBudget
  | [], scan, budget => (scan, budget)
  | (id, generation, _) :: rest, scan, budget =>
      match table.scanEntry cursor entryLimit keyLimit ⟨id, generation⟩ rest.isEmpty scan budget with
      | (.next scan, budget) => scanLoop rest scan budget
      | (.stop scan, budget) => (scan, budget)

def scanReady (budget : CallBudget) : ReadyScan × CallBudget :=
  if entryLimit = 0 ∨ keyLimit = 0 then (⟨[], cursor, false, 0⟩, budget)
  else
    let start := cursor.elim 0 (·.identity.id)
    table.scanLoop cursor entryLimit keyLimit (table.entries.toList.filter fun p => start ≤ p.1)
      ⟨[], cursor, true, 0⟩ budget

/-! ## What a scan covers -/

/-- `key` comes after `cursor` in the scan's order; every key comes after no cursor. -/
def AfterCursor (cursor : Option ReadyKey) (key : ReadyKey) : Prop :=
  ∀ c ∈ cursor, c.Before key

@[simp] theorem afterCursor_none (key : ReadyKey) : AfterCursor none key := by
  simp [AfterCursor]

@[simp] theorem afterCursor_some (c key : ReadyKey) : AfterCursor (some c) key ↔ c.Before key := by
  simp [AfterCursor]

/-- A key is accounted for: collected, or still ahead of the cursor of an unfinished scan. -/
def Covers (scan : ReadyScan) (key : ReadyKey) : Prop :=
  key ∈ scan.keys ∨ (scan.complete = false ∧ AfterCursor scan.cursor key)

/-- The cursor stands on one direction of a socket. -/
def CursorAt (cursor : Option ReadyKey) (identity : SocketIdentity) (direction : Direction) : Prop :=
  ∃ c, cursor = some c ∧ c.identity.id = identity.id ∧ c.direction = direction

variable {table cursor entryLimit keyLimit} {identity : SocketIdentity} {last : Bool}
  {scan : ReadyScan} {budget : CallBudget} {key : ReadyKey}

theorem any_eq_true_iff_cursorAt {direction : Direction} :
    (cursor.any fun key => key.identity.id == identity.id && key.direction == direction) = true ↔
      CursorAt cursor identity direction := by
  cases cursor <;> simp [CursorAt]

variable (table entryLimit keyLimit identity last scan) in
theorem finishEntry_cases :
    ∃ scan', scan'.cursor = some ⟨identity, .write⟩ ∧ (∀ k ∈ scan.keys, k ∈ scan'.keys) ∧
      (table.flag ⟨identity, .write⟩ = true → ⟨identity, .write⟩ ∈ scan'.keys) ∧
      (table.finishEntry entryLimit keyLimit identity last scan = .next scan' ∨
        (table.finishEntry entryLimit keyLimit identity last scan = .stop scan' ∧
          scan'.complete = last)) := by
  unfold finishEntry
  dsimp only
  by_cases hflag : table.flag ⟨identity, .write⟩ = true
  · simp only [hflag, if_true]
    split
    · exact ⟨_, rfl, by simp +contextual, by simp, .inr ⟨rfl, rfl⟩⟩
    · exact ⟨_, rfl, by simp +contextual, by simp, .inl rfl⟩
  · simp only [if_neg hflag]
    split
    · exact ⟨{ scan with cursor := some ⟨identity, .write⟩, complete := last }, rfl,
        fun _ hk => hk, fun h => absurd h hflag, .inr ⟨rfl, rfl⟩⟩
    · exact ⟨{ scan with cursor := some ⟨identity, .write⟩ }, rfl,
        fun _ hk => hk, fun h => absurd h hflag, .inl rfl⟩

variable (table cursor entryLimit keyLimit identity last scan budget) in
/-- What scanning one entry can do. -/
theorem scanEntry_cases :
    let step := (table.scanEntry cursor entryLimit keyLimit identity last scan budget).1
    (CursorAt cursor identity .write ∧ step = .next scan) ∨
    (∃ scan', step = .stop scan' ∧ scan'.complete = false ∧ scan'.keys = scan.keys ∧
      scan'.cursor = scan.cursor) ∨
    (∃ scan', step = .stop scan' ∧ scan'.complete = false ∧
      scan'.keys = scan.keys ++ [⟨identity, .read⟩] ∧ scan'.cursor = some ⟨identity, .read⟩) ∨
    (∃ scan', scan'.cursor = some ⟨identity, .write⟩ ∧ (∀ k ∈ scan.keys, k ∈ scan'.keys) ∧
      (table.flag ⟨identity, .write⟩ = true → ⟨identity, .write⟩ ∈ scan'.keys) ∧
      (table.flag ⟨identity, .read⟩ = true →
        CursorAt cursor identity .read ∨ ⟨identity, .read⟩ ∈ scan'.keys) ∧
      (step = .next scan' ∨ (step = .stop scan' ∧ scan'.complete = last))) := by
  intro step
  have hstep : step = (table.scanEntry cursor entryLimit keyLimit identity last scan budget).1 := rfl
  unfold scanEntry at hstep
  split at hstep
  · rename_i hat
    exact .inl ⟨any_eq_true_iff_cursorAt.1 hat, hstep⟩
  · split at hstep
    · exact .inr (.inl ⟨_, hstep, rfl, rfl, rfl⟩)
    · dsimp only at hstep
      split at hstep
      · split at hstep
        · exact .inr (.inr (.inl ⟨_, hstep, rfl, rfl, rfl⟩))
        · split at hstep
          · exact .inr (.inr (.inl ⟨_, hstep, rfl, rfl, rfl⟩))
          · obtain ⟨scan', hcursor, hkeys, hwrite, hres⟩ :=
              finishEntry_cases table entryLimit keyLimit identity last
                { scan with
                  entriesScanned := scan.entriesScanned + 1
                  keys := scan.keys ++ [⟨identity, .read⟩]
                  cursor := some ⟨identity, .read⟩ }
            dsimp only at hstep
            rw [← hstep] at hres
            refine .inr (.inr (.inr ⟨scan', hcursor, fun k hk => hkeys k (by simp [hk]), hwrite, ?_, hres⟩))
            exact fun _ => .inr (hkeys _ (by simp))
      · rename_i hskip
        obtain ⟨scan', hcursor, hkeys, hwrite, hres⟩ :=
          finishEntry_cases table entryLimit keyLimit identity last
            { scan with entriesScanned := scan.entriesScanned + 1 }
        dsimp only at hstep
        rw [← hstep] at hres
        refine .inr (.inr (.inr ⟨scan', hcursor, hkeys, hwrite, fun hflag => .inl ?_, hres⟩))
        rw [← any_eq_true_iff_cursorAt]
        simpa [hflag] using hskip

theorem not_before_write {c k : ReadyKey} (hid : c.identity.id = k.identity.id)
    (hdir : c.direction = .write) : ¬ c.Before k := by
  simp [ReadyKey.Before, hid, hdir]

/-- `next` of the scan that goes on, or `stop` of the scan that ends here. -/
def ScanStep.Holds (next stop : ReadyScan → Prop) : ScanStep → Prop
  | .next scan => next scan
  | .stop scan => stop scan

variable (table cursor entryLimit keyLimit identity last budget)

theorem scanEntry_keys (hkey : key ∈ scan.keys) :
    (table.scanEntry cursor entryLimit keyLimit identity last scan budget).1.Holds
      (key ∈ ·.keys) (key ∈ ·.keys) := by
  rcases scanEntry_cases table cursor entryLimit keyLimit identity last scan budget with
    ⟨-, hs⟩ | ⟨scan', hs, -, hkeys, -⟩ | ⟨scan', hs, -, hkeys, -⟩ |
    ⟨scan', -, hold, -, -, hs | ⟨hs, -⟩⟩
  · rw [hs]
    exact hkey
  · rw [hs]
    simp [ScanStep.Holds, hkeys, hkey]
  · rw [hs]
    simp [ScanStep.Holds, hkeys, hkey]
  · rw [hs]
    exact hold key hkey
  · rw [hs]
    exact hold key hkey

/-- An entry's own flagged keys are collected, or lie after the cursor at which the scan stops. -/
theorem scanEntry_own {direction : Direction} (hflag : table.flag ⟨identity, direction⟩ = true)
    (hafter : AfterCursor cursor ⟨identity, direction⟩)
    (hahead : AfterCursor scan.cursor ⟨identity, direction⟩) :
    (table.scanEntry cursor entryLimit keyLimit identity last scan budget).1.Holds
      (⟨identity, direction⟩ ∈ ·.keys) (Covers · ⟨identity, direction⟩) := by
  rcases scanEntry_cases table cursor entryLimit keyLimit identity last scan budget with
    ⟨⟨c, hc, hid, hdir⟩, -⟩ | ⟨scan', hs, hcomp, -, hcur⟩ | ⟨scan', hs, hcomp, hkeys, hcur⟩ |
    ⟨scan', -, -, hwrite, hread, hs⟩
  · subst hc
    exact absurd ((afterCursor_some _ _).1 hafter) (not_before_write hid hdir)
  · rw [hs]
    exact .inr ⟨hcomp, hcur ▸ hahead⟩
  · rw [hs]
    cases direction with
    | read => exact .inl (by simp [hkeys])
    | write => exact .inr ⟨hcomp, by simp [hcur, ReadyKey.Before]⟩
  · have hmem : ⟨identity, direction⟩ ∈ scan'.keys := by
      cases direction with
      | write => exact hwrite hflag
      | read =>
          rcases hread hflag with ⟨c, hc, hid, -⟩ | h
          · subst hc
            have := (afterCursor_some _ _).1 hafter
            simp [ReadyKey.Before, hid] at this
          · exact h
    rcases hs with hs | ⟨hs, -⟩
    · rw [hs]
      exact hmem
    · rw [hs]
      exact .inl hmem

/-- A later key stays ahead of the cursor, unless the scan stops with nothing after this entry. -/
theorem scanEntry_later (hid : identity.id < key.identity.id) (hahead : AfterCursor scan.cursor key) :
    (table.scanEntry cursor entryLimit keyLimit identity last scan budget).1.Holds
      (AfterCursor ·.cursor key) (fun scan' => last = true ∨ Covers scan' key) := by
  have hbefore : ∀ direction, AfterCursor (some ⟨identity, direction⟩) key := fun direction =>
    (afterCursor_some _ _).2 (.inl hid)
  rcases scanEntry_cases table cursor entryLimit keyLimit identity last scan budget with
    ⟨-, hs⟩ | ⟨scan', hs, hcomp, -, hcur⟩ | ⟨scan', hs, hcomp, -, hcur⟩ |
    ⟨scan', hcur, -, -, -, hs | ⟨hs, hlast⟩⟩
  · rw [hs]
    exact hahead
  · rw [hs]
    exact .inr (.inr ⟨hcomp, hcur ▸ hahead⟩)
  · rw [hs]
    exact .inr (.inr ⟨hcomp, hcur ▸ hbefore .read⟩)
  · rw [hs, ScanStep.Holds, hcur]
    exact hbefore .write
  · rw [hs]
    cases last with
    | true => exact .inl rfl
    | false => exact .inr (.inr ⟨hlast, hcur ▸ hbefore .write⟩)

theorem mem_scanLoop (l : List (Nat × Nat × SocketEntry)) (hkey : key ∈ scan.keys) :
    key ∈ (table.scanLoop cursor entryLimit keyLimit l scan budget).1.keys := by
  induction l generalizing scan budget with
  | nil => exact hkey
  | cons p rest ih =>
      obtain ⟨id, generation, entry⟩ := p
      have hstep := scanEntry_keys table cursor entryLimit keyLimit ⟨id, generation⟩ rest.isEmpty
        budget hkey
      unfold scanLoop
      split <;> rename_i hs <;> rw [hs] at hstep
      · exact ih _ hstep
      · exact hstep

theorem scanLoop_covers {l : List (Nat × Nat × SocketEntry)}
    (hsorted : l.Pairwise fun p q => p.1 < q.1) {entry : SocketEntry}
    (hmem : (key.identity.id, key.identity.generation, entry) ∈ l) (hflag : table.flag key = true)
    (hafter : AfterCursor cursor key) (hahead : AfterCursor scan.cursor key) :
    Covers (table.scanLoop cursor entryLimit keyLimit l scan budget).1 key := by
  induction l generalizing scan budget with
  | nil => simp at hmem
  | cons p rest ih =>
      obtain ⟨id, generation, first⟩ := p
      obtain ⟨hbelow, hrest⟩ := List.pairwise_cons.1 hsorted
      unfold scanLoop
      rcases List.mem_cons.1 hmem with hfirst | hlater
      · -- The key belongs to this entry.
        obtain ⟨identity, direction⟩ := key
        obtain rfl : identity = ⟨id, generation⟩ := by
          obtain ⟨_, _⟩ := identity
          simp_all
        have hstep := scanEntry_own table cursor entryLimit keyLimit ⟨id, generation⟩ rest.isEmpty
          budget hflag hafter hahead
        split <;> rename_i hs <;> rw [hs] at hstep
        · exact .inl (mem_scanLoop table cursor entryLimit keyLimit _ rest hstep)
        · exact hstep
      · have hstep := scanEntry_later table cursor entryLimit keyLimit ⟨id, generation⟩ rest.isEmpty
          budget (hbelow _ hlater) hahead
        split <;> rename_i hs <;> rw [hs] at hstep
        · exact ih _ hrest hlater hstep
        · rcases hstep with hlast | hcovers
          · rw [List.isEmpty_iff.1 hlast] at hlater
            simp at hlater
          · exact hcovers

theorem sorted_toList (m : ExtTreeMap Nat (Nat × SocketEntry)) :
    m.toList.Pairwise fun p q => p.1 < q.1 := by
  refine m.ordered_keys_toList.imp fun h => ?_
  exact Nat.compare_eq_lt.1 h

/-- No flagged key after the cursor is missed: it is collected, or the scan is unfinished and its
new cursor is still before the key. -/
theorem scanReady_covers {entry : SocketEntry}
    (hentry : table.entries[key.identity.id]? = some (key.identity.generation, entry))
    (hflag : table.flag key = true) (hafter : AfterCursor cursor key) :
    Covers (table.scanReady cursor entryLimit keyLimit budget).1 key := by
  unfold scanReady
  split
  · exact .inr ⟨rfl, hafter⟩
  · have hsorted := (sorted_toList table.entries).filter
      fun p => decide (cursor.elim 0 (·.identity.id) ≤ p.1)
    have hstart : cursor.elim 0 (·.identity.id) ≤ key.identity.id := by
      cases cursor with
      | none => exact Nat.zero_le _
      | some c =>
          rcases (afterCursor_some _ _).1 hafter with h | ⟨h, -⟩
          · exact Nat.le_of_lt h
          · exact Nat.le_of_eq h
    have hmem : (key.identity.id, key.identity.generation, entry) ∈
        table.entries.toList.filter fun p => decide (cursor.elim 0 (·.identity.id) ≤ p.1) := by
      simp [hentry, hstart]
    exact scanLoop_covers table cursor entryLimit keyLimit budget hsorted hmem hflag hafter hafter

end SocketTable

end SmolNet
