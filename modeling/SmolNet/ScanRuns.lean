import SmolNet.ScanReady
import Mathlib.Data.List.Pairwise

/-!
# Sweeps of the ready scan

A sweep calls `scan_ready` again and again, each time from the cursor that the last call left, until a call
reports that it is complete.  Each call is accounted for exactly: what it returns, followed by what is ahead of
the cursor that it leaves, is what was ahead of the cursor it was given.
-/

namespace SmolNet.SocketTable

open Std

instance (cursor : Option ReadyKey) : DecidablePred (AfterCursor cursor) := fun key =>
  inferInstanceAs (Decidable (∀ c ∈ cursor, c.Before key))

/-! ## The order of the keys -/

/-- Both keys of an entry. -/
def entryKeys (identity : SocketIdentity) : List ReadyKey := [⟨identity, .read⟩, ⟨identity, .write⟩]

/-- The keys of the entries, in the order of the scan. -/
def positions (entries : List (Nat × Nat × SocketEntry)) : List ReadyKey :=
  entries.flatMap fun p => entryKeys ⟨p.1, p.2.1⟩

/-- The set ready keys of the entries. -/
def readyOf (table : SocketTable) (entries : List (Nat × Nat × SocketEntry)) : List ReadyKey :=
  (positions entries).filter table.flag

def readyKeys (table : SocketTable) : List ReadyKey := table.readyOf table.entries.toList

/-- The keys that come after the cursor. -/
def after (cursor : Option ReadyKey) (keys : List ReadyKey) : List ReadyKey :=
  keys.filter fun key => AfterCursor cursor key

theorem before_trans {a b c : ReadyKey} (hab : a.Before b) (hbc : b.Before c) : a.Before c := by
  rcases hab with hab | ⟨hab, ha, hb⟩ <;> rcases hbc with hbc | ⟨hbc, hb', hc⟩
  · exact .inl (hab.trans hbc)
  · exact .inl (hbc ▸ hab)
  · exact .inl (hab ▸ hbc)
  · rw [hb] at hb'
    cases hb'

theorem not_before_self (key : ReadyKey) : ¬ key.Before key := by
  rintro (hlt | ⟨-, hread, hwrite⟩)
  · exact lt_irrefl _ hlt
  · rw [hread] at hwrite
    cases hwrite

theorem mem_positions {entries : List (Nat × Nat × SocketEntry)} {key : ReadyKey} :
    key ∈ positions entries ↔ ∃ entry, (key.identity.id, key.identity.generation, entry) ∈ entries := by
  obtain ⟨⟨id, generation⟩, direction⟩ := key
  simp only [positions, entryKeys, List.mem_flatMap, List.mem_cons, List.not_mem_nil, or_false]
  constructor
  · rintro ⟨⟨id', generation', entry⟩, hmem, heq | heq⟩
    · simp only [ReadyKey.mk.injEq, SocketIdentity.mk.injEq] at heq
      obtain ⟨⟨rfl, rfl⟩, -⟩ := heq
      exact ⟨entry, hmem⟩
    · simp only [ReadyKey.mk.injEq, SocketIdentity.mk.injEq] at heq
      obtain ⟨⟨rfl, rfl⟩, -⟩ := heq
      exact ⟨entry, hmem⟩
  · rintro ⟨entry, hmem⟩
    refine ⟨_, hmem, ?_⟩
    cases direction with
    | read => exact .inl rfl
    | write => exact .inr rfl

theorem mem_readyKeys {table : SocketTable} {key : ReadyKey} :
    key ∈ table.readyKeys ↔
      (∃ entry, table.entries[key.identity.id]? = some (key.identity.generation, entry)) ∧ table.flag key = true := by
  rw [readyKeys, readyOf, List.mem_filter, mem_positions]
  simp

/-- The keys are in order. -/
theorem positions_sorted {entries : List (Nat × Nat × SocketEntry)}
    (hsorted : entries.Pairwise fun p q => p.1 < q.1) : (positions entries).Pairwise ReadyKey.Before := by
  rw [positions, List.pairwise_flatMap]
  constructor
  · intro p _
    simp [entryKeys, ReadyKey.Before]
  · refine hsorted.imp fun hlt x hx y hy => .inl ?_
    simp only [entryKeys, List.mem_cons, List.not_mem_nil, or_false] at hx hy
    rcases hx with rfl | rfl <;> rcases hy with rfl | rfl <;> exact hlt

theorem readyKeys_sorted (table : SocketTable) : table.readyKeys.Pairwise ReadyKey.Before :=
  (positions_sorted (sorted_toList table.entries)).filter _

theorem nodup_of_sorted {keys : List ReadyKey} (h : keys.Pairwise ReadyKey.Before) : keys.Nodup := by
  refine List.Pairwise.imp ?_ h
  rintro a b hbefore rfl
  exact not_before_self a hbefore

/-! ## One entry -/

section Entry

variable (table : SocketTable) (cursor : Option ReadyKey) (entryLimit keyLimit : Nat) (identity : SocketIdentity)

/-- The set keys of an entry that come after the cursor. -/
def own : List ReadyKey := after cursor ((entryKeys identity).filter table.flag)

/-- What the scan does with an entry: it is behind the cursor, or the budget is spent, or only its read key is
taken, or all of its keys are. -/
inductive Visits (last : Bool) (scan : ReadyScan) (budget : CallBudget) : ScanStep × CallBudget → Prop
  | skipped : CursorAt cursor identity .write → table.own cursor identity = [] →
      Visits last scan budget (.next scan, budget)
  | refused {spent : CallBudget} : budget.checkpoint.1 = false →
      Visits last scan budget (.stop { scan with complete := false }, spent)
  | half {rest : List ReadyKey} {spent : CallBudget} : AfterCursor cursor ⟨identity, .read⟩ →
      table.own cursor identity = ⟨identity, .read⟩ :: rest →
      Visits last scan budget (.stop
        ⟨scan.keys ++ [⟨identity, .read⟩], some ⟨identity, .read⟩, false, scan.entriesScanned + 1⟩, spent)
  | whole {spent : CallBudget} : AfterCursor cursor ⟨identity, .write⟩ →
      (scan.keys ++ table.own cursor identity).length ≠ keyLimit → scan.entriesScanned + 1 ≠ entryLimit →
      ((table.own cursor identity).length = 2 → scan.keys.length + 1 ≠ keyLimit) →
      Visits last scan budget (.next
        ⟨scan.keys ++ table.own cursor identity, some ⟨identity, .write⟩, scan.complete, scan.entriesScanned + 1⟩,
        spent)
  | final {spent : CallBudget} : AfterCursor cursor ⟨identity, .write⟩ →
      ((table.own cursor identity).length = 2 → scan.keys.length + 1 ≠ keyLimit) →
      Visits last scan budget (.stop
        ⟨scan.keys ++ table.own cursor identity, some ⟨identity, .write⟩, last, scan.entriesScanned + 1⟩, spent)

variable {table cursor entryLimit keyLimit identity} {last : Bool} {scan : ReadyScan} {budget : CallBudget}

/-- The write key of an entry that the scan does not skip comes after the cursor. -/
theorem afterCursor_write (hstart : cursor.elim 0 (·.identity.id) ≤ identity.id)
    (hwrite : ¬ CursorAt cursor identity .write) : AfterCursor cursor ⟨identity, .write⟩ := by
  intro c hc
  have hle : c.identity.id ≤ identity.id := by
    rw [hc] at hstart
    exact hstart
  rcases Nat.lt_or_eq_of_le hle with hlt | hid
  · exact .inl hlt
  · refine .inr ⟨hid, ?_, rfl⟩
    cases hdir : c.direction with
    | read => rfl
    | write => exact absurd ⟨c, hc, hid, hdir⟩ hwrite

/-- Its read key does so unless the cursor stands there. -/
theorem afterCursor_read (hstart : cursor.elim 0 (·.identity.id) ≤ identity.id)
    (hwrite : ¬ CursorAt cursor identity .write) :
    AfterCursor cursor ⟨identity, .read⟩ ↔ ¬ CursorAt cursor identity .read := by
  constructor
  · rintro hafter ⟨c, hc, hid, hread⟩
    rcases hafter c hc with hlt | ⟨-, -, hdir⟩
    · exact absurd hid (Nat.ne_of_lt hlt)
    · cases hdir
  · intro hno c hc
    rcases afterCursor_write hstart hwrite c hc with hlt | ⟨hid, hread, -⟩
    · exact .inl hlt
    · exact absurd ⟨c, hc, hid, hread⟩ hno

variable (table) in
/-- The keys of an entry that the scan does not skip. -/
theorem own_eq (hstart : cursor.elim 0 (·.identity.id) ≤ identity.id) (hwrite : ¬ CursorAt cursor identity .write) :
    table.own cursor identity =
      (if (!cursor.any fun key => key.identity.id == identity.id && key.direction == .read) &&
        table.flag ⟨identity, .read⟩ then [⟨identity, .read⟩] else []) ++
      if table.flag ⟨identity, .write⟩ then [⟨identity, .write⟩] else [] := by
  have hafterRead := afterCursor_read hstart hwrite
  rw [← any_eq_true_iff_cursorAt] at hafterRead
  have hafterWrite := afterCursor_write hstart hwrite
  unfold own after entryKeys
  rw [List.filter_filter]
  by_cases hread : table.flag ⟨identity, .read⟩ = true <;> by_cases hw : table.flag ⟨identity, .write⟩ = true <;>
    by_cases hany : (cursor.any fun key => key.identity.id == identity.id && key.direction == .read) = true
  all_goals simp [hread, hw, hany, hafterRead, hafterWrite]

theorem visits_finishEntry {scan' : ReadyScan} (spent : CallBudget) (hafter : AfterCursor cursor ⟨identity, .write⟩)
    (hkeys : scan'.keys ++ (if table.flag ⟨identity, .write⟩ then [⟨identity, .write⟩] else []) =
      scan.keys ++ table.own cursor identity)
    (hcomplete : scan'.complete = scan.complete) (hscanned : scan'.entriesScanned = scan.entriesScanned + 1)
    (hroom : (table.own cursor identity).length = 2 → scan.keys.length + 1 ≠ keyLimit) :
    Visits table cursor entryLimit keyLimit identity last scan budget
      (table.finishEntry entryLimit keyLimit identity last scan', spent) := by
  have hkeys' : (if table.flag ⟨identity, .write⟩ then scan'.keys ++ [⟨identity, .write⟩] else scan'.keys) =
      scan.keys ++ table.own cursor identity := by
    rw [← hkeys]
    split
    · rfl
    · rw [List.append_nil]
  unfold finishEntry
  dsimp only
  rw [hkeys', hscanned, hcomplete]
  split
  · exact .final hafter hroom
  · rename_i hgo
    push Not at hgo
    exact .whole hafter hgo.1 hgo.2 hroom

variable (table entryLimit keyLimit last scan budget) in
theorem scanEntry_visits (hstart : cursor.elim 0 (·.identity.id) ≤ identity.id) :
    Visits table cursor entryLimit keyLimit identity last scan budget
      (table.scanEntry cursor entryLimit keyLimit identity last scan budget) := by
  unfold scanEntry
  split
  · rename_i hat
    have hwrite := any_eq_true_iff_cursorAt.1 hat
    refine .skipped hwrite ?_
    obtain ⟨c, rfl, hid, hdir⟩ := hwrite
    unfold own after
    rw [List.filter_eq_nil_iff]
    intro key hkey
    rw [decide_eq_true_eq, afterCursor_some]
    refine not_before_write ?_ hdir
    have hmem := (List.mem_filter.1 hkey).1
    simp only [entryKeys, List.mem_cons, List.not_mem_nil, or_false] at hmem
    rcases hmem with rfl | rfl <;> exact hid
  · rename_i hat
    rw [any_eq_true_iff_cursorAt] at hat
    have hown := own_eq table hstart hat
    have hafter := afterCursor_write hstart hat
    split
    · rename_i budget' hcheck
      exact .refused (congrArg Prod.fst hcheck)
    · dsimp only
      split
      · rename_i hread
        rw [if_pos hread] at hown
        have hafterRead : AfterCursor cursor ⟨identity, .read⟩ := by
          rw [afterCursor_read hstart hat, ← any_eq_true_iff_cursorAt, Bool.not_eq_true]
          simpa using (Bool.and_eq_true_iff.1 hread).1
        split
        · exact .half hafterRead hown
        · rename_i hroom
          rw [List.length_append, List.length_singleton] at hroom
          split
          · exact .half hafterRead hown
          · refine visits_finishEntry _ hafter ?_ rfl rfl fun _ => hroom
            rw [hown, ← List.append_assoc]
      · rename_i hread
        rw [if_neg hread, List.nil_append] at hown
        refine visits_finishEntry _ hafter (by rw [hown]) rfl rfl fun hlen => ?_
        rw [hown] at hlen
        split at hlen <;> simp at hlen

theorem length_own_le (table : SocketTable) (cursor : Option ReadyKey) (identity : SocketIdentity) :
    (table.own cursor identity).length ≤ 2 :=
  (List.length_filter_le _ _).trans (List.length_filter_le _ _)

end Entry

/-! ## One call -/

section Call

variable {table : SocketTable} {cursor : Option ReadyKey} {keys : List ReadyKey}

theorem after_eq_self (h : ∀ key ∈ keys, AfterCursor cursor key) : after cursor keys = keys :=
  List.filter_eq_self.2 fun key hkey => decide_eq_true (h key hkey)

theorem after_eq_nil (h : ∀ key ∈ keys, ¬ AfterCursor cursor key) : after cursor keys = [] :=
  List.filter_eq_nil_iff.2 fun key hkey => by simpa using h key hkey

theorem mem_entryKeys {key : ReadyKey} {identity : SocketIdentity} (h : key ∈ entryKeys identity) :
    key.identity = identity := by
  simp only [entryKeys, List.mem_cons, List.not_mem_nil, or_false] at h
  rcases h with rfl | rfl <;> rfl

/-- No key of an entry comes after its write key. -/
theorem not_afterCursor_write {key : ReadyKey} {identity : SocketIdentity} (h : key ∈ entryKeys identity) :
    ¬ AfterCursor (some ⟨identity, .write⟩) key := by
  rw [afterCursor_some]
  exact not_before_write (congrArg SocketIdentity.id (mem_entryKeys h)).symm rfl

/-- What a call has done with the entries that it goes through: what it returns and what is then ahead is what
was ahead, and the cursor has stayed or moved ahead.  If the call passes a check, it is complete or the cursor
has moved. -/
structure Accounts (table : SocketTable) (cursor : Option ReadyKey) (entryLimit keyLimit : Nat)
    (entries : List (Nat × Nat × SocketEntry)) (scan result : ReadyScan) (budget : CallBudget) : Prop where
  keys : result.keys ++ (if result.complete then [] else after result.cursor (table.readyOf entries)) =
    scan.keys ++ after cursor (table.readyOf entries)
  ahead : result.cursor = scan.cursor ∨
    ∃ c ∈ positions entries, result.cursor = some c ∧ AfterCursor cursor c
  moves : budget.checkpoint.1 = true → result.complete = true ∨
    ∃ c ∈ positions entries, result.cursor = some c ∧ AfterCursor cursor c
  keyLimit : result.keys.length ≤ keyLimit
  entryLimit : result.entriesScanned ≤ entryLimit

variable (table) in
theorem readyOf_cons (p : Nat × Nat × SocketEntry) (rest : List (Nat × Nat × SocketEntry)) :
    table.readyOf (p :: rest) = (entryKeys ⟨p.1, p.2.1⟩).filter table.flag ++ table.readyOf rest := by
  rw [readyOf, positions, List.flatMap_cons, List.filter_append]
  rfl

variable (table cursor) in
theorem after_readyOf_cons (p : Nat × Nat × SocketEntry) (rest : List (Nat × Nat × SocketEntry)) :
    after cursor (table.readyOf (p :: rest)) =
      table.own cursor ⟨p.1, p.2.1⟩ ++ after cursor (table.readyOf rest) := by
  rw [readyOf_cons, after, List.filter_append]
  rfl

/-- The keys of later entries come after those of an earlier one. -/
theorem afterCursor_rest {p : Nat × Nat × SocketEntry} {rest : List (Nat × Nat × SocketEntry)}
    (hbelow : ∀ q ∈ rest, p.1 < q.1) (direction : Direction) {key : ReadyKey} (hkey : key ∈ positions rest) :
    AfterCursor (some ⟨⟨p.1, p.2.1⟩, direction⟩) key := by
  obtain ⟨entry, hmem⟩ := mem_positions.1 hkey
  exact (afterCursor_some _ _).2 (.inl (hbelow _ hmem))

theorem afterCursor_trans {c : ReadyKey} {key : ReadyKey} (hc : AfterCursor cursor c)
    (hkey : AfterCursor (some c) key) : AfterCursor cursor key :=
  fun c' hc' => before_trans (hc c' hc') ((afterCursor_some _ _).1 hkey)

/-- An entry has nothing ahead of its own write key, nor of a key of a later entry. -/
theorem own_write (table : SocketTable) (identity : SocketIdentity) :
    table.own (some ⟨identity, .write⟩) identity = [] :=
  after_eq_nil fun _ hkey => not_afterCursor_write (List.mem_filter.1 hkey).1

theorem own_later (table : SocketTable) {p : Nat × Nat × SocketEntry} {rest : List (Nat × Nat × SocketEntry)}
    (hbelow : ∀ q ∈ rest, p.1 < q.1) {c : ReadyKey} (hc : c ∈ positions rest) :
    table.own (some c) ⟨p.1, p.2.1⟩ = [] := by
  obtain ⟨entry, hmem⟩ := mem_positions.1 hc
  have hlt : p.1 < c.identity.id := hbelow _ hmem
  refine after_eq_nil fun key hkey => ?_
  rw [afterCursor_some]
  have hid := congrArg SocketIdentity.id (mem_entryKeys (List.mem_filter.1 hkey).1)
  rintro (hlt' | ⟨hid', -, -⟩) <;> dsimp only at hid <;> omega

theorem readyOf_subset {entries : List (Nat × Nat × SocketEntry)} {key : ReadyKey}
    (h : key ∈ table.readyOf entries) : key ∈ positions entries := (List.mem_filter.1 h).1

/-- Behind the read key of an entry comes the rest of its keys. -/
theorem own_read {identity : SocketIdentity} {rest : List ReadyKey} (hafter : AfterCursor cursor ⟨identity, .read⟩)
    (hown : table.own cursor identity = ⟨identity, .read⟩ :: rest) :
    table.own (some ⟨identity, .read⟩) identity = rest := by
  have hnext : AfterCursor (some ⟨identity, .read⟩) (⟨identity, .write⟩ : ReadyKey) :=
    (afterCursor_some _ _).2 (.inr ⟨rfl, rfl, rfl⟩)
  have hself : ¬ AfterCursor (some ⟨identity, .read⟩) (⟨identity, .read⟩ : ReadyKey) := by
    rw [afterCursor_some]
    exact not_before_self _
  have hwrite := afterCursor_trans hafter hnext
  unfold own after entryKeys at hown ⊢
  by_cases hr : table.flag ⟨identity, .read⟩ = true
  · by_cases hw : table.flag ⟨identity, .write⟩ = true
    · simp only [List.filter_cons, List.filter_nil, hr, hw, hafter, hwrite, hself, hnext, if_true, if_false,
        decide_true, decide_false, Bool.false_eq_true] at hown ⊢
      exact (List.cons.inj hown).2
    · simp only [List.filter_cons, List.filter_nil, hr, hw, hafter, hself, if_true, if_false, decide_true,
        decide_false, Bool.false_eq_true] at hown ⊢
      exact (List.cons.inj hown).2
  · by_cases hw : table.flag ⟨identity, .write⟩ = true
    · simp [hr, hw, hwrite] at hown
    · simp [hr, hw] at hown

/-- An entry that is dealt with, before the rest. -/
theorem Accounts.cons {entryLimit keyLimit : Nat} {p : Nat × Nat × SocketEntry}
    {rest : List (Nat × Nat × SocketEntry)} {scan scan' result : ReadyScan} {budget : CallBudget}
    (h : Accounts table cursor entryLimit keyLimit rest scan' result budget)
    (hkeys : scan'.keys = scan.keys ++ table.own cursor ⟨p.1, p.2.1⟩)
    (hnil : table.own result.cursor ⟨p.1, p.2.1⟩ = []) :
    result.keys ++ (if result.complete then [] else after result.cursor (table.readyOf (p :: rest))) =
      scan.keys ++ after cursor (table.readyOf (p :: rest)) := by
  rw [after_readyOf_cons, after_readyOf_cons, hnil, List.nil_append, ← List.append_assoc, ← hkeys]
  exact h.keys

theorem scanLoop_accounts {entryLimit keyLimit : Nat} {entries : List (Nat × Nat × SocketEntry)} {scan : ReadyScan}
    {budget : CallBudget} (hsorted : entries.Pairwise fun p q => p.1 < q.1)
    (hstart : ∀ p ∈ entries, cursor.elim 0 (·.identity.id) ≤ p.1)
    (hahead : ∀ key ∈ positions entries, AfterCursor cursor key ↔ AfterCursor scan.cursor key)
    (hcomplete : scan.complete = true) (hkeys : scan.keys.length < keyLimit)
    (hentries : scan.entriesScanned < entryLimit) :
    Accounts table cursor entryLimit keyLimit entries scan
      (table.scanLoop cursor entryLimit keyLimit entries scan budget).1 budget := by
  induction entries generalizing scan budget with
  | nil =>
      refine ⟨?_, .inl rfl, fun _ => .inl hcomplete, hkeys.le, hentries.le⟩
      simp [scanLoop, hcomplete, after, readyOf, positions]
  | cons p rest ih =>
      obtain ⟨id, generation, entry⟩ := p
      obtain ⟨hbelow, hrest⟩ := List.pairwise_cons.1 hsorted
      have hstart' : ∀ q ∈ rest, cursor.elim 0 (·.identity.id) ≤ q.1 := fun q hq =>
        hstart q (List.mem_cons_of_mem _ hq)
      have hpositions : positions ((id, generation, entry) :: rest) =
          entryKeys ⟨id, generation⟩ ++ positions rest := List.flatMap_cons
      have hlater : ∀ direction key, key ∈ positions rest → AfterCursor (some ⟨⟨id, generation⟩, direction⟩) key :=
        fun direction key hkey => afterCursor_rest hbelow direction hkey
      have hmoved : ∀ c ∈ positions rest, c ∈ positions ((id, generation, entry) :: rest) := fun c hc => by
        rw [hpositions]
        exact List.mem_append_right _ hc
      have hown := length_own_le table cursor ⟨id, generation⟩
      have hvisits := scanEntry_visits table entryLimit keyLimit rest.isEmpty scan budget
        (show cursor.elim 0 (·.identity.id) ≤ (⟨id, generation⟩ : SocketIdentity).id from
          hstart _ List.mem_cons_self)
      have hrefused : after scan.cursor (table.readyOf ((id, generation, entry) :: rest)) =
          after cursor (table.readyOf ((id, generation, entry) :: rest)) :=
        List.filter_congr fun key hkey => by simp [hahead key (readyOf_subset hkey)]
      unfold scanLoop
      generalize table.scanEntry cursor entryLimit keyLimit ⟨id, generation⟩ rest.isEmpty scan budget = res at hvisits
      obtain ⟨step, spent⟩ := res
      cases hvisits with
      | skipped hat hnil =>
          have hih : Accounts table cursor entryLimit keyLimit rest scan
              (table.scanLoop cursor entryLimit keyLimit rest scan budget).1 budget :=
            ih hrest hstart' (fun key hkey => hahead key (hmoved key hkey)) hcomplete hkeys hentries
          refine ⟨?_, ?_, ?_, hih.keyLimit, hih.entryLimit⟩
          · refine hih.cons (by rw [hnil, List.append_nil]) ?_
            rcases hih.ahead with hsame | ⟨c, hc, hcur, -⟩
            · have hsame' : table.own scan.cursor ⟨id, generation⟩ = table.own cursor ⟨id, generation⟩ := by
                refine List.filter_congr fun key hkey => ?_
                have hmem : key ∈ positions ((id, generation, entry) :: rest) := by
                  rw [hpositions]
                  exact List.mem_append_left _ (List.mem_filter.1 hkey).1
                simp [hahead key hmem]
              rw [hsame, hsame', hnil]
            · rw [hcur]
              exact own_later table hbelow hc
          · exact hih.ahead.imp_right fun ⟨c, hc, hcur⟩ => ⟨c, hmoved c hc, hcur⟩
          · exact fun hpass => (hih.moves hpass).imp_right fun ⟨c, hc, hcur⟩ => ⟨c, hmoved c hc, hcur⟩
      | refused hno =>
          refine ⟨congrArg _ hrefused, .inl rfl, fun hpass => ?_, hkeys.le, hentries.le⟩
          rw [hno] at hpass
          cases hpass
      | half hafter hread =>
          have hmoves : ∃ c ∈ positions ((id, generation, entry) :: rest),
              some (⟨⟨id, generation⟩, .read⟩ : ReadyKey) = some c ∧ AfterCursor cursor c := by
            refine ⟨_, ?_, rfl, hafter⟩
            rw [hpositions]
            exact List.mem_append_left _ List.mem_cons_self
          refine ⟨?_, .inr hmoves, fun _ => .inr hmoves, ?_, hentries⟩
          · have hall : after (some ⟨⟨id, generation⟩, .read⟩) (table.readyOf rest) = table.readyOf rest :=
              after_eq_self fun key hkey => hlater .read key (readyOf_subset hkey)
            have hall' : after cursor (table.readyOf rest) = table.readyOf rest :=
              after_eq_self fun key hkey => afterCursor_trans hafter (hlater .read key (readyOf_subset hkey))
            rw [after_readyOf_cons, after_readyOf_cons, hall, hall', hread, own_read hafter hread]
            simp
          · rw [List.length_append, List.length_singleton]
            exact hkeys
      | whole hafter hroom hentry hpair =>
          have hwrite : ∀ key ∈ positions rest, AfterCursor cursor key := fun key hkey =>
            afterCursor_trans hafter (hlater .write key hkey)
          rw [List.length_append] at hroom
          have hih : Accounts table cursor entryLimit keyLimit rest
              ⟨scan.keys ++ table.own cursor ⟨id, generation⟩, some ⟨⟨id, generation⟩, .write⟩, scan.complete,
                scan.entriesScanned + 1⟩
              (table.scanLoop cursor entryLimit keyLimit rest
                ⟨scan.keys ++ table.own cursor ⟨id, generation⟩, some ⟨⟨id, generation⟩, .write⟩, scan.complete,
                  scan.entriesScanned + 1⟩ spent).1 spent :=
            ih hrest hstart' (fun key hkey => iff_of_true (hwrite key hkey) (hlater .write key hkey)) hcomplete
              (by rw [List.length_append]; omega) (by dsimp only; omega)
          have hmoves : ∃ c ∈ positions ((id, generation, entry) :: rest),
              (table.scanLoop cursor entryLimit keyLimit rest
                ⟨scan.keys ++ table.own cursor ⟨id, generation⟩, some ⟨⟨id, generation⟩, .write⟩, scan.complete,
                  scan.entriesScanned + 1⟩ spent).1.cursor = some c ∧ AfterCursor cursor c := by
            rcases hih.ahead with hsame | ⟨c, hc, hcur⟩
            · refine ⟨_, ?_, hsame, hafter⟩
              rw [hpositions]
              exact List.mem_append_left _ (List.mem_cons_of_mem _ List.mem_cons_self)
            · exact ⟨c, hmoved c hc, hcur⟩
          refine ⟨?_, .inr hmoves, fun _ => .inr hmoves, hih.keyLimit, hih.entryLimit⟩
          · refine hih.cons rfl ?_
            rcases hih.ahead with hsame | ⟨c, hc, hcur, -⟩
            · rw [hsame]
              exact own_write table ⟨id, generation⟩
            · rw [hcur]
              exact own_later table hbelow hc
      | final hafter hpair =>
          have hmoves : ∃ c ∈ positions ((id, generation, entry) :: rest),
              some (⟨⟨id, generation⟩, .write⟩ : ReadyKey) = some c ∧ AfterCursor cursor c := by
            refine ⟨_, ?_, rfl, hafter⟩
            rw [hpositions]
            exact List.mem_append_left _ (List.mem_cons_of_mem _ List.mem_cons_self)
          refine ⟨?_, .inr hmoves, fun _ => .inr hmoves, ?_, hentries⟩
          · have hall : after (some ⟨⟨id, generation⟩, .write⟩) (table.readyOf rest) = table.readyOf rest :=
              after_eq_self fun key hkey => hlater .write key (readyOf_subset hkey)
            have hall' : after cursor (table.readyOf rest) = table.readyOf rest :=
              after_eq_self fun key hkey => afterCursor_trans hafter (hlater .write key (readyOf_subset hkey))
            rw [after_readyOf_cons, after_readyOf_cons, own_write, hall, hall']
            cases rest with
            | nil => simp [readyOf, positions]
            | cons q rest => simp
          · rw [List.length_append]
            omega

/-- The entries below the cursor's id have nothing ahead of a cursor that is not behind it. -/
theorem after_filter (table : SocketTable) {c : Option ReadyKey} {start : Nat}
    (entries : List (Nat × Nat × SocketEntry))
    (hbehind : ∀ key : ReadyKey, key.identity.id < start → ¬ AfterCursor c key) :
    after c (table.readyOf (entries.filter fun p => start ≤ p.1)) = after c (table.readyOf entries) := by
  induction entries with
  | nil => rfl
  | cons p rest ih =>
      rw [after_readyOf_cons]
      by_cases hstart : start ≤ p.1
      · rw [List.filter_cons_of_pos (by simpa using hstart), after_readyOf_cons, ih]
      · have hnil : table.own c ⟨p.1, p.2.1⟩ = [] := after_eq_nil fun key hkey => by
          have hid := congrArg SocketIdentity.id (mem_entryKeys (List.mem_filter.1 hkey).1)
          exact hbehind key (by dsimp only at hid; omega)
        rw [List.filter_cons_of_neg (by simpa using hstart), ih, hnil, List.nil_append]

theorem not_afterCursor_of_lt {key : ReadyKey} (h : key.identity.id < cursor.elim 0 (·.identity.id)) :
    ¬ AfterCursor cursor key := by
  cases cursor with
  | none => exact absurd h (Nat.not_lt_zero _)
  | some c =>
      simp only [Option.elim_some] at h
      rw [afterCursor_some]
      rintro (hlt | ⟨hid, -, -⟩) <;> omega

/-- One call of `scan_ready`, accounted for over the whole table. -/
theorem scanReady_accounts (table : SocketTable) (cursor : Option ReadyKey) {entryLimit keyLimit : Nat}
    (budget : CallBudget) (hentry : 1 ≤ entryLimit) (hkey : 1 ≤ keyLimit) :
    Accounts table cursor entryLimit keyLimit table.entries.toList ⟨[], cursor, true, 0⟩
      (table.scanReady cursor entryLimit keyLimit budget).1 budget := by
  have hlimits : ¬ (entryLimit = 0 ∨ keyLimit = 0) := by omega
  have hloop : Accounts table cursor entryLimit keyLimit
      (table.entries.toList.filter fun p => cursor.elim 0 (·.identity.id) ≤ p.1) ⟨[], cursor, true, 0⟩
      (table.scanLoop cursor entryLimit keyLimit
        (table.entries.toList.filter fun p => cursor.elim 0 (·.identity.id) ≤ p.1) ⟨[], cursor, true, 0⟩ budget).1
      budget :=
    scanLoop_accounts ((sorted_toList table.entries).filter _) (fun p hp => by simpa using (List.mem_filter.1 hp).2)
      (fun _ _ => Iff.rfl) rfl hkey hentry
  rw [scanReady, if_neg hlimits]
  have hsub : ∀ c ∈ positions (table.entries.toList.filter fun p => cursor.elim 0 (·.identity.id) ≤ p.1),
      c ∈ positions table.entries.toList := fun c hc => by
    obtain ⟨entry, hmem⟩ := mem_positions.1 hc
    exact mem_positions.2 ⟨entry, (List.mem_filter.1 hmem).1⟩
  refine ⟨?_, hloop.ahead.imp_right fun ⟨c, hc, hcur⟩ => ⟨c, hsub c hc, hcur⟩,
    fun hpass => (hloop.moves hpass).imp_right fun ⟨c, hc, hcur⟩ => ⟨c, hsub c hc, hcur⟩,
    hloop.keyLimit, hloop.entryLimit⟩
  have hkeys := hloop.keys
  rw [after_filter _ _ fun _ => not_afterCursor_of_lt] at hkeys
  rw [← hkeys, after_filter]
  -- a cursor that has moved is ahead of the one that was given
  intro key hlt hafter
  rcases hloop.ahead with hsame | ⟨c, -, hcur, hc⟩
  · rw [hsame] at hafter
    exact not_afterCursor_of_lt hlt hafter
  · rw [hcur] at hafter
    exact not_afterCursor_of_lt hlt (afterCursor_trans hc hafter)

end Call

/-! ## Sweeps -/

/-- One call of a sweep: the table as it is then, and the limits and the budget of the call. -/
structure ScanCall where
  table : SocketTable
  entryLimit : Nat
  keyLimit : Nat
  budget : CallBudget

/-- The limits allow something and the call passes a check. -/
structure ScanCall.Proceeds (call : ScanCall) : Prop where
  entryLimit : 1 ≤ call.entryLimit
  keyLimit : 1 ≤ call.keyLimit
  passes : call.budget.checkpoint.1 = true

/-- A sweep so far: the cursor of its last call, the keys of its calls and whether the last was complete. -/
structure Sweep where
  cursor : Option ReadyKey := none
  keys : List ReadyKey := []
  complete : Bool := false
deriving DecidableEq

/-- What a call of the sweep returns. -/
def ScanCall.scan (call : ScanCall) (cursor : Option ReadyKey) : ReadyScan :=
  (call.table.scanReady cursor call.entryLimit call.keyLimit call.budget).1

def Sweep.call (sweep : Sweep) (call : ScanCall) : Sweep :=
  if sweep.complete then sweep
  else ⟨(call.scan sweep.cursor).cursor, sweep.keys ++ (call.scan sweep.cursor).keys, (call.scan sweep.cursor).complete⟩

/-- The first `n` calls of a sweep from no cursor, each from the cursor of the last, until one is complete. -/
def sweep (calls : ℕ → ScanCall) : ℕ → Sweep
  | 0 => {}
  | n + 1 => (sweep calls n).call (calls n)

/-- What is still ahead of a sweep in a table. -/
def Sweep.rest (sweep : Sweep) (table : SocketTable) : List ReadyKey :=
  if sweep.complete then [] else after sweep.cursor table.readyKeys

theorem ScanCall.Proceeds.accounts {call : ScanCall} (h : call.Proceeds) (cursor : Option ReadyKey) :
    Accounts call.table cursor call.entryLimit call.keyLimit call.table.entries.toList ⟨[], cursor, true, 0⟩
      (call.scan cursor) call.budget :=
  scanReady_accounts call.table cursor call.budget h.entryLimit h.keyLimit

/-- A call adds to the keys what it takes from those ahead. -/
theorem Sweep.call_keys (sweep : Sweep) {call : ScanCall} (h : call.Proceeds) :
    ∃ taken, (sweep.call call).keys = sweep.keys ++ taken ∧
      taken ++ (sweep.call call).rest call.table = sweep.rest call.table := by
  unfold Sweep.call
  by_cases hcomplete : sweep.complete = true
  · rw [if_pos hcomplete]
    exact ⟨[], (List.append_nil _).symm, rfl⟩
  · rw [if_neg hcomplete]
    refine ⟨(call.scan sweep.cursor).keys, rfl, ?_⟩
    unfold Sweep.rest
    rw [if_neg hcomplete]
    exact (h.accounts sweep.cursor).keys

/-- The place of a key in the order of the scan. -/
def rank (key : ReadyKey) : ℕ := 2 * key.identity.id + if key.direction = .write then 1 else 0

theorem rank_lt {a b : ReadyKey} (h : a.Before b) : rank a < rank b := by
  unfold rank
  rcases h with hlt | ⟨hid, hread, hwrite⟩
  · split <;> split <;> omega
  · rw [hread, hwrite, hid]
    simp

/-- How far the cursor has come. -/
def reach (cursor : Option ReadyKey) : ℕ := cursor.elim 0 (rank · + 1)

theorem reach_lt {cursor : Option ReadyKey} {c : ReadyKey} (h : AfterCursor cursor c) :
    reach cursor < reach (some c) := by
  cases cursor with
  | none => exact Nat.succ_pos _
  | some c' => exact Nat.succ_lt_succ (rank_lt ((afterCursor_some _ _).1 h))

/-- Every call of an unfinished sweep moves its cursor, to a key of the table of that call. -/
theorem sweep_reach {calls : ℕ → ScanCall} (hcalls : ∀ k, (calls k).Proceeds) (n : ℕ) :
    (sweep calls n).complete = true ∨ n ≤ reach (sweep calls n).cursor := by
  induction n with
  | zero => exact .inr (Nat.zero_le _)
  | succ n ih =>
      rw [sweep, Sweep.call]
      by_cases hcomplete : (sweep calls n).complete = true
      · rw [if_pos hcomplete]
        exact .inl hcomplete
      · rw [if_neg hcomplete]
        refine (((hcalls n).accounts _).moves (hcalls n).passes).imp_right ?_
        rintro ⟨c, -, hcur, hc⟩
        have hle := ih.resolve_left hcomplete
        have hlt := reach_lt hc
        dsimp only
        rw [hcur]
        omega

section Fixed

variable {calls : ℕ → ScanCall} {table : SocketTable} (hcalls : ∀ k, (calls k).Proceeds)
  (hfixed : ∀ k, (calls k).table = table)

include hcalls hfixed

/-- Over a table that stays as it is, the keys so far and those ahead are all the set keys. -/
theorem sweep_keys (n : ℕ) : (sweep calls n).keys ++ (sweep calls n).rest table = table.readyKeys := by
  induction n with
  | zero => exact after_eq_self fun key _ => afterCursor_none key
  | succ n ih =>
      obtain ⟨taken, hkeys, hrest⟩ := (sweep calls n).call_keys (hcalls n)
      rw [hfixed] at hrest
      rw [sweep, hkeys, List.append_assoc, hrest, ih]

theorem sweep_cursor (n : ℕ) : ∀ c ∈ (sweep calls n).cursor, c ∈ positions table.entries.toList := by
  induction n with
  | zero => simp [sweep]
  | succ n ih =>
      rw [sweep, Sweep.call]
      by_cases hcomplete : (sweep calls n).complete = true
      · rw [if_pos hcomplete]
        exact ih
      · rw [if_neg hcomplete]
        rcases ((hcalls n).accounts (sweep calls n).cursor).ahead with hsame | ⟨c, hc, hcur, -⟩
        · dsimp only
          rw [hsame]
          exact ih
        · dsimp only
          rw [hcur]
          intro c' hc'
          rw [hfixed] at hc
          rwa [← Option.some.inj hc']

/-- The sweep of a table ends. -/
theorem sweep_completes : ∃ n, (sweep calls n).complete = true := by
  have hbound : ∀ c ∈ positions table.entries.toList, rank c ≤ ((positions table.entries.toList).map rank).sum :=
    fun c hc => List.le_sum_of_mem (List.mem_map_of_mem hc)
  refine ⟨((positions table.entries.toList).map rank).sum + 2, ?_⟩
  refine (sweep_reach hcalls _).resolve_right fun hreach => ?_
  have hcursor := sweep_cursor hcalls hfixed (((positions table.entries.toList).map rank).sum + 2)
  cases hc : (sweep calls (((positions table.entries.toList).map rank).sum + 2)).cursor with
  | none =>
      rw [hc] at hreach
      exact absurd hreach (by simp [reach])
  | some c =>
      rw [hc] at hreach
      have hle := hbound c (hcursor c hc)
      simp only [reach, Option.elim_some] at hreach
      omega

end Fixed

/-- How often a key that is set is still to come. -/
def Sweep.owed (sweep : Sweep) (key : ReadyKey) : ℕ :=
  if sweep.complete = false ∧ AfterCursor sweep.cursor key then 1 else 0

theorem Sweep.count_rest (sweep : Sweep) {table : SocketTable} {key : ReadyKey} (h : key ∈ table.readyKeys) :
    (sweep.rest table).count key = sweep.owed key := by
  have hone : table.readyKeys.count key = 1 := List.count_eq_one_of_mem (nodup_of_sorted table.readyKeys_sorted) h
  unfold Sweep.rest Sweep.owed
  by_cases hcomplete : sweep.complete = true
  · simp [hcomplete]
  · by_cases hafter : AfterCursor sweep.cursor key
    · rw [if_neg hcomplete, if_pos ⟨by simpa using hcomplete, hafter⟩, after, List.count_filter (by simpa using hafter),
        hone]
    · rw [if_neg hcomplete, if_neg fun hc => hafter hc.2]
      exact List.count_eq_zero_of_not_mem fun hmem => hafter (by simpa using (List.mem_filter.1 hmem).2)

/-- A key that is set in the tables of all the calls has been returned once or is still to come. -/
theorem sweep_count {calls : ℕ → ScanCall} (hcalls : ∀ k, (calls k).Proceeds) {key : ReadyKey} {n : ℕ}
    (hset : ∀ k < n, key ∈ (calls k).table.readyKeys) :
    (sweep calls n).keys.count key + (sweep calls n).owed key = 1 := by
  induction n with
  | zero => simp [sweep, Sweep.owed]
  | succ n ih =>
      obtain ⟨taken, hkeys, hrest⟩ := (sweep calls n).call_keys (hcalls n)
      have hcount := congrArg (List.count key) hrest
      have hmem := hset n (Nat.lt_succ_self n)
      rw [List.count_append, Sweep.count_rest _ hmem, Sweep.count_rest _ hmem] at hcount
      have hbefore := ih fun k hk => hset k (Nat.lt_succ_of_lt hk)
      rw [sweep, hkeys, List.count_append]
      omega

/-- A sweep of calls that proceed.  Each call keeps within its limits.  Over a table that stays as it is the
sweep ends, with exactly the set keys, in order.  Over tables that change, a key that is set in all of them is
returned exactly once by a sweep that has ended, or that has made more calls than there are places up to the
key. -/
theorem scanReady_sweeps (calls : ℕ → ScanCall) (hcalls : ∀ k, (calls k).Proceeds) :
    (∀ k cursor, ((calls k).scan cursor).keys.length ≤ (calls k).keyLimit ∧
      ((calls k).scan cursor).entriesScanned ≤ (calls k).entryLimit) ∧
    (∀ table, (∀ k, (calls k).table = table) →
      (∃ n, (sweep calls n).complete = true) ∧
      ∀ n, (sweep calls n).complete = true → (sweep calls n).keys = table.readyKeys ∧
        (sweep calls n).keys.Pairwise ReadyKey.Before ∧ (sweep calls n).keys.Nodup ∧
        ∀ key, key ∈ (sweep calls n).keys ↔
          (∃ entry, table.entries[key.identity.id]? = some (key.identity.generation, entry)) ∧
            table.flag key = true) ∧
    (∀ key n, (∀ k < n, key ∈ (calls k).table.readyKeys) →
      (sweep calls n).keys.count key ≤ 1 ∧
      ((sweep calls n).complete = true ∨ rank key < n → (sweep calls n).keys.count key = 1)) := by
  refine ⟨fun k cursor => ?_, fun table hfixed => ⟨sweep_completes hcalls hfixed, fun n hcomplete => ?_⟩,
    fun key n hset => ?_⟩
  · have haccounts := (hcalls k).accounts cursor
    exact ⟨haccounts.keyLimit, haccounts.entryLimit⟩
  · have hkeys := sweep_keys hcalls hfixed n
    rw [Sweep.rest, if_pos hcomplete, List.append_nil] at hkeys
    rw [hkeys]
    exact ⟨rfl, table.readyKeys_sorted, nodup_of_sorted table.readyKeys_sorted, fun key => mem_readyKeys⟩
  · have hcount := sweep_count hcalls hset
    refine ⟨by omega, fun hpast => ?_⟩
    have howed : (sweep calls n).owed key = 0 := by
      refine if_neg fun hrest => ?_
      rcases hpast with hcomplete | hlt
      · rw [hcomplete] at hrest
        cases hrest.1
      · have hreach := (sweep_reach hcalls n).resolve_left (by simp [hrest.1])
        have hahead := reach_lt hrest.2
        simp only [reach, Option.elim_some] at hreach hahead
        omega
    omega

/-- Two sockets, the first ready both ways and the second to write; every call may return one key. -/
def twoSockets : SocketTable :=
  (((((SocketTable.new 8 16).insertEntry ⟨3, 1⟩ .tcp).insertEntry ⟨7, 2⟩ .udp).setFlag ⟨⟨3, 1⟩, .write⟩).setFlag
    ⟨⟨3, 1⟩, .read⟩).setFlag ⟨⟨7, 2⟩, .write⟩

def oneByOne : ScanCall := ⟨twoSockets, 1, 1, ⟨[true], false⟩⟩

theorem scanReady_sweeps_two_sockets :
    (sweep (fun _ => oneByOne) 2).complete = false ∧ (sweep (fun _ => oneByOne) 3).complete = true ∧
      (sweep (fun _ => oneByOne) 3).keys = [⟨⟨3, 1⟩, .read⟩, ⟨⟨3, 1⟩, .write⟩, ⟨⟨7, 2⟩, .write⟩] ∧
      (sweep (fun _ => oneByOne) 3).keys = twoSockets.readyKeys := by
  have hproceeds : ∀ _ : ℕ, oneByOne.Proceeds := fun _ => ⟨le_rfl, le_rfl, rfl⟩
  have hcomplete : (sweep (fun _ => oneByOne) 3).complete = true := by decide +kernel
  obtain ⟨-, hfixed, -⟩ := scanReady_sweeps (fun _ => oneByOne) hproceeds
  refine ⟨by decide +kernel, hcomplete, by decide +kernel, ?_⟩
  exact ((hfixed twoSockets fun _ => rfl).2 3 hcomplete).1

end SmolNet.SocketTable
