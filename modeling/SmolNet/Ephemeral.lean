import SmolNet.Access
import SmolNet.FirstFit
import Std.Data.ExtTreeSet.Lemmas

/-!
# The search for an ephemeral port

`allocate_ephemeral` on the machine's `u16` ports, with arithmetic that fails where it would overflow.  The
stack calls it again and again, each time from the port behind the one that it got last.
-/

namespace SmolNet.Ports

open FirstFit

/-! ## The code -/

def checkedAdd (a b : UInt16) : Option UInt16 := if a.toNat + b.toNat < 2 ^ 16 then some (a + b) else none

def checkedSub (a b : UInt16) : Option UInt16 := if b ≤ a then some (a - b) else none

/-- `Ord::clamp` where its assertion holds. -/
def clampPort (port first last : UInt16) : UInt16 :=
  if port < first then first else if last < port then last else port

def clamp (port first last : UInt16) : Option UInt16 :=
  if first ≤ last then some (clampPort port first last) else none

/-- The port that the search looks at after `offset` others. -/
def candidate (first start : UInt16) (count offset : ℕ) : Option UInt16 := do
  let ahead ← checkedSub start first
  checkedAdd first (UInt16.ofNat ((ahead.toNat + offset) % count))

/-- The loop, with the number of offsets that are left. -/
def search (used : Std.ExtTreeSet UInt16) (first start : UInt16) (count : ℕ) :
    ℕ → ℕ → Option (Except SocketError UInt16)
  | 0, _ => some (.error .ephemeralPortsExhausted)
  | left + 1, offset => do
      let port ← candidate first start count offset
      if used.contains port then search used first start count left (offset + 1) else some (.ok port)

/-- `none` where the arithmetic overflows. -/
def allocateEphemeral (used : Std.ExtTreeSet UInt16) (start first last : UInt16) :
    Option (Except SocketError UInt16) := do
  let span ← checkedSub last first
  let count := span.toNat + 1
  let start ← clamp start first last
  search used first start count count 0

/-- Where the stack starts its next search. -/
def nextPort (first last port : UInt16) : Option UInt16 :=
  if port = last then some first else checkedAdd port 1

/-- The ports that successive searches return, each used from then on.  The flag tells whether the last search
reported that there is none. -/
def drainPorts (first last : UInt16) : ℕ → Std.ExtTreeSet UInt16 → UInt16 → Option (List UInt16 × Bool)
  | 0, _, _ => some ([], false)
  | fuel + 1, used, start => do
      match ← allocateEphemeral used start first last with
      | .error _ => some ([], true)
      | .ok port =>
          let start ← nextPort first last port
          let rest ← drainPorts first last fuel (used.insert port) start
          some (port :: rest.1, rest.2)

/-! ## The order of the search -/

/-- The ports from `first` up, `count` of them. -/
def portsFrom (first count : ℕ) : List UInt16 := (List.range' first count).map UInt16.ofNat

/-- From the clamped start up to the last port, and from the first one on. -/
def cyclicOrder (start first last : UInt16) : List UInt16 :=
  let start := clampPort start first last
  portsFrom start.toNat (last.toNat + 1 - start.toNat) ++ portsFrom first.toNat (start.toNat - first.toNat)

section Order

variable {start first last port : UInt16}

theorem clampPort_bounds (port : UInt16) (h : first ≤ last) :
    first.toNat ≤ (clampPort port first last).toNat ∧ (clampPort port first last).toNat ≤ last.toNat := by
  rw [UInt16.le_iff_toNat_le] at h
  unfold clampPort
  split
  · exact ⟨le_rfl, h⟩
  · split
    · exact ⟨h, le_rfl⟩
    · rename_i hlow hhigh
      rw [UInt16.lt_iff_toNat_lt] at hlow hhigh
      omega

theorem clampPort_of_mem (hfirst : first ≤ port) (hlast : port ≤ last) : clampPort port first last = port := by
  rw [clampPort, if_neg (UInt16.not_lt.2 hfirst), if_neg (UInt16.not_lt.2 hlast)]

theorem toNat_ofNat {n : ℕ} (h : n < 2 ^ 16) : (UInt16.ofNat n).toNat = n := UInt16.toNat_ofNat_of_lt' h

theorem length_portsFrom (first count : ℕ) : (portsFrom first count).length = count := by simp [portsFrom]

theorem mem_portsFrom {low count : ℕ} (h : low + count ≤ 2 ^ 16) :
    port ∈ portsFrom low count ↔ low ≤ port.toNat ∧ port.toNat < low + count := by
  rw [portsFrom, List.mem_map]
  constructor
  · rintro ⟨n, hn, rfl⟩
    rw [List.mem_range'_1] at hn
    rw [toNat_ofNat (by omega)]
    exact hn
  · intro hport
    exact ⟨port.toNat, List.mem_range'_1.2 hport, UInt16.ofNat_toNat⟩

theorem nodup_portsFrom {low count : ℕ} (h : low + count ≤ 2 ^ 16) : (portsFrom low count).Nodup := by
  refine List.Nodup.map_on ?_ List.nodup_range'
  intro a ha b hb hab
  rw [List.mem_range'_1] at ha hb
  have htoNat := congrArg UInt16.toNat hab
  rwa [toNat_ofNat (by omega), toNat_ofNat (by omega)] at htoNat

/-- The order of the search is the range, rotated to the clamped start. -/
theorem cyclicOrder_eq_rotate (start : UInt16) (h : first ≤ last) :
    cyclicOrder start first last =
      (portsFrom first.toNat (last.toNat + 1 - first.toNat)).rotate
        ((clampPort start first last).toNat - first.toNat) := by
  obtain ⟨hlow, hhigh⟩ := clampPort_bounds start h
  rw [List.rotate_eq_drop_append_take (by rw [length_portsFrom]; omega)]
  unfold cyclicOrder portsFrom
  rw [← List.map_drop, ← List.map_take, List.drop_range', List.take_range'_of_length_ge (by omega)]
  have hstart : first.toNat + ((clampPort start first last).toNat - first.toNat) * 1 =
      (clampPort start first last).toNat := by omega
  have hcount : last.toNat + 1 - first.toNat - ((clampPort start first last).toNat - first.toNat) =
      last.toNat + 1 - (clampPort start first last).toNat := by omega
  rw [hstart, hcount]

theorem mem_cyclicOrder (start : UInt16) (h : first ≤ last) :
    port ∈ cyclicOrder start first last ↔ first ≤ port ∧ port ≤ last := by
  have hlt := last.toNat_lt
  rw [cyclicOrder_eq_rotate start h, List.mem_rotate]
  rw [UInt16.le_iff_toNat_le] at h ⊢
  rw [mem_portsFrom (by omega), UInt16.le_iff_toNat_le]
  omega

theorem nodup_cyclicOrder (start : UInt16) (h : first ≤ last) : (cyclicOrder start first last).Nodup := by
  have hlt := last.toNat_lt
  rw [cyclicOrder_eq_rotate start h, List.nodup_rotate]
  rw [UInt16.le_iff_toNat_le] at h
  exact nodup_portsFrom (by omega)

theorem length_cyclicOrder (start : UInt16) (h : first ≤ last) :
    (cyclicOrder start first last).length = last.toNat - first.toNat + 1 := by
  rw [cyclicOrder_eq_rotate start h, List.length_rotate, length_portsFrom]
  rw [UInt16.le_iff_toNat_le] at h
  omega

/-- The port at a place of the order. -/
theorem getElem?_cyclicOrder (start : UInt16) (h : first ≤ last) {offset : ℕ}
    (hoffset : offset < last.toNat - first.toNat + 1) :
    (cyclicOrder start first last)[offset]? = some (UInt16.ofNat (first.toNat +
      ((clampPort start first last).toNat - first.toNat + offset) % (last.toNat - first.toNat + 1))) := by
  have hle := UInt16.le_iff_toNat_le.1 h
  have hcount : last.toNat + 1 - first.toNat = last.toNat - first.toNat + 1 := by omega
  have hmod : (offset + ((clampPort start first last).toNat - first.toNat)) % (last.toNat - first.toNat + 1) <
      last.toNat - first.toNat + 1 := Nat.mod_lt _ (Nat.succ_pos _)
  rw [cyclicOrder_eq_rotate start h, hcount, List.getElem?_rotate (by rw [length_portsFrom]; exact hoffset),
    length_portsFrom, portsFrom, List.getElem?_map, List.getElem?_range' hmod, Nat.one_mul, Nat.add_comm offset]
  rfl

end Order

/-! ## The search is first fit -/

section Search

variable {first last : UInt16} {used : Std.ExtTreeSet UInt16}

theorem checkedSub_of_le {a b : UInt16} (h : b ≤ a) : checkedSub a b = some (a - b) := if_pos h

theorem checkedAdd_of_lt {a b : UInt16} (h : a.toNat + b.toNat < 2 ^ 16) :
    checkedAdd a b = some (UInt16.ofNat (a.toNat + b.toNat)) := by
  rw [checkedAdd, if_pos h]
  refine congrArg some (UInt16.toNat_inj.1 ?_)
  rw [UInt16.toNat_add, Nat.mod_eq_of_lt h, toNat_ofNat h]

/-- The candidates are the ports of the cyclic order, and none overflows. -/
theorem candidate_eq (start : UInt16) (h : first ≤ last) {offset : ℕ}
    (hoffset : offset < last.toNat - first.toNat + 1) :
    candidate first (clampPort start first last) (last.toNat - first.toNat + 1) offset =
      (cyclicOrder start first last)[offset]? := by
  have hlt := last.toNat_lt
  obtain ⟨hlow, -⟩ := clampPort_bounds start h
  have hfirst : first ≤ clampPort start first last := UInt16.le_iff_toNat_le.2 hlow
  have hle := UInt16.le_iff_toNat_le.1 h
  have hmod : ((clampPort start first last).toNat - first.toNat + offset) % (last.toNat - first.toNat + 1) <
      last.toNat - first.toNat + 1 := Nat.mod_lt _ (Nat.succ_pos _)
  have hadd := checkedAdd_of_lt (a := first)
    (b := UInt16.ofNat (((clampPort start first last).toNat - first.toNat + offset) %
      (last.toNat - first.toNat + 1))) (by rw [toNat_ofNat (by omega)]; omega)
  rw [candidate, checkedSub_of_le hfirst, Option.bind_eq_bind, Option.bind_some,
    UInt16.toNat_sub_of_le _ _ hfirst, hadd, toNat_ofNat (by omega), getElem?_cyclicOrder start h hoffset]

/-- What the search reports. -/
def report (found : Option UInt16) : Except SocketError UInt16 := found.elim (.error .ephemeralPortsExhausted) .ok

theorem search_eq (used : Std.ExtTreeSet UInt16) (start : UInt16) (h : first ≤ last) {left offset : ℕ}
    (hleft : left + offset = last.toNat - first.toNat + 1) :
    search used first (clampPort start first last) (last.toNat - first.toNat + 1) left offset =
      some (report (firstFit used.contains ((cyclicOrder start first last).drop offset))) := by
  have hlength := length_cyclicOrder start h
  induction left generalizing offset with
  | zero =>
      rw [List.drop_of_length_le (by omega)]
      rfl
  | succ left ih =>
      have hlt : offset < (cyclicOrder start first last).length := by omega
      rw [search, candidate_eq start h (by omega), List.getElem?_eq_getElem hlt, List.drop_eq_getElem_cons hlt]
      have hrest := ih (by omega : left + (offset + 1) = last.toNat - first.toNat + 1)
      rw [firstFit] at hrest ⊢
      rw [Option.bind_eq_bind, Option.bind_some, List.find?_cons]
      cases hused : used.contains (cyclicOrder start first last)[offset] with
      | true => exact hrest
      | false => rfl

/-- Nothing overflows, and the search reports the first free port of the cyclic order. -/
theorem allocateEphemeral_eq (used : Std.ExtTreeSet UInt16) (start : UInt16) (h : first ≤ last) :
    allocateEphemeral used start first last =
      some (report (firstFit used.contains (cyclicOrder start first last))) := by
  have hsearch := search_eq used start h (Nat.add_zero (last.toNat - first.toNat + 1))
  have hclamp : clamp start first last = some (clampPort start first last) := if_pos h
  rw [List.drop_zero] at hsearch
  simp only [allocateEphemeral, checkedSub_of_le h, hclamp, Option.bind_eq_bind, Option.bind_some,
    UInt16.toNat_sub_of_le _ _ h]
  exact hsearch

/-- The next search starts behind the port that this one found, with no overflow. -/
theorem nextPort_eq {start port : UInt16} {before after : List UInt16} (h : first ≤ last)
    (hsplit : cyclicOrder start first last = before ++ port :: after) :
    ∃ next, nextPort first last port = some next ∧
      cyclicOrder next first last = (cyclicOrder start first last).rotate (before.length + 1) := by
  have hlt := last.toNat_lt
  have hle := UInt16.le_iff_toNat_le.1 h
  have hcount : last.toNat + 1 - first.toNat = last.toNat - first.toNat + 1 := by omega
  have hlength := length_cyclicOrder start h
  have hbefore : before.length < last.toNat - first.toNat + 1 := by
    rw [hsplit, List.length_append, List.length_cons] at hlength
    omega
  -- where the port lies in the range
  have hport : port.toNat = first.toNat +
      ((clampPort start first last).toNat - first.toNat + before.length) % (last.toNat - first.toNat + 1) := by
    have hget : (cyclicOrder start first last)[before.length]? = some port := by rw [hsplit]; simp
    have hmod : ((clampPort start first last).toNat - first.toNat + before.length) %
        (last.toNat - first.toNat + 1) < last.toNat - first.toNat + 1 := Nat.mod_lt _ (Nat.succ_pos _)
    rw [getElem?_cyclicOrder start h hbefore] at hget
    rw [← Option.some.inj hget]
    exact toNat_ofNat (by omega)
  have hrotate : ∀ next : UInt16, first ≤ next → next ≤ last →
      next.toNat - first.toNat = ((clampPort start first last).toNat - first.toNat + before.length + 1) %
        (last.toNat - first.toNat + 1) →
      cyclicOrder next first last = (cyclicOrder start first last).rotate (before.length + 1) := by
    intro next hfirst hlast hnext
    have hsum : (clampPort start first last).toNat - first.toNat + (before.length + 1) =
        (clampPort start first last).toNat - first.toNat + before.length + 1 := by omega
    have hmod := List.rotate_mod (portsFrom first.toNat (last.toNat - first.toNat + 1))
      ((clampPort start first last).toNat - first.toNat + before.length + 1)
    rw [length_portsFrom] at hmod
    rw [cyclicOrder_eq_rotate next h, cyclicOrder_eq_rotate start h, clampPort_of_mem hfirst hlast,
      List.rotate_rotate, hsum, hnext, hcount, hmod]
  have hnextmod := Nat.mod_add_mod ((clampPort start first last).toNat - first.toNat + before.length)
    (last.toNat - first.toNat + 1) 1
  unfold nextPort
  split
  · rename_i hsame
    refine ⟨first, rfl, hrotate first (UInt16.le_refl _) h ?_⟩
    have hwrap : ((clampPort start first last).toNat - first.toNat + before.length) %
        (last.toNat - first.toNat + 1) = last.toNat - first.toNat := by
      rw [hsame] at hport
      omega
    rw [← hnextmod, hwrap, Nat.mod_self, Nat.sub_self]
  · rename_i hne
    have hlast : port.toNat < last.toNat := by
      have hmem : port ∈ cyclicOrder start first last := by rw [hsplit]; simp
      have hbound := UInt16.le_iff_toNat_le.1 ((mem_cyclicOrder start h).1 hmem).2
      have hne' : port.toNat ≠ last.toNat := fun heq => hne (UInt16.toNat_inj.1 heq)
      omega
    have hnat : (UInt16.ofNat (port.toNat + 1)).toNat = port.toNat + 1 := toNat_ofNat (by omega)
    refine ⟨UInt16.ofNat (port.toNat + 1), checkedAdd_of_lt (b := 1) (by simpa using by omega), ?_⟩
    refine hrotate _ ?_ ?_ ?_
    · rw [UInt16.le_iff_toNat_le, hnat]
      omega
    · rw [UInt16.le_iff_toNat_le, hnat]
      omega
    · rw [← hnextmod, hnat, Nat.mod_eq_of_lt (by omega)]
      omega

theorem contains_insert (used : Std.ExtTreeSet UInt16) (port : UInt16) :
    (used.insert port).contains = fun other => used.contains other || other == port := by
  funext other
  rw [Std.ExtTreeSet.contains_insert, Bool.or_comm]
  congr 1
  rw [Bool.eq_iff_iff, beq_iff_eq, beq_iff_eq, Std.compare_eq_iff_eq]
  exact eq_comm

/-- The searches, one after the other, are first fit in the cyclic order again and again. -/
theorem drainPorts_eq (h : first ≤ last) (fuel : ℕ) (used : Std.ExtTreeSet UInt16) (start : UInt16) :
    drainPorts first last fuel used start = some (drain fuel used.contains (cyclicOrder start first last)) := by
  induction fuel generalizing used start with
  | zero => rfl
  | succ fuel ih =>
      rw [drainPorts, allocateEphemeral_eq used start h, drain]
      cases hfit : firstFit used.contains (cyclicOrder start first last) with
      | none => rfl
      | some port =>
          obtain ⟨-, before, after, hsplit, -⟩ := firstFit_eq_some.1 hfit
          obtain ⟨next, hnext, horder⟩ := nextPort_eq h hsplit
          simp only [report, Option.elim_some, Option.bind_eq_bind, Option.bind_some, hnext, ih, horder,
            contains_insert, idxOf_of_split (nodup_cyclicOrder start h) hsplit]

theorem report_eq_ok {found : Option UInt16} {port : UInt16} : report found = .ok port ↔ found = some port := by
  cases found <;> simp [report]

theorem report_eq_error {found : Option UInt16} {error : SocketError} :
    report found = .error error ↔ found = none ∧ error = .ephemeralPortsExhausted := by
  cases found <;> simp [report, eq_comm]

/-- A port is found just if one is free. -/
theorem firstFit_isSome_iff (start : UInt16) (h : first ≤ last) :
    (∃ port, firstFit used.contains (cyclicOrder start first last) = some port) ↔
      ∃ port, (first ≤ port ∧ port ≤ last) ∧ port ∉ used := by
  rw [← Option.ne_none_iff_exists', ne_eq, firstFit_eq_none]
  push Not
  refine exists_congr fun port => ?_
  rw [mem_cyclicOrder start h, Std.ExtTreeSet.mem_iff_contains]

/-- A search for an ephemeral port is cyclic first fit, whatever the range, and nothing overflows.  The searches
that start behind each other return every free port of the range once, and then report that there is none. -/
theorem allocateEphemeral_cyclic (used : Std.ExtTreeSet UInt16) (start : UInt16) (h : first ≤ last) :
    (∃ result, allocateEphemeral used start first last = some result ∧
      ((∃ port, result = .ok port) ↔ ∃ port, (first ≤ port ∧ port ≤ last) ∧ port ∉ used) ∧
      (∀ error, result = .error error → error = .ephemeralPortsExhausted) ∧
      ∀ port, result = .ok port → port ∉ used ∧ ∃ before after,
        cyclicOrder start first last = before ++ port :: after ∧ ∀ other ∈ before, other ∈ used) ∧
    ∃ issued, issued.Nodup ∧ (∀ port, port ∈ issued ↔ (first ≤ port ∧ port ≤ last) ∧ port ∉ used) ∧
      ∀ fuel, issued.length < fuel → drainPorts first last fuel used start = some (issued, true) := by
  constructor
  · refine ⟨_, allocateEphemeral_eq used start h, ?_, ?_, ?_⟩
    · rw [← firstFit_isSome_iff start h]
      exact exists_congr fun port => report_eq_ok
    · exact fun error herror => (report_eq_error.1 herror).2
    · intro port hport
      obtain ⟨hfree, before, after, hsplit, hused⟩ := firstFit_eq_some.1 (report_eq_ok.1 hport)
      refine ⟨?_, before, after, hsplit, fun other hother => ?_⟩
      · rw [Std.ExtTreeSet.mem_iff_contains, hfree]
        exact Bool.false_ne_true
      · exact Std.ExtTreeSet.mem_iff_contains.2 (hused other hother)
  · refine ⟨(cyclicOrder start first last).filter fun port => !used.contains port, ?_, ?_, ?_⟩
    · exact (nodup_cyclicOrder start h).filter _
    · intro port
      rw [List.mem_filter, mem_cyclicOrder start h, Std.ExtTreeSet.mem_iff_contains, Bool.not_eq_true,
        Bool.not_eq_true']
    · intro fuel hfuel
      rw [drainPorts_eq h, drain_eq (nodup_cyclicOrder start h) hfuel]

/-- The last three ports, the last of them in use, from there. -/
theorem allocateEphemeral_cyclic_last_ports :
    ∃ issued : List UInt16, issued.Nodup ∧ (∀ port, port ∈ issued ↔ port = 65533 ∨ port = 65534) ∧
      drainPorts 65533 65535 10 ((∅ : Std.ExtTreeSet UInt16).insert 65535) 65535 = some (issued, true) := by
  obtain ⟨-, issued, hnodup, hmem, hdrain⟩ :=
    allocateEphemeral_cyclic ((∅ : Std.ExtTreeSet UInt16).insert 65535) 65535 (by decide : (65533 : UInt16) ≤ 65535)
  have hmem' : ∀ port, port ∈ issued ↔ port = 65533 ∨ port = 65534 := by
    intro port
    rw [hmem, Std.ExtTreeSet.mem_insert, Std.compare_eq_iff_eq]
    simp only [Std.ExtTreeSet.not_mem_empty, or_false, ← UInt16.toNat_inj, UInt16.le_iff_toNat_le]
    have hfirst : (65533 : UInt16).toNat = 65533 := rfl
    have hsecond : (65534 : UInt16).toNat = 65534 := rfl
    have hlast : (65535 : UInt16).toNat = 65535 := rfl
    omega
  refine ⟨issued, hnodup, hmem', hdrain 10 ?_⟩
  have hsub : issued ⊆ [65533, 65534] := by
    intro port hport
    simpa using (hmem' port).1 hport
  have hlength := (hnodup.subperm hsub).length_le
  exact lt_of_le_of_lt hlength (by decide)

/-! ## The search of the stack's model -/

/-- The model of the stack has ports as numbers; its search makes the same choice. -/
theorem allocateEphemeral_toNat (used : Std.ExtTreeSet UInt16) (start : UInt16) (h : first ≤ last) :
    SmolNet.allocateEphemeral (used.toList.map UInt16.toNat) start.toNat first.toNat last.toNat =
      (firstFit used.contains (cyclicOrder start first last)).map UInt16.toNat := by
  have hlt := last.toNat_lt
  have hle := UInt16.le_iff_toNat_le.1 h
  have hclamp : (clampPort start first last).toNat = max first.toNat (min start.toNat last.toNat) := by
    unfold clampPort
    split
    · rename_i hlow
      rw [UInt16.lt_iff_toNat_lt] at hlow
      omega
    · rename_i hlow
      rw [UInt16.lt_iff_toNat_lt] at hlow
      split
      · rename_i hhigh
        rw [UInt16.lt_iff_toNat_lt] at hhigh
        omega
      · rename_i hhigh
        rw [UInt16.lt_iff_toNat_lt] at hhigh
        omega
  have horder : (List.range (last.toNat - first.toNat + 1)).map (fun offset => first.toNat +
      (max first.toNat (min start.toNat last.toNat) - first.toNat + offset) % (last.toNat - first.toNat + 1)) =
      (cyclicOrder start first last).map UInt16.toNat := by
    apply List.ext_getElem?
    intro i
    by_cases hi : i < last.toNat - first.toNat + 1
    · have hmod : (max first.toNat (min start.toNat last.toNat) - first.toNat + i) %
          (last.toNat - first.toNat + 1) < last.toNat - first.toNat + 1 := Nat.mod_lt _ (Nat.succ_pos _)
      rw [List.getElem?_map, List.getElem?_map, getElem?_cyclicOrder start h hi, List.getElem?_range hi, hclamp,
        Option.map_some, Option.map_some, toNat_ofNat (by omega)]
    · rw [List.getElem?_eq_none (by simpa using hi), List.getElem?_eq_none]
      rw [List.length_map, length_cyclicOrder start h]
      omega
  have hused : ∀ port : UInt16, (used.toList.map UInt16.toNat).contains port.toNat = used.contains port := by
    intro port
    rw [Bool.eq_iff_iff, List.contains_iff_mem, List.mem_map, ← Std.ExtTreeSet.mem_iff_contains]
    constructor
    · rintro ⟨other, hother, heq⟩
      rw [← UInt16.toNat_inj.1 heq]
      exact Std.ExtTreeSet.mem_toList.1 hother
    · exact fun hport => ⟨port, Std.ExtTreeSet.mem_toList.2 hport, rfl⟩
  unfold SmolNet.allocateEphemeral firstFit
  dsimp only
  rw [horder, List.find?_map]
  refine congrArg _ (congrFun (congrArg _ (funext fun port => ?_)) _)
  exact congrArg _ (hused port)

/-- The port where the stack starts its next search. -/
theorem nextPort_toNat {port : UInt16} (hport : Ephemeral port.toNat) :
    (nextPort (UInt16.ofNat ephemeralPortFirst) (UInt16.ofNat ephemeralPortLast) port).map UInt16.toNat =
      some (nextEphemeral port.toNat) := by
  have hlast : (UInt16.ofNat ephemeralPortLast).toNat = ephemeralPortLast := by decide
  have hbound : ephemeralPortLast + 1 < 2 ^ 16 := by decide
  have hle := hport.2
  have hiff : port = UInt16.ofNat ephemeralPortLast ↔ port.toNat = ephemeralPortLast := by
    rw [← UInt16.toNat_inj, hlast]
  unfold nextPort nextEphemeral
  by_cases hsame : port.toNat = ephemeralPortLast
  · rw [if_pos (hiff.2 hsame), if_pos hsame]
    decide
  · have hadd := checkedAdd_of_lt (a := port) (b := 1) (by simpa using by omega)
    have hone : (1 : UInt16).toNat = 1 := rfl
    rw [if_neg fun heq => hsame (hiff.1 heq), if_neg hsame, hadd, hone, Option.map_some, toNat_ofNat (by omega)]

end Search

end SmolNet.Ports
