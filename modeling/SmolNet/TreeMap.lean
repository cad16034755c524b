import Mathlib

/-!
# Values and sums of ordered maps and sets

`Std.ExtTreeMap` gives lookups after an insertion or an erasure.  Here the multiset of a map's
values, or of a set's elements, is followed through the same operations, so that a total over a
map changes by what one operation adds or removes.
-/

namespace SmolNet.TreeMap

open Std

variable {α β : Type} {cmp : α → α → Ordering} [TransCmp cmp] {m : ExtTreeMap α β cmp} {k : α}

/-- The values of a map, with their multiplicities. -/
def vals (m : ExtTreeMap α β cmp) : Multiset β :=
  (m.toList.map Prod.snd : List β)

@[simp] theorem vals_empty : vals (∅ : ExtTreeMap α β cmp) = 0 := by
  simp [vals]

@[simp] theorem card_vals (m : ExtTreeMap α β cmp) : (vals m).card = m.size := by
  simp [vals]

/-- The total of a measure over a map's values. -/
def total (f : β → Nat) (m : ExtTreeMap α β cmp) : Nat :=
  ((vals m).map f).sum

@[simp] theorem total_empty (f : β → Nat) : total f (∅ : ExtTreeMap α β cmp) = 0 := by
  simp [total]

theorem total_le_mul {f : β → Nat} {bound : Nat} (h : ∀ v, f v ≤ bound) : total f m ≤ bound * m.size := by
  unfold total
  rw [← card_vals, Nat.mul_comm]
  have hsum := Multiset.sum_le_card_nsmul ((vals m).map f) bound (by simpa using fun v _ => h v)
  simpa using hsum

/-- The elements of a set, as a multiset. -/
def elems (s : ExtTreeSet α cmp) : Multiset α :=
  (s.toList : List α)

@[simp] theorem card_elems (s : ExtTreeSet α cmp) : (elems s).card = s.size := by
  simp [elems]

/-- The keys of a map, as a multiset. -/
def keySet (m : ExtTreeMap α β cmp) : Multiset α :=
  (m.keys : List α)

@[simp] theorem keySet_empty : keySet (∅ : ExtTreeMap α β cmp) = 0 := by
  simp [keySet]

@[simp] theorem card_keySet (m : ExtTreeMap α β cmp) : (keySet m).card = m.size := by
  simp [keySet]

theorem nodup_keySet (m : ExtTreeMap α β cmp) : (keySet m).Nodup :=
  Multiset.coe_nodup.2 m.nodup_keys

/-- Every entry of a map satisfies `P`. -/
def All (P : α → β → Prop) (m : ExtTreeMap α β cmp) : Prop :=
  ∀ (k : α) (v : β), m[k]? = some v → P k v

theorem all_empty (P : α → β → Prop) : All P (∅ : ExtTreeMap α β cmp) := by
  intro k v h
  simp at h

theorem All.erase {P : α → β → Prop} (h : All P m) (k : α) : All P (m.erase k) := by
  intro j w hjw
  rw [ExtTreeMap.getElem?_erase] at hjw
  split at hjw
  · simp at hjw
  · exact h j w hjw

variable [LawfulEqCmp cmp]

theorem All.insert {P : α → β → Prop} {v : β} (h : All P m) (hv : P k v) : All P (m.insert k v) := by
  intro j w hjw
  rw [ExtTreeMap.getElem?_insert] at hjw
  split at hjw
  · rename_i hjk
    obtain rfl := LawfulEqCmp.eq_of_compare hjk
    obtain rfl := Option.some.inj hjw
    exact hv
  · exact h j w hjw

theorem getElem?_erase_eq_some {k j : α} {v : β} : (m.erase k)[j]? = some v ↔ j ≠ k ∧ m[j]? = some v := by
  by_cases hjk : j = k
  · subst hjk
    simp
  · rw [ExtTreeMap.getElem?_erase, if_neg (fun h => hjk (LawfulEqCmp.eq_of_compare h).symm)]
    simp [hjk]

theorem getElem?_insert_eq_some {k j : α} {v w : β} :
    (m.insert k w)[j]? = some v ↔ j = k ∧ w = v ∨ j ≠ k ∧ m[j]? = some v := by
  by_cases hjk : j = k
  · subst hjk
    simp
  · rw [ExtTreeMap.getElem?_insert, if_neg (fun h => hjk (LawfulEqCmp.eq_of_compare h).symm)]
    simp [hjk]

theorem nodup_toList (m : ExtTreeMap α β cmp) : m.toList.Nodup := by
  refine m.distinct_keys_toList.imp ?_
  rintro a _ hne rfl
  exact hne ReflCmp.compare_self

theorem toList_perm_of_getElem? {v : β} (h : m[k]? = some v) :
    m.toList.Perm ((k, v) :: (m.erase k).toList) := by
  refine (List.perm_ext_iff_of_nodup (nodup_toList m) ?_).2 ?_
  · refine List.nodup_cons.2 ⟨?_, nodup_toList _⟩
    simp
  · rintro ⟨j, w⟩
    rw [List.mem_cons, ExtTreeMap.mem_toList_iff_getElem?_eq_some,
      ExtTreeMap.mem_toList_iff_getElem?_eq_some, ExtTreeMap.getElem?_erase]
    by_cases hjk : cmp k j = .eq
    · obtain rfl := LawfulEqCmp.eq_of_compare hjk
      simp [h, eq_comm]
    · have hne : j ≠ k := by
        rintro rfl
        exact hjk ReflCmp.compare_self
      simp [hjk, hne]

theorem toList_insert_perm (m : ExtTreeMap α β cmp) (k : α) (v : β) :
    (m.insert k v).toList.Perm ((k, v) :: (m.erase k).toList) := by
  have h : (m.insert k v)[k]? = some v := by simp
  have herase : (m.insert k v).erase k = m.erase k := by
    ext j w
    by_cases hjk : cmp k j = .eq <;>
      simp [ExtTreeMap.getElem?_erase, ExtTreeMap.getElem?_insert, hjk]
  simpa [herase] using toList_perm_of_getElem? h

theorem erase_eq_self (h : m[k]? = none) : m.erase k = m := by
  ext j w
  by_cases hjk : cmp k j = .eq
  · obtain rfl := LawfulEqCmp.eq_of_compare hjk
    simp [h]
  · simp [ExtTreeMap.getElem?_erase, hjk]

theorem insert_erase_self (m : ExtTreeMap α β cmp) (k : α) (v : β) :
    (m.erase k).insert k v = m.insert k v := by
  ext j w
  rw [ExtTreeMap.getElem?_insert, ExtTreeMap.getElem?_insert]
  split
  · rfl
  · rename_i hjk
    simp [ExtTreeMap.getElem?_erase, hjk]

theorem insert_insert_self (m : ExtTreeMap α β cmp) (k : α) (v w : β) :
    (m.insert k v).insert k w = m.insert k w := by
  ext k' v'
  simp only [ExtTreeMap.getElem?_insert]
  split <;> simp_all

theorem insert_eq_self {v : β} (h : m[k]? = some v) : m.insert k v = m := by
  ext j w
  by_cases hjk : cmp k j = .eq
  · obtain rfl := LawfulEqCmp.eq_of_compare hjk
    simp [h]
  · simp [ExtTreeMap.getElem?_insert, hjk]

theorem vals_insert (m : ExtTreeMap α β cmp) (k : α) (v : β) :
    vals (m.insert k v) = v ::ₘ vals (m.erase k) := by
  simpa [vals] using (toList_insert_perm m k v).map Prod.snd

theorem vals_eq_cons_erase {v : β} (h : m[k]? = some v) : vals m = v ::ₘ vals (m.erase k) := by
  simpa [vals] using (toList_perm_of_getElem? h).map Prod.snd

theorem vals_insert_of_none (h : m[k]? = none) (v : β) : vals (m.insert k v) = v ::ₘ vals m := by
  rw [vals_insert, erase_eq_self h]

theorem mem_vals {v : β} : v ∈ vals m ↔ ∃ k : α, m[k]? = some v := by
  simp [vals]

theorem total_insert (f : β → Nat) (m : ExtTreeMap α β cmp) (k : α) (v : β) :
    total f (m.insert k v) = f v + total f (m.erase k) := by
  simp [total, vals_insert]

theorem total_eq_add_erase (f : β → Nat) {v : β} (h : m[k]? = some v) :
    total f m = f v + total f (m.erase k) := by
  simp [total, vals_eq_cons_erase h]

theorem total_insert_of_none (f : β → Nat) (h : m[k]? = none) (v : β) :
    total f (m.insert k v) = f v + total f m := by
  simp [total, vals_insert_of_none h]

theorem total_insert_same {f : β → Nat} {v w : β} (h : m[k]? = some v) (hf : f w = f v) :
    total f (m.insert k w) = total f m := by
  rw [total_insert, total_eq_add_erase f h, hf]

theorem total_erase_le (f : β → Nat) (m : ExtTreeMap α β cmp) (k : α) :
    total f (m.erase k) ≤ total f m := by
  cases h : m[k]? with
  | none => rw [erase_eq_self h]
  | some v =>
      rw [total_eq_add_erase f h]
      exact Nat.le_add_left _ _

theorem mem_elems {s : ExtTreeSet α cmp} {a : α} : a ∈ elems s ↔ a ∈ s := by
  simp [elems]

theorem nodup_elems (s : ExtTreeSet α cmp) : (elems s).Nodup := by
  refine Multiset.coe_nodup.2 (s.distinct_toList.imp ?_)
  rintro a _ hne rfl
  exact hne ReflCmp.compare_self

theorem elems_insert_of_not_mem {s : ExtTreeSet α cmp} {a : α} (h : a ∉ s) :
    elems (s.insert a) = a ::ₘ elems s := by
  refine (Multiset.Nodup.ext (nodup_elems _) ?_).2 fun b => ?_
  · exact Multiset.nodup_cons.2 ⟨by rwa [mem_elems], nodup_elems s⟩
  · simp [mem_elems, @eq_comm _ a b]

theorem elems_eq_cons_erase {s : ExtTreeSet α cmp} {a : α} (h : a ∈ s) :
    elems s = a ::ₘ elems (s.erase a) := by
  refine (Multiset.Nodup.ext (nodup_elems _) ?_).2 fun b => ?_
  · exact Multiset.nodup_cons.2 ⟨by simp [mem_elems], nodup_elems _⟩
  · by_cases hb : b = a
    · simp [mem_elems, hb, h]
    · simp [mem_elems, hb, Ne.symm hb]

theorem mem_keySet : k ∈ keySet m ↔ k ∈ m := by
  simp [keySet]

theorem keySet_congr {m m' : ExtTreeMap α β cmp} (h : ∀ k, k ∈ m' ↔ k ∈ m) :
    keySet m' = keySet m :=
  (Multiset.Nodup.ext (nodup_keySet m') (nodup_keySet m)).2 fun k => by simp [mem_keySet, h]

theorem keySet_insert_of_not_mem (h : k ∉ m) (v : β) : keySet (m.insert k v) = k ::ₘ keySet m := by
  refine (Multiset.Nodup.ext (nodup_keySet _) ?_).2 fun j => ?_
  · exact Multiset.nodup_cons.2 ⟨by rwa [mem_keySet], nodup_keySet m⟩
  · simp [mem_keySet, @eq_comm _ k j]

theorem keySet_eq_cons_erase (h : k ∈ m) : keySet m = k ::ₘ keySet (m.erase k) := by
  refine (Multiset.Nodup.ext (nodup_keySet _) ?_).2 fun j => ?_
  · exact Multiset.nodup_cons.2 ⟨by simp [mem_keySet], nodup_keySet _⟩
  · by_cases hj : j = k
    · simp [mem_keySet, hj, h]
    · simp [mem_keySet, hj, Ne.symm hj]

theorem size_eq_size_erase (h : k ∈ m) : m.size = (m.erase k).size + 1 := by
  rw [← card_keySet, keySet_eq_cons_erase h, Multiset.card_cons, card_keySet]

section Inverse

variable {γ : Type} {cmp' : γ → γ → Ordering} [TransCmp cmp'] [LawfulEqCmp cmp'] {p : β → γ}
variable {f : ExtTreeMap α β cmp} {g : ExtTreeMap γ α cmp'} {a : α} {v : β}

/-- The first map, with its values read by `p`, and the second one are inverse to each other. -/
def Inverse (p : β → γ) (f : ExtTreeMap α β cmp) (g : ExtTreeMap γ α cmp') : Prop :=
  ∀ (a : α) (c : γ), (∃ v, f[a]? = some v ∧ p v = c) ↔ g[c]? = some a

omit [LawfulEqCmp cmp] [LawfulEqCmp cmp'] in
theorem inverse_empty : Inverse p (∅ : ExtTreeMap α β cmp) (∅ : ExtTreeMap γ α cmp') := by
  intro a c
  simp

omit [LawfulEqCmp cmp] [LawfulEqCmp cmp'] in
theorem Inverse.getElem? (h : Inverse p f g) (ha : f[a]? = some v) : g[p v]? = some a :=
  (h a (p v)).1 ⟨v, ha, rfl⟩

/-- Erasing a pair from both maps leaves them inverse. -/
theorem Inverse.erase (h : Inverse p f g) (ha : f[a]? = some v) :
    Inverse p (f.erase a) (g.erase (p v)) := by
  intro b c
  rw [ExtTreeMap.getElem?_erase, ExtTreeMap.getElem?_erase]
  by_cases hb : b = a
  · subst hb
    -- the key is gone from the first map, and no other value of the second one leads to it
    constructor
    · rintro ⟨w, hw, -⟩
      simp at hw
    · intro hc
      split at hc
      · cases hc
      · rename_i hne
        obtain ⟨w, hw, rfl⟩ := (h b c).2 hc
        rw [ha] at hw
        obtain rfl := Option.some.inj hw
        exact absurd ReflCmp.compare_self hne
  · rw [if_neg (fun hcmp => hb (LawfulEqCmp.eq_of_compare hcmp).symm), h b c]
    by_cases hc : cmp' (p v) c = .eq
    · obtain rfl := LawfulEqCmp.eq_of_compare hc
      simp [h.getElem? ha, Ne.symm hb]
    · rw [if_neg hc]

/-- A pair is added whose parts are in neither map. -/
theorem Inverse.insert (h : Inverse p f g) (ha : f[a]? = none) (hv : g[p v]? = none) :
    Inverse p (f.insert a v) (g.insert (p v) a) := by
  intro b c
  rw [ExtTreeMap.getElem?_insert, ExtTreeMap.getElem?_insert]
  by_cases hb : b = a
  · subst hb
    rw [if_pos ReflCmp.compare_self]
    constructor
    · rintro ⟨w, hw, rfl⟩
      obtain rfl := Option.some.inj hw
      simp
    · intro hc
      split at hc
      · rename_i hcmp
        exact ⟨v, rfl, LawfulEqCmp.eq_of_compare hcmp⟩
      · obtain ⟨w, hw, -⟩ := (h b c).2 hc
        rw [ha] at hw
        cases hw
  · rw [if_neg (fun hcmp => hb (LawfulEqCmp.eq_of_compare hcmp).symm), h b c]
    by_cases hc : cmp' (p v) c = .eq
    · obtain rfl := LawfulEqCmp.eq_of_compare hc
      simp [hv, Ne.symm hb]
    · rw [if_neg hc]

end Inverse

/-! ## Writes -/

/-- One write to a map: none, an entry put in or an entry taken out.  `From` holds of what is put in. -/
inductive Write (From : α → β → Prop) (m : ExtTreeMap α β cmp) : ExtTreeMap α β cmp → Prop
  | none : Write From m m
  | put (k : α) (v : β) (h : From k v) : Write From m (m.insert k v)
  | drop (k : α) : Write From m (m.erase k)

/-- After a write every entry but that of one key is an old one. -/
theorem Write.entries {From : α → β → Prop} {m m' : ExtTreeMap α β cmp} (h : Write From m m') [Nonempty α] :
    ∃ key, ∀ k v, m'[k]? = some v → m[k]? = some v ∨ k = key ∧ From k v := by
  cases h with
  | none => exact ⟨Classical.arbitrary α, fun k v hkv => .inl hkv⟩
  | put key w hw =>
      refine ⟨key, fun k v hkv => ?_⟩
      rcases getElem?_insert_eq_some.1 hkv with ⟨rfl, rfl⟩ | ⟨-, hold⟩
      · exact .inr ⟨rfl, hw⟩
      · exact .inl hold
  | drop key => exact ⟨key, fun k v hkv => .inl (getElem?_erase_eq_some.1 hkv).2⟩

theorem Write.all {From P : α → β → Prop} {m m' : ExtTreeMap α β cmp} (h : Write From m m') (hm : All P m)
    (hP : ∀ k v, From k v → P k v) : All P m' := by
  cases h with
  | none => exact hm
  | put k v hv => exact hm.insert (hP k v hv)
  | drop k => exact hm.erase k

end SmolNet.TreeMap
