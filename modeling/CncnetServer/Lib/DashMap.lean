import Mathlib.Data.List.AList
import Mathlib.Data.Finset.Card
import Mathlib.Data.Finset.Image

/-!
A concurrent hash map seen one call at a time: each operation is one function
on the whole map. The representation is Mathlib's `AList`; the operations carry
the names of the hash map's methods, and the lemmas say what each of them does
to every lookup, to the set of keys and to `len`.
-/

abbrev DashMap (K V : Type) := AList (fun _ : K => V)

namespace DashMap

variable {K V : Type}

def len (m : DashMap K V) : Nat := m.keys.length

/-- Keep the entries on which `p` is true. -/
def retain (m : DashMap K V) (p : K → V → Bool) : DashMap K V :=
  ⟨m.entries.filter (fun e => p e.1 e.2), m.nodupKeys.sublist List.filter_sublist⟩

/-- The same keys with other values. -/
def mapValues {W : Type} (m : DashMap K V) (f : V → W) : DashMap K W :=
  ⟨m.entries.map (Sigma.map id fun _ => f), List.NodupKeys.map₂ (fun _ => f) _ m.nodupKeys⟩

variable [DecidableEq K]

def get (m : DashMap K V) (k : K) : Option V := m.lookup k

def containsKey (m : DashMap K V) (k : K) : Bool := decide (k ∈ m)

def insert (m : DashMap K V) (k : K) (v : V) : DashMap K V := AList.insert k v m

def remove (m : DashMap K V) (k : K) : DashMap K V := AList.erase k m

/-- Change the value under `k` through `get_mut`, if there is one. -/
def modify (m : DashMap K V) (k : K) (f : V → V) : DashMap K V :=
  match m.get k with
  | some v => m.insert k (f v)
  | none => m

/-! ## Lookups -/

@[simp] theorem get_empty (k : K) : get (∅ : DashMap K V) k = none := AList.lookup_empty k

theorem get_insert (m : DashMap K V) (k j : K) (v : V) :
    (m.insert k v).get j = if j = k then some v else m.get j := by
  unfold get insert
  by_cases h : j = k
  · subst h; simp
  · simp [h, AList.lookup_insert_ne]

@[simp] theorem get_insert_self (m : DashMap K V) (k : K) (v : V) :
    (m.insert k v).get k = some v := by simp [get_insert]

theorem get_insert_ne (m : DashMap K V) {k j : K} (v : V) (h : j ≠ k) :
    (m.insert k v).get j = m.get j := by simp [get_insert, h]

theorem get_remove (m : DashMap K V) (k j : K) :
    (m.remove k).get j = if j = k then none else m.get j := by
  unfold get remove
  by_cases h : j = k
  · subst h; simp
  · simp [h, AList.lookup_erase_ne]

theorem get_modify (m : DashMap K V) (k j : K) (f : V → V) :
    (m.modify k f).get j = if j = k then (m.get j).map f else m.get j := by
  unfold modify
  cases h : m.get k with
  | none =>
    by_cases hj : j = k
    · subst hj; simp [h]
    · simp [hj]
  | some v =>
    simp only [get_insert]
    by_cases hj : j = k
    · subst hj; simp [h]
    · simp [hj]

theorem get_retain (m : DashMap K V) (p : K → V → Bool) (k : K) :
    (m.retain p).get k = (m.get k).filter (p k) := by
  ext v
  rw [Option.filter_eq_some_iff]
  have hm := AList.mem_lookup_iff (a := k) (b := v) (s := m)
  have hr := AList.mem_lookup_iff (a := k) (b := v) (s := m.retain p)
  simp only [Option.mem_def] at hm hr
  unfold get
  rw [hr, hm]
  simp [retain, List.mem_filter]

theorem get_mapValues {W : Type} (m : DashMap K V) (f : V → W) (k : K) :
    (m.mapValues f).get k = (m.get k).map f := List.dlookup_map₂ k

theorem mem_iff_get {m : DashMap K V} {k : K} : k ∈ m ↔ ∃ v, m.get k = some v := by
  rw [← AList.lookup_isSome, Option.isSome_iff_exists]
  rfl

theorem mem_of_get {m : DashMap K V} {k : K} {v : V} (h : m.get k = some v) : k ∈ m :=
  mem_iff_get.mpr ⟨v, h⟩

theorem get_eq_none {m : DashMap K V} {k : K} : m.get k = none ↔ k ∉ m :=
  AList.lookup_eq_none

/-! ## Keys -/

theorem mem_insert {m : DashMap K V} {k j : K} {v : V} : j ∈ m.insert k v ↔ j = k ∨ j ∈ m :=
  AList.mem_insert m

theorem mem_remove {m : DashMap K V} {k j : K} : j ∈ m.remove k ↔ j ≠ k ∧ j ∈ m :=
  AList.mem_erase

theorem mem_retain {m : DashMap K V} {p : K → V → Bool} {k : K} :
    k ∈ m.retain p ↔ ∃ v, m.get k = some v ∧ p k v = true := by
  simp [mem_iff_get, get_retain, Option.filter_eq_some_iff]

theorem mem_modify {m : DashMap K V} {k j : K} {f : V → V} : j ∈ m.modify k f ↔ j ∈ m := by
  rw [mem_iff_get, mem_iff_get, get_modify]
  split
  · simp only [Option.map_eq_some_iff]
    constructor
    · rintro ⟨_, v, hv, _⟩; exact ⟨v, hv⟩
    · rintro ⟨v, hv⟩; exact ⟨f v, v, hv, rfl⟩
  · rfl

/-! ## Length -/

omit [DecidableEq K] in
@[simp] theorem len_empty : len (∅ : DashMap K V) = 0 := rfl

/-- The keys as a finite set. -/
def keySet (m : DashMap K V) : Finset K := m.keys.toFinset

@[simp] theorem mem_keySet {m : DashMap K V} {k : K} : k ∈ m.keySet ↔ k ∈ m := by
  unfold keySet
  rw [List.mem_toFinset, AList.mem_keys]

theorem card_keySet (m : DashMap K V) : m.keySet.card = m.len :=
  List.toFinset_card_of_nodup m.keys_nodup

theorem keySet_insert (m : DashMap K V) (k : K) (v : V) :
    (m.insert k v).keySet = Insert.insert k m.keySet := by
  ext j
  rw [mem_keySet, mem_insert, Finset.mem_insert, mem_keySet]

theorem keySet_remove (m : DashMap K V) (k : K) : (m.remove k).keySet = m.keySet.erase k := by
  ext j
  rw [mem_keySet, mem_remove, Finset.mem_erase, mem_keySet]

/-- A map whose keys are all keys of another is not longer. -/
theorem len_le_of_subset {W : Type} {m : DashMap K V} {n : DashMap K W}
    (h : ∀ k, k ∈ m → k ∈ n) : m.len ≤ n.len := by
  rw [← card_keySet, ← card_keySet]
  apply Finset.card_le_card
  intro k hk
  rw [mem_keySet] at hk ⊢
  exact h k hk

theorem len_insert_of_mem {m : DashMap K V} {k : K} {v : V} (h : k ∈ m) :
    (m.insert k v).len = m.len := by
  have hk : k ∈ m.keys := AList.mem_keys.mp h
  have hpos := List.length_pos_of_mem hk
  simp only [len, insert, AList.keys_insert, List.length_cons, List.length_erase_of_mem hk]
  omega

theorem len_insert_of_notMem {m : DashMap K V} {k : K} {v : V} (h : k ∉ m) :
    (m.insert k v).len = m.len + 1 := by
  have hk : k ∉ m.keys := fun hk => h (AList.mem_keys.mpr hk)
  simp only [len, insert, AList.keys_insert, List.length_cons, List.erase_of_not_mem hk]

theorem len_insert_le (m : DashMap K V) (k : K) (v : V) : (m.insert k v).len ≤ m.len + 1 := by
  by_cases h : k ∈ m
  · rw [len_insert_of_mem h]
    exact Nat.le_succ _
  · rw [len_insert_of_notMem h]

theorem len_remove_le (m : DashMap K V) (k : K) : (m.remove k).len ≤ m.len :=
  len_le_of_subset fun _ h => (mem_remove.mp h).2

/-- No map has more entries than there are keys. -/
theorem len_le_of_injective (m : DashMap K V) {f : K → Nat} (hf : Function.Injective f) {n : Nat}
    (hn : ∀ k, f k < n) : m.len ≤ n := by
  rw [← card_keySet, ← Finset.card_image_of_injective m.keySet hf, ← Finset.card_range n]
  apply Finset.card_le_card
  intro i hi
  obtain ⟨k, _, rfl⟩ := Finset.mem_image.mp hi
  exact Finset.mem_range.mpr (hn k)

end DashMap
