import Mathlib.Data.List.AList
import Mathlib.Algebra.Order.BigOperators.Group.List
import Mathlib.Tactic.Linarith
import Mathlib.Tactic.Abel

/-!
# Finite maps and totals over their entries

A map with finitely many keys, as Mathlib's association lists give it, together with what the
bookkeeping arguments need on top: the total of a weight over all entries, and how that total moves
when one entry is stored, overwritten or deleted.
-/

abbrev FinMap (κ ν : Type) := AList fun _ : κ => ν

namespace AList

open List Option

variable {κ ν M : Type} [DecidableEq κ]

section Basic

variable {m : FinMap κ ν} {k k' : κ} {v w : ν}

theorem lookup_insert_eq_ite (m : FinMap κ ν) (k k' : κ) (w : ν) :
    (m.insert k' w).lookup k = if k = k' then some w else m.lookup k := by
  by_cases heq : k = k'
  · subst heq
    simp
  · simp [heq]

theorem lookup_erase_eq_ite (m : FinMap κ ν) (k k' : κ) :
    (m.erase k').lookup k = if k = k' then none else m.lookup k := by
  by_cases heq : k = k'
  · subst heq
    simp
  · simp [heq]

theorem lookup_of_insert (h : (m.insert k w).lookup k' = some v) :
    (k' = k ∧ w = v) ∨ m.lookup k' = some v := by
  rw [lookup_insert_eq_ite] at h
  split at h
  · rename_i heq
    exact Or.inl ⟨heq, some.inj h⟩
  · exact Or.inr h

theorem forall_lookup_insert {P : κ → ν → Prop} (h : P k w) (hold : ∀ k v, m.lookup k = some v → P k v) :
    ∀ k' v, (m.insert k w).lookup k' = some v → P k' v := by
  intro k' v hlookup
  rcases lookup_of_insert hlookup with ⟨rfl, rfl⟩ | hlookup
  · exact h
  · exact hold k' v hlookup

theorem lookup_of_erase (h : (m.erase k).lookup k' = some v) : m.lookup k' = some v := by
  rw [lookup_erase_eq_ite] at h
  split at h
  · cases h
  · exact h

theorem ne_of_lookup_erase (h : (m.erase k).lookup k' = some v) : k' ≠ k := by
  rintro rfl
  rw [lookup_erase] at h
  cases h

theorem lookup_insert_of_some (h : m.lookup k' = some v) : ∃ v', (m.insert k w).lookup k' = some v' := by
  rw [lookup_insert_eq_ite]
  split
  · exact ⟨w, rfl⟩
  · exact ⟨v, h⟩

theorem lookup_insert_self (h : m.lookup k = some v) (k' : κ) : (m.insert k v).lookup k' = m.lookup k' := by
  rw [lookup_insert_eq_ite]
  split
  case isTrue heq => rw [heq, h]
  case isFalse => rfl

theorem mem_entries_iff : (⟨k, v⟩ : Σ _ : κ, ν) ∈ m.entries ↔ m.lookup k = some v := by
  rw [← mem_lookup_iff]
  exact Iff.rfl

theorem mem_keys_iff : k ∈ m.keys ↔ ∃ v, m.lookup k = some v := by
  rw [← mem_keys, ← lookup_isSome, isSome_iff_exists]

end Basic

omit [DecidableEq κ] in
theorem nodupKeys_filter (m : FinMap κ ν) (p : (Σ _ : κ, ν) → Bool) : (m.entries.filter p).NodupKeys :=
  List.NodupKeys.sublist filter_sublist m.nodupKeys

def filter (m : FinMap κ ν) (p : κ → ν → Bool) : FinMap κ ν :=
  ⟨m.entries.filter fun e => p e.1 e.2, m.nodupKeys_filter _⟩

def mapVal (m : FinMap κ ν) (f : κ → ν → ν) : FinMap κ ν :=
  ⟨m.entries.map fun e => ⟨e.1, f e.1 e.2⟩, List.NodupKeys.map₂ f m.entries m.nodupKeys⟩

theorem lookup_filter (m : FinMap κ ν) (p : κ → ν → Bool) (k : κ) :
    (m.filter p).lookup k = (m.lookup k).filter (p k) := by
  ext v
  rw [← mem_entries_iff, filter_eq_some_iff, ← mem_entries_iff]
  simp [filter]

theorem lookup_mapVal (m : FinMap κ ν) (f : κ → ν → ν) (k : κ) :
    (m.mapVal f).lookup k = (m.lookup k).map (f k) := by
  ext v
  rw [← mem_entries_iff, map_eq_some_iff]
  constructor
  · intro hmem
    obtain ⟨⟨k', w⟩, hw, ⟨⟩⟩ := mem_map.mp hmem
    exact ⟨w, mem_entries_iff.mp hw, rfl⟩
  · rintro ⟨w, hw, rfl⟩
    exact mem_map.mpr ⟨⟨k, w⟩, mem_entries_iff.mpr hw, rfl⟩

section Len

omit [DecidableEq κ] in
def len (m : FinMap κ ν) : Nat := m.entries.length

/-- The first key of an iteration depends on `i` alone, and each key is first for some `i`. -/
def pick (m : FinMap κ ν) (i : Nat) : Option κ := m.keys[i % m.keys.length]?

omit [DecidableEq κ] in
@[simp]
theorem len_empty : len (∅ : FinMap κ ν) = 0 := rfl

variable {m : FinMap κ ν} {k : κ}

theorem len_erase_of_some (hlookup : m.lookup k = some v) : (m.erase k).len + 1 = m.len := by
  have hmem : k ∈ m.entries.keys := mem_keys.mp (lookup_isSome.mp (by simp [hlookup]))
  obtain ⟨w, before, after, -, hentries, herase⟩ := exists_of_kerase hmem
  change (kerase k m.entries).length + 1 = m.entries.length
  rw [herase, hentries, length_append, length_append, length_cons]
  omega

theorem erase_of_none (hlookup : m.lookup k = none) : m.erase k = m := by
  apply AList.ext
  exact kerase_of_notMem_keys (lookup_eq_none.mp hlookup)

theorem len_insert (m : FinMap κ ν) (k : κ) (w : ν) : (m.insert k w).len = (m.erase k).len + 1 := rfl

theorem len_insert_of_none (w : ν) (hlookup : m.lookup k = none) : (m.insert k w).len = m.len + 1 := by
  rw [len_insert, erase_of_none hlookup]

theorem len_erase_le (m : FinMap κ ν) (k : κ) : (m.erase k).len ≤ m.len := by
  cases hlookup : m.lookup k with
  | none => rw [erase_of_none hlookup]
  | some => exact Nat.le_of_succ_le (len_erase_of_some hlookup).le

theorem len_le_erase (m : FinMap κ ν) (k : κ) : m.len ≤ (m.erase k).len + 1 := by
  cases hlookup : m.lookup k with
  | none =>
    rw [erase_of_none hlookup]
    exact Nat.le_succ _
  | some => exact (len_erase_of_some hlookup).ge

theorem len_insert_le (m : FinMap κ ν) (k : κ) (w : ν) : (m.insert k w).len ≤ m.len + 1 := by
  rw [len_insert]
  have hle := m.len_erase_le k
  omega

omit [DecidableEq κ] in
theorem keys_length (m : FinMap κ ν) : m.keys.length = m.len := length_map _

omit [DecidableEq κ] in
theorem pick_eq_none_iff : m.pick i = none ↔ m.len = 0 := by
  unfold pick
  rw [getElem?_eq_none_iff, keys_length]
  constructor
  · intro hle
    by_contra hpos
    exact absurd (Nat.mod_lt i (Nat.pos_of_ne_zero hpos)) (not_lt.mpr hle)
  · intro hzero
    rw [hzero]
    exact Nat.zero_le _

theorem lookup_of_pick (hpick : m.pick i = some k) : ∃ v, m.lookup k = some v :=
  mem_keys_iff.mp (mem_of_getElem? hpick)

section Within

variable {μ : Type} {m : FinMap κ ν} {m' : FinMap κ μ}
  (hsub : ∀ k v, m.lookup k = some v → ∃ w, m'.lookup k = some w)

include hsub

theorem keys_subset : m.keys ⊆ m'.keys := by
  intro x hx
  obtain ⟨v, hv⟩ := mem_keys_iff.mp hx
  exact mem_keys_iff.mpr (hsub x v hv)

theorem len_le_of_lookup : m.len ≤ m'.len := by
  rw [← keys_length, ← keys_length]
  exact (subperm_of_subset m.keys_nodup (keys_subset hsub)).length_le

theorem lookup_of_len_le (hlen : m'.len ≤ m.len) (hlookup : m'.lookup k = some w) :
    ∃ v, m.lookup k = some v := by
  have hperm : m.keys.Perm m'.keys := by
    apply (subperm_of_subset m.keys_nodup (keys_subset hsub)).perm_of_length_le
    rw [keys_length, keys_length]
    exact hlen
  exact mem_keys_iff.mp (hperm.mem_iff.mpr (mem_keys_iff.mpr ⟨w, hlookup⟩))

end Within

theorem len_insert_of_some (w : ν) (hlookup : m.lookup k = some v) : (m.insert k w).len = m.len :=
  len_erase_of_some hlookup

end Len

section Total

variable [AddCommMonoid M]

def total (m : FinMap κ ν) (f : κ → ν → M) : M :=
  (m.entries.map fun e => f e.1 e.2).sum

omit [DecidableEq κ] in
@[simp]
theorem total_empty (f : κ → ν → M) : total (∅ : FinMap κ ν) f = 0 := rfl

section

variable (m : FinMap κ ν) (f : κ → ν → M)
include m f

theorem total_erase_add (hlookup : m.lookup k = some v) : (m.erase k).total f + f k v = m.total f := by
  have hmem : k ∈ m.entries.keys := mem_keys.mp (lookup_isSome.mp (by simp [hlookup]))
  obtain ⟨w, before, after, -, hentries, herase⟩ := exists_of_kerase hmem
  have hw : w = v := by
    have hin : (⟨k, w⟩ : Σ _ : κ, ν) ∈ m.entries := by
      rw [hentries]
      simp
    exact some.inj ((mem_entries_iff.mp hin).symm.trans hlookup)
  subst hw
  change ((kerase k m.entries).map _).sum + _ = (m.entries.map _).sum
  rw [herase, hentries]
  simp only [map_append, map_cons, sum_append, sum_cons]
  abel

theorem total_erase_of_none (hlookup : m.lookup k = none) : (m.erase k).total f = m.total f := by
  have hmem : k ∉ m.entries.keys := lookup_eq_none.mp hlookup
  change ((kerase k m.entries).map _).sum = (m.entries.map _).sum
  rw [kerase_of_notMem_keys hmem]

theorem total_insert (k : κ) (w : ν) : (m.insert k w).total f = f k w + (m.erase k).total f := rfl

theorem total_insert_of_none (w : ν)
    (hlookup : m.lookup k = none) : (m.insert k w).total f = m.total f + f k w := by
  rw [total_insert, total_erase_of_none m f hlookup, add_comm]

theorem total_insert_add (w : ν)
    (hlookup : m.lookup k = some v) : (m.insert k w).total f + f k v = m.total f + f k w := by
  rw [total_insert, add_assoc, total_erase_add m f hlookup, add_comm]

end

omit [DecidableEq κ] in
theorem total_add (m : FinMap κ ν) (f g : κ → ν → M) :
    m.total (fun k v => f k v + g k v) = m.total f + m.total g := by
  unfold total
  induction m.entries with
  | nil => simp
  | cons _ _ ih =>
    simp only [map_cons, sum_cons, ih]
    abel

theorem total_congr {m : FinMap κ ν} {f g : κ → ν → M}
    (heq : ∀ k v, m.lookup k = some v → f k v = g k v) : m.total f = m.total g := by
  unfold total
  congr 1
  apply map_congr_left
  intro e he
  exact heq e.1 e.2 (mem_entries_iff.mp he)

theorem total_eq_zero {m : FinMap κ ν} {f : κ → ν → M}
    (hzero : ∀ k v, m.lookup k = some v → f k v = 0) : m.total f = 0 := by
  rw [total_congr hzero]
  unfold total
  simp

omit [DecidableEq κ] in
theorem total_filter (m : FinMap κ ν) (p : κ → ν → Bool) (f : κ → ν → M) :
    (m.filter p).total f = m.total fun k v => if p k v then f k v else 0 := by
  unfold total filter
  dsimp only
  induction m.entries with
  | nil => rfl
  | cons e _ ih =>
    by_cases hp : p e.1 e.2 = true
    all_goals simp [hp, ih]

end Total

variable {m : FinMap κ ν} {f : κ → ν → ℤ}

theorem total_nonneg (hnonneg : ∀ k v, m.lookup k = some v → 0 ≤ f k v) : 0 ≤ m.total f := by
  apply sum_nonneg
  intro x hx
  obtain ⟨e, he, rfl⟩ := mem_map.mp hx
  exact hnonneg e.1 e.2 (mem_entries_iff.mp he)

theorem le_total (hnonneg : ∀ k v, m.lookup k = some v → 0 ≤ f k v)
    (hlookup : m.lookup k = some v) : f k v ≤ m.total f := by
  have hsplit := total_erase_add m f hlookup
  have hrest : 0 ≤ (m.erase k).total f := by
    apply total_nonneg
    intro k' v' hlookup'
    rw [lookup_erase_eq_ite] at hlookup'
    split at hlookup'
    · cases hlookup'
    · exact hnonneg k' v' hlookup'
  linarith

section Count

variable (m : FinMap κ ν) (p : κ → ν → Prop) [∀ k v, Decidable (p k v)]

def count : ℤ := m.total fun k v => if p k v then 1 else 0

theorem count_nonneg : 0 ≤ m.count p := by
  apply total_nonneg
  intro k v _
  split <;> decide

variable {m p}

theorem count_eq_zero (hnone : ∀ k v, m.lookup k = some v → ¬ p k v) : m.count p = 0 := by
  apply total_eq_zero
  intro k v hlookup
  exact if_neg (hnone k v hlookup)

theorem count_pos (hlookup : m.lookup k = some v) (hp : p k v) : 0 < m.count p := by
  have hle : (if p k v then 1 else 0 : ℤ) ≤ m.count p := by
    apply le_total _ hlookup
    intro k' v' _
    split <;> decide
  rw [if_pos hp] at hle
  linarith

theorem count_congr {q : κ → ν → Prop} [∀ k v, Decidable (q k v)]
    (hiff : ∀ k v, m.lookup k = some v → (p k v ↔ q k v)) : m.count p = m.count q := by
  apply total_congr
  intro k v hlookup
  exact if_congr (hiff k v hlookup) rfl rfl

variable (m p)

theorem count_erase (k : κ) :
    (m.erase k).count p = m.count p - (m.lookup k).elim 0 fun v => if p k v then 1 else 0 := by
  cases hlookup : m.lookup k with
  | none =>
    rw [count, total_erase_of_none m _ hlookup]
    simp [count]
  | some v =>
    have hadd := total_erase_add m (fun k v => if p k v then (1 : ℤ) else 0) hlookup
    rw [elim_some]
    unfold count
    linarith

theorem count_insert (k : κ) (w : ν) : (m.insert k w).count p =
      m.count p - ((m.lookup k).elim 0 fun v => if p k v then 1 else 0) + if p k w then 1 else 0 := by
  rw [← count_erase, add_comm]
  exact total_insert m _ k w

end Count

end AList
