import Yuanrong.Lib.FinMap

/-!
# Counting one map against another

Bounds on how many entries a map has, from entries that another map is known to have for each of
them.
-/

namespace AList

open List Option

variable {κ ι ν μ : Type} [DecidableEq κ] [DecidableEq ι] {m : FinMap κ ν}

theorem total_mono {f g : κ → ν → ℤ} (hle : ∀ k v, m.lookup k = some v → f k v ≤ g k v) :
    m.total f ≤ m.total g := by
  have hdiff : 0 ≤ m.total fun k v => g k v - f k v :=
    total_nonneg fun k v hlookup => sub_nonneg.mpr (hle k v hlookup)
  have hsum := total_add m (fun k v => g k v - f k v) f
  have hsame : m.total (fun k v => g k v - f k v + f k v) = m.total g :=
    total_congr fun k v _ => sub_add_cancel _ _
  omega

omit [DecidableEq κ] in
theorem len_filter_eq_count (m : FinMap κ ν) (p : κ → ν → Bool) :
    ((m.filter p).len : ℤ) = m.count fun k v => p k v = true := by
  unfold len filter count total
  dsimp only
  induction m.entries with
  | nil => rfl
  | cons entry _ ih =>
    rw [filter_cons, map_cons, sum_cons]
    by_cases hp : p entry.1 entry.2 = true
    · rw [if_pos hp, if_pos hp, length_cons, ← ih]
      omega
    · rw [if_neg hp, if_neg hp, zero_add]
      exact ih

theorem count_eq_len (m : FinMap κ ν) (p : κ → ν → Prop) [∀ k v, Decidable (p k v)] :
    m.count p = (m.filter fun k v => decide (p k v)).len := by
  rw [len_filter_eq_count]
  exact count_congr fun k v _ => decide_eq_true_iff.symm

theorem len_le_count (m : FinMap κ Unit) (out : FinMap ι μ) (p : ι → μ → Prop)
    [∀ k v, Decidable (p k v)] (owner : μ → κ)
    (hheld : ∀ x, (m.lookup x).isSome = true → ∃ k v, out.lookup k = some v ∧ p k v ∧ owner v = x) :
    (m.len : ℤ) ≤ out.count p := by
  have hsub : m.keys ⊆ (out.filter fun k v => decide (p k v)).entries.map fun e => owner e.2 := by
    intro x hx
    obtain ⟨k, v, hk, hp, howner⟩ := hheld x (isSome_iff_exists.mpr (mem_keys_iff.mp hx))
    refine mem_map.mpr ⟨⟨k, v⟩, mem_entries_iff.mpr ?_, howner⟩
    rw [lookup_filter, hk, filter_some, if_pos (decide_eq_true hp)]
  have hle := (subperm_of_subset m.keys_nodup hsub).length_le
  rw [keys_length, length_map] at hle
  rw [count_eq_len]
  exact_mod_cast hle

omit [DecidableEq κ] in
theorem len_eq_count (m : FinMap κ ν) : (m.len : ℤ) = m.count fun _ _ => True := by
  unfold len count total
  simp

theorem count_le_count (m : FinMap κ ν) (m' : FinMap κ μ) (p : κ → ν → Prop) (q : κ → μ → Prop)
    [∀ k v, Decidable (p k v)] [∀ k v, Decidable (q k v)]
    (hheld : ∀ k v, m.lookup k = some v → p k v → ∃ w, m'.lookup k = some w ∧ q k w) :
    m.count p ≤ m'.count q := by
  rw [count_eq_len, count_eq_len]
  refine Int.ofNat_le.mpr (len_le_of_lookup fun k v hk => ?_)
  rw [lookup_filter, filter_eq_some_iff] at hk
  obtain ⟨w, hw, hq⟩ := hheld k v hk.1 (of_decide_eq_true hk.2)
  exact ⟨w, by rw [lookup_filter, hw, filter_some, if_pos (decide_eq_true hq)]⟩

theorem total_key_le_one (m : FinMap κ ν) (k : κ) :
    (m.total fun k' _ => if k' = k then (1 : ℤ) else 0) ≤ 1 := by
  have hle := count_le_count m ((∅ : FinMap κ Unit).insert k ()) (fun k' _ => k' = k)
    (fun _ _ => True) fun k' v _ heq => ⟨(), by rw [heq, lookup_insert], trivial⟩
  exact hle

theorem total_count_le (m : FinMap κ ν) (out : FinMap ι μ) (p : ι → μ → Prop)
    [∀ k v, Decidable (p k v)] (owner : μ → Option κ) :
    (m.total fun ref _ => out.count fun k v => p k v ∧ owner v = some ref) ≤
      out.count fun k v => p k v ∧ (owner v).isSome = true := by
  induction out using AList.insertRec with
  | H0 =>
    rw [total_eq_zero]
    · exact count_nonneg _ _
    · exact fun ref _ _ => count_eq_zero fun k v hk => by cases hk
  | IH k v out hnew =>
    have hnone : out.lookup k = none := AList.lookup_eq_none.mpr hnew
    -- the entry adds one to the key it belongs to, if there is one
    have hadd : ∀ ref, (out.insert k v).count (fun k v => p k v ∧ owner v = some ref) =
        out.count (fun k v => p k v ∧ owner v = some ref) +
          if p k v ∧ owner v = some ref then 1 else 0 := by
      intro ref
      rw [count_insert, hnone, elim_none, sub_zero]
    have hsum : (m.total fun ref _ => (out.insert k v).count fun k v => p k v ∧ owner v = some ref) =
        (m.total fun ref _ => out.count fun k v => p k v ∧ owner v = some ref) +
          m.total fun ref _ => if p k v ∧ owner v = some ref then (1 : ℤ) else 0 := by
      rw [← total_add]
      exact total_congr fun ref _ _ => hadd ref
    have hone : (m.total fun ref _ => if p k v ∧ owner v = some ref then (1 : ℤ) else 0) ≤
        if p k v ∧ (owner v).isSome = true then 1 else 0 := by
      cases howner : owner v with
      | none =>
        rw [total_eq_zero]
        · simp
        intro ref w _
        refine if_neg ?_
        rintro ⟨-, h⟩
        cases h
      | some ref₀ =>
        by_cases hp : p k v
        · rw [if_pos ⟨hp, rfl⟩]
          refine le_trans (total_mono fun ref w _ => ?_) (total_key_le_one m ref₀)
          by_cases heq : ref = ref₀
          · rw [if_pos heq]
            split <;> decide
          · rw [if_neg heq, if_neg fun h => heq (Option.some.inj h.2).symm]
        · rw [total_eq_zero]
          · split <;> decide
          · exact fun ref w _ => if_neg fun h => hp h.1
    have hcount := count_insert out (fun k v => p k v ∧ (owner v).isSome = true) k v
    rw [hnone, elim_none] at hcount
    omega

theorem count_add_le {p q r : κ → ν → Prop} [∀ k v, Decidable (p k v)] [∀ k v, Decidable (q k v)]
    [∀ k v, Decidable (r k v)] (hp : ∀ k v, p k v → r k v) (hq : ∀ k v, q k v → r k v)
    (hdisj : ∀ k v, p k v → ¬ q k v) : m.count p + m.count q ≤ m.count r := by
  unfold count
  rw [← total_add]
  apply total_mono
  intro k v _
  by_cases hpk : p k v
  · rw [if_pos hpk, if_neg (hdisj k v hpk), if_pos (hp k v hpk), add_zero]
  rw [if_neg hpk, zero_add]
  by_cases hqk : q k v
  · rw [if_pos hqk, if_pos (hq k v hqk)]
  · rw [if_neg hqk]
    split <;> decide

theorem len_le_len_add_filter (m m' : FinMap κ Unit) :
    m.len ≤ m'.len + (m.filter fun x _ => (m'.lookup x).isNone).len := by
  have hin : (m.filter fun x _ => (m'.lookup x).isSome).len ≤ m'.len := by
    apply len_le_of_lookup
    intro x v hx
    rw [lookup_filter, filter_eq_some_iff] at hx
    exact isSome_iff_exists.mp hx.2
  have hsplit : m.count (fun _ _ => True) = m.count (fun x _ => (m'.lookup x).isSome = true) +
        m.count (fun x _ => (m'.lookup x).isNone = true) := by
    unfold count
    rw [← total_add]
    apply total_congr
    intro x v _
    cases hlookup : m'.lookup x with
    | none => simp [hlookup]
    | some => simp [hlookup]
  rw [← len_eq_count, ← len_filter_eq_count, ← len_filter_eq_count] at hsplit
  omega

end AList
