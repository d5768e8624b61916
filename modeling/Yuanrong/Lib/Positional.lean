import Mathlib.Data.Nat.Digits.Lemmas

/-!
# Numerals of a fixed width

Numerals with the most significant digit first, filled up to a width, over the library's digits,
which begin with the least significant one. Splitting each digit of a numeral in two gives the
numeral of the same number in the base that is the root.
-/

namespace Positional

open List Nat

variable {base : Nat}

def value (base : Nat) (ds : List Nat) : Nat := Nat.ofDigits base ds.reverse

def fixed (base width n : Nat) : List Nat := (Nat.digitsAppend base width n).reverse

@[simp] theorem value_nil : value base [] = 0 := rfl

theorem value_append (ds ds' : List Nat) :
    value base (ds ++ ds') = value base ds * base ^ ds'.length + value base ds' := by
  rw [value, reverse_append, ofDigits_append, length_reverse, add_comm, mul_comm]
  rfl

theorem value_append_singleton (ds : List Nat) (d : Nat) :
    value base (ds ++ [d]) = value base ds * base + d := by
  rw [value_append]
  simp [value]

theorem foldl_eq_value (acc : Nat) (ds : List Nat) :
    ds.foldl (fun n d => n * base + d) acc = acc * base ^ ds.length + value base ds := by
  induction ds using reverseRecOn with
  | nil => simp
  | append_singleton _ _ ih =>
    rw [foldl_append, foldl_cons, foldl_nil, ih, value_append_singleton,
      length_append, length_singleton, pow_succ]
    ring

variable {d : Nat} {ds : List Nat}

section

variable (hbase : 1 < base)
include hbase

variable {width n : Nat}

theorem length_fixed (hlt : n < base ^ width) : (fixed base width n).length = width := by
  rw [fixed, length_reverse, length_digitsAppend hbase width hlt]

theorem lt_of_mem_fixed (hmem : d ∈ fixed base width n) : d < base :=
  lt_of_mem_digitsAppend hbase width d (mem_reverse.mp hmem)

theorem value_fixed (hlt : n < base ^ width) : value base (fixed base width n) = n := by
  rw [value, fixed, reverse_reverse]
  exact (setInvOn_digitsAppend_ofDigits hbase width).2 hlt

theorem fixed_value (hdigits : ∀ d ∈ ds, d < base) : fixed base ds.length (value base ds) = ds := by
  have hreverse : ds.reverse.length = ds.length ∧ ∀ d ∈ ds.reverse, d < base :=
    ⟨length_reverse, fun d hd => hdigits d (mem_reverse.mp hd)⟩
  rw [fixed, value, (setInvOn_digitsAppend_ofDigits hbase ds.length).1 hreverse, reverse_reverse]

theorem value_lt (hdigits : ∀ d ∈ ds, d < base) : value base ds < base ^ ds.length := by
  rw [← length_reverse]
  exact ofDigits_lt_base_pow_length hbase fun d hd => hdigits d (mem_reverse.mp hd)

end

def halves (base : Nat) (ds : List Nat) : List Nat := ds.flatMap fun d => [d / base, d % base]

@[simp] theorem length_halves (ds : List Nat) : (halves base ds).length = 2 * ds.length := by
  induction ds with
  | nil => rfl
  | cons _ _ ih =>
    simp only [halves, flatMap_cons, length_append, length_cons, length_nil] at ih ⊢
    omega

theorem halves_append (ds ds' : List Nat) : halves base (ds ++ ds') = halves base ds ++ halves base ds' := by
  simp [halves]

theorem value_halves (ds : List Nat) : value base (halves base ds) = value (base * base) ds := by
  induction ds using reverseRecOn with
  | nil => rfl
  | append_singleton _ d ih =>
    have hhalf : value base (halves base [d]) = d := by
      rw [← div_add_mod' d base]
      simp [halves, value, ofDigits_cons, div_add_mod', mod_add_div]
    rw [halves_append, value_append, ih, value_append_singleton, hhalf, length_halves,
      length_singleton, mul_one, sq]

theorem lt_of_mem_halves (hdigits : ∀ d ∈ ds, d < base * base) (hmem : d ∈ halves base ds) : d < base := by
  obtain ⟨d', hd', hpair⟩ := mem_flatMap.mp hmem
  have hlt := hdigits d' hd'
  have hpos : 0 < base := Nat.pos_of_mul_pos_right (Nat.zero_lt_of_lt hlt)
  rcases mem_cons.mp hpair with rfl | hpair
  · exact Nat.div_lt_of_lt_mul hlt
  · rw [mem_singleton.mp hpair]
    exact mod_lt _ hpos

end Positional
