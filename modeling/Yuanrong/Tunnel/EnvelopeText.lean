import Yuanrong.Tunnel.BinaryEnvelope

/-!
# One text for the bytes of an id

The daemon prints a UUID byte by byte and the client prints its integer. The two texts are the same,
and an id that the daemon accepts is read to the same sixteen bytes by both.
-/

namespace Yuanrong.Tunnel

open List Python Rust Positional
variable {cs : List Char} {bytes : Bytes}

theorem toNat_ofNat_digits {ds : List Nat} (hdigits : ∀ d ∈ ds, d < 256) :
    (ds.map UInt8.ofNat).map UInt8.toNat = ds := by
  rw [map_map]
  refine (map_congr_left fun d hd => ?_).trans (map_id ds)
  exact UInt8.toNat_ofNat_of_lt (hdigits d hd)

variable {c : Char}

theorem toNat_lt_of_mem (hmem : d ∈ bytes.map UInt8.toNat) : d < 256 := by
  obtain ⟨byte, -, rfl⟩ := mem_map.mp hmem
  exact byte.toNat_lt

theorem length_toBeBytes (hlt : n < 256 ^ width) : (toBeBytes width n).length = width := by
  rw [toBeBytes, length_map, length_fixed (by decide) hlt]

theorem fromBeBytes_toBeBytes (hlt : n < 256 ^ width) : fromBeBytes (toBeBytes width n) = n := by
  rw [fromBeBytes, toBeBytes, toNat_ofNat_digits fun d hd => lt_of_mem_fixed (by decide) hd,
    value_fixed (by decide) hlt]

theorem toBeBytes_fromBeBytes (hlength : bytes.length = width) :
    toBeBytes width (fromBeBytes bytes) = bytes := by
  subst hlength
  have hfixed := @fixed_value 256 _ (by decide)
    fun d (hd : d ∈ bytes.map UInt8.toNat) => toNat_lt_of_mem hd
  rw [length_map] at hfixed
  rw [toBeBytes, fromBeBytes, hfixed, map_map]
  refine (map_congr_left fun byte _ => ?_).trans (map_id bytes)
  exact UInt8.ofNat_toNat

theorem fromBeBytes_lt (bytes : Bytes) : fromBeBytes bytes < 256 ^ bytes.length := by
  have hlt := @value_lt 256 _ (by decide)
    fun d (hd : d ∈ bytes.map UInt8.toNat) => toNat_lt_of_mem hd
  rwa [length_map] at hlt

theorem hexValue_hexDigit (hlt : n < 16) : hexValue (hexDigit n) = some n := by
  have hall : ∀ n : Fin 16, hexValue (hexDigit n) = some n.val := by decide
  exact hall ⟨n, hlt⟩

theorem toNat_lt_of_hexValue (hhex : (hexValue c).isSome) : c.toNat < 103 := by
  have hle {a b : Char} (h : a ≤ b) : a.toNat ≤ b.toNat := h
  unfold hexValue at hhex
  split at hhex
  · next h => exact Nat.lt_of_le_of_lt (hle h.2) (by decide)
  split at hhex
  · next h => exact Nat.lt_of_le_of_lt (hle h.2) (by decide)
  split at hhex
  · next h => exact Nat.lt_of_le_of_lt (hle h.2) (by decide)
  · cases hhex

structure HexChar (c : Char) : Prop where
  value_lt : (hexValue c).getD 0 < 16
  hexDigit_value : hexDigit ((hexValue c).getD 0) = c.toLower
  utf8Size : c.utf8Size = 1
  notSpace : isSpace c = false
  -- None of the characters that the client's parsers treat in a way of their own.
  notSpecial : c ∉ ['u', 'x', 'X', '+', '-', '\x7b', '\x7d']

theorem hexChar_of_isSome (hhex : (hexValue c).isSome) : HexChar c := by
  have hall : ∀ n : Fin 103, (hexValue (Char.ofNat n)).isSome → (hexValue (Char.ofNat n)).getD 0 < 16 ∧
      hexDigit ((hexValue (Char.ofNat n)).getD 0) = (Char.ofNat n).toLower ∧
      (Char.ofNat n).utf8Size = 1 ∧ isSpace (Char.ofNat n) = false ∧
      Char.ofNat n ∉ ['u', 'x', 'X', '+', '-', '\x7b', '\x7d'] := by
    decide +kernel
  have hc := hall ⟨c.toNat, toNat_lt_of_hexValue hhex⟩
  rw [Char.ofNat_toNat] at hc
  obtain ⟨hvalue, hdigit, hsize, hspace, hspecial⟩ := hc hhex
  exact ⟨hvalue, hdigit, hsize, hspace, hspecial⟩

theorem notMem_of_special (hhex : ∀ c ∈ cs, (hexValue c).isSome)
    (hspecial : s ∈ ['u', 'x', 'X', '+', '-', '\x7b', '\x7d']) : s ∉ cs :=
  fun hmem => (hexChar_of_isSome (hhex s hmem)).notSpecial hspecial

theorem lt_of_mem_byteHalves (hmem : d ∈ halves 16 (bytes.map UInt8.toNat)) : d < 16 :=
  lt_of_mem_halves (fun _ hd' => toNat_lt_of_mem hd') hmem

theorem idFromUuidBytes_eq (bytes : Bytes) :
    idFromUuidBytes bytes = hyphenated ((halves 16 (bytes.map UInt8.toNat)).map hexDigit) := by
  rw [idFromUuidBytes, halves, flatMap_map, map_flatMap]
  rfl

theorem idFromUuidBytes_eq_textFromUuidBytes (hlength : bytes.length = 16) :
    idFromUuidBytes bytes = textFromUuidBytes bytes := by
  have hdigits : ∀ d ∈ halves 16 (bytes.map UInt8.toNat), d < 16 := fun d hd => lt_of_mem_byteHalves hd
  have hfixed := fixed_value (by decide) hdigits
  rw [value_halves, length_halves, length_map, hlength] at hfixed
  rw [idFromUuidBytes_eq, textFromUuidBytes, fromBeBytes, hfixed]

def compact (id : String) : List Char := id.toList.filter (· ≠ '-')

def canonicalId (id : String) : String := hyphenated ((compact id).map Char.toLower)

def digitValues (cs : List Char) : List Nat := cs.map fun c => (hexValue c).getD 0

def IsUuidText (id : String) : Prop :=
  (compact id).length = 32 ∧ ∀ c ∈ compact id, (hexValue c).isSome

theorem sum_utf8Size (hhex : ∀ c ∈ cs, (hexValue c).isSome) : (cs.map Char.utf8Size).sum = cs.length := by
  induction cs with
  | nil => rfl
  | cons c _ ih =>
    have hc := (hexChar_of_isSome (hhex c (by simp))).utf8Size
    rw [map_cons, sum_cons, hc, ih fun c' hc' => hhex c' (by simp [hc']), length_cons]
    omega

variable {id : String}

theorem uuidBytesFromId_eq_ok :
    uuidBytesFromId id = .ok bytes ↔ IsUuidText id ∧ bytes = pairs (compact id) := by
  unfold uuidBytesFromId
  simp only [← compact.eq_1]
  constructor
  · intro h
    split at h
    · cases h
    next hcond =>
      simp only [not_or, Decidable.not_not, all_eq_true] at hcond
      cases h
      exact ⟨⟨(sum_utf8Size hcond.2).symm.trans hcond.1, hcond.2⟩, rfl⟩
  · rintro ⟨⟨hlength, hhex⟩, rfl⟩
    rw [if_neg]
    simp only [not_or, Decidable.not_not, all_eq_true]
    exact ⟨(sum_utf8Size hhex).trans hlength, hhex⟩

theorem halves_pairs (hlength : cs.length = 2 * n) (hhex : ∀ c ∈ cs, (hexValue c).isSome) :
    (pairs cs).length = n ∧
      halves 16 ((pairs cs).map UInt8.toNat) = digitValues cs := by
  induction n generalizing cs with
  | zero =>
    obtain rfl := eq_nil_of_length_eq_zero hlength
    exact ⟨rfl, rfl⟩
  | succ _ ih =>
    obtain ⟨high, cs, rfl⟩ := exists_cons_of_length_pos (l := cs) (by omega)
    obtain ⟨low, cs, rfl⟩ := exists_cons_of_length_pos (l := cs) (by simp at hlength; omega)
    have hhigh := (hexChar_of_isSome (hhex high (by simp))).value_lt
    have hlow := (hexChar_of_isSome (hhex low (by simp))).value_lt
    obtain ⟨hpairs, hhalves⟩ := @ih cs (by simp at hlength; omega)
      fun c hc => hhex c (by simp [hc])
    refine ⟨by rw [pairs, length_cons, hpairs], ?_⟩
    have hbyte : (UInt8.ofNat ((hexValue high).getD 0 * 16 + (hexValue low).getD 0)).toNat =
        (hexValue high).getD 0 * 16 + (hexValue low).getD 0 :=
      UInt8.toNat_ofNat_of_lt (by simp [UInt8.size]; omega)
    have hdiv : ((hexValue high).getD 0 * 16 + (hexValue low).getD 0) / 16 =
        (hexValue high).getD 0 := by omega
    have hmod : ((hexValue high).getD 0 * 16 + (hexValue low).getD 0) % 16 = (hexValue low).getD 0 := by omega
    rw [pairs, map_cons, hbyte, halves, flatMap_cons, hdiv, hmod, ← halves, hhalves]
    rfl

theorem idFromUuidBytes_pairs (hid : IsUuidText id) :
    idFromUuidBytes (pairs (compact id)) = canonicalId id := by
  rw [idFromUuidBytes_eq, (halves_pairs (n := 16) hid.1 hid.2).2, canonicalId, digitValues, map_map]
  congr 1
  exact map_congr_left fun c hc => (hexChar_of_isSome (hid.2 c hc)).hexDigit_value

theorem compact_hyphenated (hno : '-' ∉ hex) : compact (hyphenated hex) = hex := by
  have hkeep : ∀ cs : List Char, '-' ∉ cs → cs.filter (· ≠ '-') = cs := by
    intro cs hcs
    rw [filter_eq_self]
    intro c hc
    have hne : c ≠ '-' := fun h => hcs (h ▸ hc)
    simpa using hne
  have htake (m n : Nat) : '-' ∉ (hex.drop m).take n :=
    fun h => hno (mem_of_mem_drop (mem_of_mem_take h))
  have hdrop (m : Nat) : '-' ∉ hex.drop m := fun h => hno (mem_of_mem_drop h)
  have hfirst : '-' ∉ hex.take 8 := fun h => hno (mem_of_mem_take h)
  have hjoin (m n : Nat) : (hex.drop m).take n ++ hex.drop (m + n) = hex.drop m := by
    rw [← drop_drop, take_append_drop]
  have hhyphen (cs : List Char) : ('-' :: cs).filter (· ≠ '-') = cs.filter (· ≠ '-') := by
    rw [filter_cons_of_neg (by decide)]
  rw [compact, hyphenated, String.toList_ofList]
  simp only [filter_append, append_assoc, cons_append, hhyphen, hkeep _ hfirst,
    hkeep _ (htake _ _), hkeep _ (hdrop _)]
  rw [hjoin 16 4, hjoin 12 4, hjoin 8 4, take_append_drop]

theorem compact_idFromUuidBytes (bytes : Bytes) : compact (idFromUuidBytes bytes) =
      (halves 16 (bytes.map UInt8.toNat)).map hexDigit := by
  rw [idFromUuidBytes_eq, compact_hyphenated]
  intro hmem
  obtain ⟨d, hd, hhyphen⟩ := mem_map.mp hmem
  have hall : ∀ n : Fin 16, hexDigit n ≠ '-' := by decide
  exact hall ⟨d, lt_of_mem_byteHalves hd⟩ hhyphen

theorem pairs_hexDigits (bytes : Bytes) :
    pairs ((halves 16 (bytes.map UInt8.toNat)).map hexDigit) = bytes := by
  induction bytes with
  | nil => rfl
  | cons byte bytes ih =>
    have hlt := byte.toNat_lt
    have hhigh := hexValue_hexDigit (n := byte.toNat / 16) (by omega)
    have hlow := hexValue_hexDigit (n := byte.toNat % 16) (by omega)
    have hcons : (halves 16 ((byte :: bytes).map UInt8.toNat)).map hexDigit =
        hexDigit (byte.toNat / 16) :: hexDigit (byte.toNat % 16) ::
          (halves 16 (bytes.map UInt8.toNat)).map hexDigit := rfl
    rw [hcons, pairs, ih, hhigh, hlow, Option.getD_some, Option.getD_some, Nat.div_add_mod',
      UInt8.ofNat_toNat]

theorem removeAll_of_notMem (hpattern : p ∈ pattern) (hnot : p ∉ cs) : removeAll pattern 0 cs = cs := by
  induction cs with
  | nil => rfl
  | cons c cs ih =>
    have hmatch : pattern.isPrefixOf (c :: cs) = false := by
      rw [Bool.eq_false_iff]
      intro h
      exact hnot ((List.isPrefixOf_iff_prefix.mp h).subset hpattern)
    rw [Python.removeAll, hmatch, if_neg (by decide), ih fun h => hnot (by simp [h])]

theorem strip_of_forall (hnone : ∀ c ∈ cs, p c = false) : strip p cs = cs := by
  have hdrop : ∀ cs : List Char, (∀ c ∈ cs, p c = false) → cs.dropWhile p = cs := by
    intro cs hcs
    cases cs with
    | nil => rfl
    | cons c => rw [dropWhile_cons, hcs c (by simp), if_neg (by decide)]
  rw [strip, hdrop cs hnone, hdrop _ fun c hc => hnone c (mem_reverse.mp hc), reverse_reverse]

section

variable (hhex : ∀ c ∈ cs, (hexValue c).isSome)
include hhex

theorem digits_of_hex (acc : Nat) :
    digits acc true cs = some ((digitValues cs).foldl (fun n d => n * 16 + d) acc) := by
  induction cs generalizing acc with
  | nil => rfl
  | cons c _ ih =>
    obtain ⟨d, hd⟩ := Option.isSome_iff_exists.mp (hhex c (by simp))
    simp only [digits, hd]
    rw [ih fun c' hc' => hhex c' (by simp [hc'])]
    simp [digitValues, hd]

theorem magnitude_of_hex (hne : cs ≠ []) : magnitude cs = some (value 16 (digitValues cs)) := by
  have hx : 'x' ∉ cs := notMem_of_special hhex (by decide)
  have hX : 'X' ∉ cs := notMem_of_special hhex (by decide)
  have hplain : magnitude cs = digits 0 false cs := by
    unfold magnitude
    split
    · simp at hx
    · simp at hX
    · simp at hx
    · simp at hX
    · rfl
  obtain ⟨c, cs, rfl⟩ := exists_cons_of_ne_nil hne
  obtain ⟨d, hd⟩ := Option.isSome_iff_exists.mp (hhex c (by simp))
  have hfold := @foldl_eq_value 16 0 (digitValues (c :: cs))
  rw [zero_mul, zero_add] at hfold
  rw [hplain, ← hfold]
  simp only [digits, hd]
  rw [digits_of_hex fun c' hc' => hhex c' (by simp [hc'])]
  simp [digitValues, hd]

theorem intBase16_of_hex (hne : cs ≠ []) : intBase16 cs = some (value 16 (digitValues cs) : Int) := by
  have hplus : '+' ∉ cs := notMem_of_special hhex (by decide)
  have hminus : '-' ∉ cs := notMem_of_special hhex (by decide)
  rw [intBase16, strip_of_forall fun c hc => (hexChar_of_isSome (hhex c hc)).notSpace]
  split
  · simp at hminus
  · simp at hplus
  · rw [magnitude_of_hex hhex hne]
    rfl

theorem value_digitValues_lt : value 16 (digitValues cs) < 16 ^ cs.length := by
  have hdigits : ∀ d ∈ digitValues cs, d < 16 := by
    intro d hd
    obtain ⟨c, hc, rfl⟩ := mem_map.mp hd
    exact (hexChar_of_isSome (hhex c hc)).value_lt
  have hlt := value_lt (by decide) hdigits
  rwa [digitValues, length_map] at hlt

end

theorem uuidFromText_of_isUuidText (hid : IsUuidText id) :
    uuidFromText id = some (value 16 (digitValues (compact id))) := by
  have hchar : ∀ c ∈ id.toList, c = '-' ∨ (hexValue c).isSome := by
    intro c hc
    by_cases hhyphen : c = '-'
    · exact .inl hhyphen
    · exact .inr (hid.2 c (mem_filter.mpr ⟨hc, by simpa using hhyphen⟩))
  have hu : 'u' ∉ id.toList := by
    intro h
    rcases hchar _ h with h | h
    all_goals exact absurd h (by decide)
  have hbraces : ∀ c ∈ id.toList, (c = '\x7b' || c = '\x7d') = false := by
    intro c hc
    rcases hchar c hc with rfl | h
    · decide
    have hspecial := (hexChar_of_isSome h).notSpecial
    simp only [mem_cons, not_or] at hspecial
    simp [hspecial]
  have hne : compact id ≠ [] := by
    intro h
    have hlength := hid.1
    rw [h] at hlength
    cases hlength
  have hlt := value_digitValues_lt hid.2
  rw [hid.1] at hlt
  simp only [uuidFromText]
  rw [removeAll_of_notMem (by decide) hu, removeAll_of_notMem (by decide) hu,
    strip_of_forall hbraces, ← compact.eq_1]
  rw [if_neg (not_not.mpr hid.1), intBase16_of_hex hid.2 hne]
  simp only
  rw [if_pos ⟨Int.natCast_nonneg _, by exact_mod_cast hlt⟩, Int.toNat_natCast]

/-- Both sides read one sequence of bytes from an id that the daemon accepts. -/
theorem toBeBytes_digitValues (hid : IsUuidText id) :
    toBeBytes 16 (value 16 (digitValues (compact id))) = pairs (compact id) := by
  obtain ⟨hlength, hhalves⟩ := halves_pairs (n := 16) hid.1 hid.2
  rw [← hhalves, value_halves]
  exact toBeBytes_fromBeBytes hlength

end Yuanrong.Tunnel
