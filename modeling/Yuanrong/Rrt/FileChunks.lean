import Yuanrong.Tunnel.BinaryEnvelope

/-!
# Hexadecimal file writes

A string is given by its UTF-8 bytes. `decode_hex` cuts it into pairs of bytes and fails on a bad
one; `fs_write` leaves a bad one out. Both read a pair with `from_str_radix`, which takes a plus
sign.
-/

namespace Yuanrong.Rrt

open List Option Bool

open Tunnel

variable {data bytes file : Bytes} {a b : UInt8}

def hexValue (b : UInt8) : Option Nat :=
  if 0x30 ≤ b ∧ b ≤ 0x39 then some (b.toNat - 0x30)
  else if 0x61 ≤ b ∧ b ≤ 0x66 then some (b.toNat - 0x57)
  else if 0x41 ≤ b ∧ b ≤ 0x46 then some (b.toNat - 0x37)
  else none

def hexDigit (n : Nat) : UInt8 := UInt8.ofNat (if n < 10 then 0x30 + n else 0x57 + n)

def lower (b : UInt8) : UInt8 := if 0x41 ≤ b ∧ b ≤ 0x5a then b + 0x20 else b

def plus : UInt8 := 0x2b

/-- `u8::from_str_radix` in base 16, for a text of two bytes. -/
def fromStrRadix (a b : UInt8) : Option UInt8 :=
  if a = plus then (hexValue b).map UInt8.ofNat
  else (hexValue a).bind fun x => (hexValue b).map fun y => UInt8.ofNat (x * 16 + y)

def startsChar (b : UInt8) : Bool := b < 0x80 ∨ 0xc0 ≤ b

/-- The loop of `decode_hex`; `none` is the panic of a slice that cuts a character. -/
def decodePairs : Bytes → Option (Except String Bytes)
  | a :: b :: rest =>
    if rest.head?.all startsChar then
      match fromStrRadix a b with
      | none => some (.error "invalid hex data: invalid digit found in string")
      | some byte => (decodePairs rest).map (·.map (byte :: ·))
    else none
  | _ => some (.ok [])

def decodeHex (data : Bytes) : Option (Except String Bytes) :=
  if data.length % 2 ≠ 0 then some (.error "hex data length must be even") else decodePairs data

def encodeHex (bytes : Bytes) : Bytes :=
  bytes.flatMap fun byte => [hexDigit (byte.toNat / 16), hexDigit (byte.toNat % 16)]

def fsWriteBytes : Bytes → Bytes
  | a :: b :: rest =>
    if startsChar a ∧ rest.head?.all startsChar then (fromStrRadix a b).toList ++ fsWriteBytes rest
    else fsWriteBytes rest
  | _ => []

/-- The file after `write_all` at an offset; offset zero truncates it. -/
def writeAt (file : Bytes) (offset : Nat) (bytes : Bytes) : Bytes :=
  let file := if offset = 0 then [] else file
  if bytes = [] then file
  else file.take offset ++ List.replicate (offset - file.length) 0 ++ bytes ++
    file.drop (offset + bytes.length)

def fsWriteChunk (file : Bytes) (offset : Int) (data : Bytes) : Option (Bytes × Except String Nat) :=
  (decodeHex data).map fun
    | .error e => (file, .error e)
    | .ok bytes => (writeAt file offset.toNat bytes, .ok bytes.length)

/-- How much a read returns where there is more: it may be less than it is asked for, but not
nothing. -/
def readSize (limit : Int) (read : Nat) : Nat :=
  min (max read 1) (max 1 (min limit (4 * 1024 * 1024))).toNat

def fsReadChunk (file : Bytes) (offset limit : Int) (read : Nat) : Bytes × Bool :=
  let bytes := (file.drop offset.toNat).take (readSize limit read)
  (encodeHex bytes, offset.toNat + bytes.length ≥ file.length)

def writeChunks (file : Bytes) (offset : Nat) : List Bytes → Option Bytes
  | [] => some file
  | data :: rest =>
    match fsWriteChunk file offset data with
    | some (file', .ok n) => writeChunks file' (offset + n) rest
    | _ => none

def readChunks (file : Bytes) (offset : Nat) : List (Int × Nat) → Option Bytes
  | [] => none
  | (limit, read) :: rest =>
    let (data, eof) := fsReadChunk file offset limit read
    if eof then some data else (readChunks file (offset + data.length / 2) rest).map (data ++ ·)

/-- Pairs that `from_str_radix` takes: two digits, or a plus sign and a digit. -/
def numbers : Bytes → Bool
  | [] => true
  | [_] => false
  | a :: b :: rest => (fromStrRadix a b).isSome && numbers rest

/-- After any pairs that are numbers, the next pair does not end inside a character. -/
def Uncut (data : Bytes) : Prop :=
  ∀ front a b c rest, data = front ++ a :: b :: c :: rest → numbers front = true → startsChar c = true

structure HexByte (b : UInt8) (x : Nat) : Prop where
  lt : x < 16
  hexDigit_eq : hexDigit x = lower b
  ne_plus : b ≠ plus
  startsChar : startsChar b

theorem hexByte (h : hexValue b = some x) : HexByte b x := by
  have hall : ∀ n : Fin 256, (hexValue (UInt8.ofNat n)).all (fun x => x < 16 ∧
      hexDigit x = lower (UInt8.ofNat n) ∧ UInt8.ofNat n ≠ plus ∧ startsChar (UInt8.ofNat n)) := by
    decide +kernel
  have hb := hall ⟨b.toNat, b.toNat_lt⟩
  simp only [UInt8.ofNat_toNat, h, all_some, decide_eq_true_eq] at hb
  exact ⟨hb.1, hb.2.1, hb.2.2.1, hb.2.2.2⟩

theorem hexValue_hexDigit (hlt : n < 16) : hexValue (hexDigit n) = some n := by
  have hall : ∀ n : Fin 16, hexValue (hexDigit n) = some n.val := by decide
  exact hall ⟨n, hlt⟩

theorem fromStrRadix_eq_some (ha : hexValue a = some x) (hb : hexValue b = some y) :
    fromStrRadix a b = some (UInt8.ofNat (x * 16 + y)) := by
  rw [fromStrRadix, if_neg (hexByte ha).ne_plus, ha, hb]
  rfl

theorem encodeHex_cons_of_value (ha : hexValue a = some x) (hb : hexValue b = some y) (bytes : Bytes) :
    encodeHex (UInt8.ofNat (x * 16 + y) :: bytes) = lower a :: lower b :: encodeHex bytes := by
  have hx := (hexByte ha).lt
  have hy := (hexByte hb).lt
  have hbyte : (UInt8.ofNat (x * 16 + y)).toNat = x * 16 + y :=
    UInt8.toNat_ofNat_of_lt (show x * 16 + y < 256 by omega)
  have hdiv : (x * 16 + y) / 16 = x := by omega
  have hmod : (x * 16 + y) % 16 = y := by omega
  rw [← (hexByte ha).hexDigit_eq, ← (hexByte hb).hexDigit_eq, encodeHex, flatMap_cons, hbyte, hdiv, hmod]
  rfl

theorem encodeHex_append (bytes bytes' : Bytes) :
    encodeHex (bytes ++ bytes') = encodeHex bytes ++ encodeHex bytes' := flatMap_append ..

theorem length_encodeHex (bytes : Bytes) : (encodeHex bytes).length = 2 * bytes.length := by
  induction bytes with
  | nil => rfl
  | cons _ _ ih =>
    rw [length_cons, ← singleton_append, encodeHex_append, length_append, ih]
    simp [encodeHex]
    omega

theorem uncut_cons (a b : UInt8) (rest : Bytes) : Uncut (a :: b :: rest) ↔
    rest.head?.all startsChar = true ∧ ((fromStrRadix a b).isSome = true → Uncut rest) := by
  constructor
  · intro h
    refine ⟨?_, fun hsome front x y c rest' heq hfront => ?_⟩
    · cases rest with
      | nil => rfl
      | cons c rest => exact h [] a b c rest rfl rfl
    · exact h (a :: b :: front) x y c rest' (by rw [heq]; rfl) (by simp [numbers, hsome, hfront])
  · rintro ⟨hhead, hrest⟩ front x y c rest' heq hfront
    rcases front with _ | ⟨p, _ | ⟨q, front⟩⟩
    · cases heq
      exact hhead
    · cases hfront
    · cases heq
      rw [numbers, and_eq_true] at hfront
      exact hrest hfront.1 front x y c rest' rfl hfront.2

theorem uncut_of_short (hshort : ∀ a b rest, data = a :: b :: rest → False) : Uncut data := by
  intro front a b c rest heq
  rcases front with _ | ⟨p, _ | ⟨q, front⟩⟩
  all_goals exact (hshort _ _ _ heq).elim

theorem eq_nil_of_short (heven : data.length % 2 = 0) (hshort : ∀ a b rest, data = a :: b :: rest → False) :
    data = [] := by
  rcases data with _ | ⟨a, _ | ⟨b, rest⟩⟩
  · rfl
  · simp at heven
  · exact (hshort a b rest rfl).elim

/-- The loop panics exactly on a cut character, and ends with bytes exactly if all pairs are
numbers. -/
theorem decodePairs_spec (heven : data.length % 2 = 0) :
    ((decodePairs data).isSome = true ↔ Uncut data) ∧
      (Uncut data → ((∃ bytes, decodePairs data = some (.ok bytes)) ↔ numbers data = true)) := by
  fun_induction decodePairs data with
  | case1 a b rest hhead hnone =>
    rw [uncut_cons, numbers, hnone]
    simp [hhead]
  | case2 a b rest hhead byte hbyte ih =>
    rw [length_cons, length_cons] at heven
    obtain ⟨hsome, hnumbers⟩ := ih (by omega)
    rw [uncut_cons, numbers, hbyte, isSome_map, hsome]
    refine ⟨by simp [hhead], fun huncut => ?_⟩
    rw [isSome_some, Bool.true_and, ← hnumbers (huncut.2 rfl)]
    constructor
    · rintro ⟨bytes, h⟩
      obtain ⟨_ | bytes', hrest, hmap⟩ := map_eq_some_iff.mp h
      · cases hmap
      · exact ⟨bytes', hrest⟩
    · rintro ⟨bytes', hrest⟩
      exact ⟨byte :: bytes', by rw [hrest]; rfl⟩
  | case3 a b rest hcut =>
    rw [uncut_cons]
    simp [hcut]
  | case4 data hshort =>
    refine ⟨iff_of_true rfl (uncut_of_short hshort), fun _ => iff_of_true ⟨[], rfl⟩ ?_⟩
    rw [eq_nil_of_short heven hshort]
    rfl

theorem encodeHex_of_decodePairs (heven : data.length % 2 = 0) (hunsigned : plus ∉ data)
    (h : decodePairs data = some (.ok bytes)) : encodeHex bytes = data.map lower := by
  fun_induction decodePairs data generalizing bytes with
  | case1 | case3 => cases h
  | case2 a b rest _ _ hbyte ih =>
    rw [length_cons, length_cons] at heven
    obtain ⟨outcome, hrest, hmap⟩ := map_eq_some_iff.mp h
    cases outcome with
    | error => cases hmap
    | ok bytes' =>
      cases hmap
      rw [fromStrRadix, if_neg (ne_of_mem_of_not_mem mem_cons_self hunsigned)] at hbyte
      obtain ⟨x, hx, hbyte⟩ := bind_eq_some_iff.mp hbyte
      obtain ⟨y, hy, rfl⟩ := map_eq_some_iff.mp hbyte
      exact (encodeHex_cons_of_value hx hy bytes').trans
        (congrArg (lower a :: lower b :: ·) (ih (by omega)
          (fun h => hunsigned (mem_cons_of_mem _ (mem_cons_of_mem _ h))) hrest))
  | case4 data hshort =>
    cases h
    rw [eq_nil_of_short heven hshort]
    rfl

/-- What is the rendering of some bytes, up to the case of letters, is made of digits. -/
theorem hexValue_of_encodeHex (h : encodeHex bytes = data.map lower) (hb : b ∈ data) :
    (hexValue b).isSome = true := by
  have hall : ∀ n : Fin 16, ∀ k : Fin 256, lower (UInt8.ofNat k) = hexDigit n →
      (hexValue (UInt8.ofNat k)).isSome = true := by decide +kernel
  have hmem : lower b ∈ encodeHex bytes := h ▸ mem_map_of_mem hb
  obtain ⟨byte, -, hdigit⟩ := mem_flatMap.mp hmem
  have hlt := byte.toNat_lt
  have hdigit : ∃ n : Fin 16, lower b = hexDigit n := by
    rcases mem_pair.mp hdigit with heq | heq
    · exact ⟨⟨byte.toNat / 16, by omega⟩, heq⟩
    · exact ⟨⟨byte.toNat % 16, by omega⟩, heq⟩
  obtain ⟨n, hn⟩ := hdigit
  have hvalue := hall n ⟨b.toNat, b.toNat_lt⟩
  rw [UInt8.ofNat_toNat] at hvalue
  exact hvalue hn

/-- `decode_hex` neither panics nor accepts what is not the rendering of the bytes it returns. -/
def DecodesExactly (data : Bytes) : Prop :=
  ∃ result, decodeHex data = some result ∧ ∀ bytes, result = .ok bytes → encodeHex bytes = data.map lower

theorem decodesExactly_iff (data : Bytes) : DecodesExactly data ↔ data.length % 2 ≠ 0 ∨
    (Uncut data ∧ (numbers data = true → plus ∉ data)) := by
  unfold DecodesExactly decodeHex
  by_cases heven : data.length % 2 = 0
  · rw [if_neg (not_not.mpr heven)]
    obtain ⟨hsome, hnumbers⟩ := decodePairs_spec heven
    constructor
    · rintro ⟨result, hresult, hexact⟩
      have huncut := hsome.mp (by rw [hresult]; rfl)
      refine .inr ⟨huncut, fun hall hplus => ?_⟩
      obtain ⟨bytes, hbytes⟩ := (hnumbers huncut).mpr hall
      cases hresult.symm.trans hbytes
      exact absurd (hexValue_of_encodeHex (hexact bytes rfl) hplus) (by decide)
    · rintro (hodd | ⟨huncut, hunsigned⟩)
      · exact absurd heven hodd
      obtain ⟨result, hresult⟩ := isSome_iff_exists.mp (hsome.mpr huncut)
      refine ⟨result, hresult, ?_⟩
      rintro bytes rfl
      exact encodeHex_of_decodePairs heven
        (hunsigned ((hnumbers huncut).mp ⟨bytes, hresult⟩)) hresult
  · rw [if_pos heven]
    exact iff_of_true ⟨_, rfl, fun _ h => by cases h⟩ (.inl heven)

theorem encodeHex_fsWriteBytes (heven : data.length % 2 = 0) (hhex : ∀ b ∈ data, (hexValue b).isSome) :
    encodeHex (fsWriteBytes data) = data.map lower := by
  fun_induction fsWriteBytes data with
  | case1 a b _ _ ih =>
    rw [length_cons, length_cons] at heven
    obtain ⟨x, hx⟩ := isSome_iff_exists.mp (hhex a (by simp))
    obtain ⟨y, hy⟩ := isSome_iff_exists.mp (hhex b (by simp))
    rw [fromStrRadix_eq_some hx hy]
    exact (encodeHex_cons_of_value hx hy _).trans
      (congrArg (lower a :: lower b :: ·) (ih (by omega) fun c hc => hhex c (by simp [hc])))
  | case2 a b rest hcut =>
    -- digits are characters of one byte
    have hstarts : ∀ c ∈ a :: b :: rest, startsChar c := by
      intro c hc
      obtain ⟨x, hx⟩ := isSome_iff_exists.mp (hhex c hc)
      exact (hexByte hx).startsChar
    refine absurd ⟨hstarts a (by simp), ?_⟩ hcut
    cases rest with
    | nil => rfl
    | cons c => exact hstarts c (by simp)
  | case3 data hshort =>
    rw [eq_nil_of_short heven hshort]
    rfl

theorem fsWriteBytes_exact_iff (data : Bytes) : encodeHex (fsWriteBytes data) = data.map lower ↔
    data.length % 2 = 0 ∧ ∀ b ∈ data, (hexValue b).isSome := by
  constructor
  · intro h
    have hlength := congrArg length h
    rw [length_encodeHex, length_map] at hlength
    exact ⟨by omega, fun b hb => hexValue_of_encodeHex h hb⟩
  · rintro ⟨heven, hhex⟩
    exact encodeHex_fsWriteBytes heven hhex

theorem decodePairs_encodeHex (bytes : Bytes) : decodePairs (encodeHex bytes) = some (.ok bytes) := by
  induction bytes with
  | nil => rfl
  | cons byte bytes ih =>
    have hlt := byte.toNat_lt
    have hhigh := @hexValue_hexDigit (byte.toNat / 16) (by omega)
    have hlow := @hexValue_hexDigit (byte.toNat % 16) (by omega)
    have hstarts : (encodeHex bytes).head?.all startsChar := by
      cases bytes with
      | nil => rfl
      | cons next =>
        have hnext := next.toNat_lt
        exact (hexByte (@hexValue_hexDigit (next.toNat / 16) (by omega))).startsChar
    change decodePairs (hexDigit (byte.toNat / 16) :: hexDigit (byte.toNat % 16) :: encodeHex bytes) = _
    rw [decodePairs, if_pos hstarts, fromStrRadix_eq_some hhigh hlow, ih, Nat.div_add_mod', UInt8.ofNat_toNat]
    rfl

theorem decodeHex_encodeHex (bytes : Bytes) : decodeHex (encodeHex bytes) = some (.ok bytes) := by
  rw [decodeHex, if_neg (by rw [length_encodeHex]; omega), decodePairs_encodeHex]

theorem fsWriteChunk_encodeHex (file bytes : Bytes) :
    fsWriteChunk file file.length (encodeHex bytes) = some (file ++ bytes, .ok bytes.length) := by
  have hfile : (if file.length = 0 then [] else file) = file := by
    split
    case isTrue hnil => exact (eq_nil_of_length_eq_zero hnil).symm
    case isFalse => rfl
  simp only [fsWriteChunk, decodeHex_encodeHex, map_some, writeAt, Int.toNat_natCast, hfile]
  split
  case isTrue hnil => rw [hnil, append_nil]
  case isFalse => simp

theorem writeChunks_encodeHex (file : Bytes) (chunks : List Bytes) :
    writeChunks file file.length (chunks.map encodeHex) = some (file ++ chunks.flatten) := by
  induction chunks generalizing file with
  | nil => simp [writeChunks]
  | cons bytes _ ih =>
    rw [map_cons, writeChunks, fsWriteChunk_encodeHex]
    have hrest := ih (file ++ bytes)
    rw [length_append, append_assoc] at hrest
    exact hrest

theorem readChunks_eq (file : Bytes) (offset : Nat) (henough : file.length - offset < reads.length) :
    readChunks file offset reads = some (encodeHex (file.drop offset)) := by
  induction reads generalizing offset with
  | nil => simp at henough
  | cons read _ ih =>
    obtain ⟨limit, n⟩ := read
    have hpos : 1 ≤ readSize limit n := by
      unfold readSize
      omega
    simp only [readChunks, fsReadChunk, Int.toNat_natCast, decide_eq_true_eq, length_encodeHex,
      Nat.mul_div_cancel_left _ Nat.two_pos, length_take, length_drop]
    rw [length_cons] at henough
    split
    case isTrue heof => rw [take_of_length_le (by rw [length_drop]; omega)]
    rename_i heof
    have hall : min (readSize limit n) (file.length - offset) = readSize limit n := by omega
    rw [hall, ih (offset + readSize limit n) (by omega), map_some, ← encodeHex_append,
      ← drop_drop, take_append_drop]

/-- **Binary writes.** When a chunk is decoded exactly, when `fs_write` writes what it was given,
and that chunks are read back. -/
theorem binary_writes (data : Bytes) :
    (DecodesExactly data ↔ data.length % 2 ≠ 0 ∨
      (Uncut data ∧ (numbers data = true → plus ∉ data))) ∧
    (encodeHex (fsWriteBytes data) = data.map lower ↔
      data.length % 2 = 0 ∧ ∀ b ∈ data, (hexValue b).isSome) ∧
    (∀ (file : Bytes) (chunks : List Bytes) (reads : List (Int × Nat)), chunks ≠ [] →
      chunks.flatten.length < reads.length →
      (writeChunks file 0 (chunks.map encodeHex)).bind (readChunks · 0 reads) =
        some (encodeHex chunks.flatten)) := by
  refine ⟨decodesExactly_iff data, fsWriteBytes_exact_iff data, ?_⟩
  intro file chunks reads hne henough
  -- the first chunk is written at offset zero, whatever the file was before
  have hfile : writeChunks file 0 (chunks.map encodeHex) = writeChunks [] 0 (chunks.map encodeHex) := by
    cases chunks with
    | nil => exact absurd rfl hne
    | cons bytes =>
      have hfirst : fsWriteChunk file (0 : Nat) (encodeHex bytes) =
          fsWriteChunk [] (0 : Nat) (encodeHex bytes) := by
        rw [fsWriteChunk, fsWriteChunk, decodeHex_encodeHex]
        rfl
      rw [map_cons, writeChunks, writeChunks, hfirst]
  rw [hfile]
  have hwrite := writeChunks_encodeHex [] chunks
  rw [length_nil, nil_append] at hwrite
  rw [hwrite, bind_some, readChunks_eq _ 0 (by omega), drop_zero]

/-- Of `zzaéa` the first pair is refused before the character that is cut later. -/
theorem binary_writes_refused : let data : Bytes := [0x7a, 0x7a, 0x61, 0xc3, 0xa9, 0x61]
    DecodesExactly data ∧ ¬encodeHex (fsWriteBytes data) = data.map lower ∧
      (writeChunks [1] 0 ([[2], [3]].map encodeHex)).bind (readChunks · 0 [(1, 1), (1, 1), (1, 1)]) =
        some (encodeHex [2, 3]) := by
  intro data
  obtain ⟨hchunk, hwrite, hread⟩ := binary_writes data
  refine ⟨hchunk.mpr (.inr ⟨?_, fun h => absurd h (by decide)⟩), fun h => ?_,
    hread [1] [[2], [3]] _ (by simp) (by decide)⟩
  · exact (uncut_cons _ _ _).mpr ⟨by decide, fun h => absurd h (by decide)⟩
  · exact absurd ((hwrite.mp h).2 0x7a (by decide)) (by decide)

/-- The decoder panics on `aéa`, takes `+f` for a byte, and `fs_write` writes nothing of `zz0`. -/
theorem binary_writes_corrupt :
    decodeHex [0x61, 0xc3, 0xa9, 0x61] = none ∧ decodeHex [0x2b, 0x66] = some (.ok [15]) ∧
      encodeHex [15] ≠ [0x2b, 0x66] ∧ fsWriteBytes [0x7a, 0x7a, 0x30] = [] := by
  decide +kernel

end Yuanrong.Rrt
