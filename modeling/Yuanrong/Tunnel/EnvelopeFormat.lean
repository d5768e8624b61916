import Yuanrong.Tunnel.EnvelopeText

/-!
# One format for two codecs

A `Frame` is what an envelope is on the wire. The encoders of the daemon and of the client write the
bytes of a frame, and their decoders accept the bytes of frames and nothing else.
-/

namespace Yuanrong.Tunnel

open List Option Rust Nat Positional Int

def layout (m₀ m₁ version kind idLength : UInt8) (id : Bytes) (flags : UInt8) (size body : Bytes) :
    Bytes :=
  m₀ :: m₁ :: version :: kind :: idLength :: (id ++ flags :: (size ++ body))

theorem exists_layout (hlength : 26 ≤ raw.length) :
    ∃ m₀ m₁ version kind idLength id flags size body, id.length = 16 ∧ size.length = 4 ∧
      raw = layout m₀ m₁ version kind idLength id flags size body := by
  obtain ⟨m₀, raw, rfl⟩ := exists_cons_of_length_pos (l := raw) (by omega)
  obtain ⟨m₁, raw, rfl⟩ := exists_cons_of_length_pos (l := raw) (by simp at hlength; omega)
  obtain ⟨version, raw, rfl⟩ := exists_cons_of_length_pos (l := raw) (by simp at hlength; omega)
  obtain ⟨kind, raw, rfl⟩ := exists_cons_of_length_pos (l := raw) (by simp at hlength; omega)
  obtain ⟨idLength, raw, rfl⟩ := exists_cons_of_length_pos (l := raw) (by simp at hlength; omega)
  simp only [length_cons] at hlength
  obtain ⟨flags, rest, hrest⟩ := exists_cons_of_length_pos (l := raw.drop 16) (by rw [length_drop]; omega)
  have hrestLength : rest.length + 1 = raw.length - 16 := by rw [← length_cons, ← hrest, length_drop]
  refine ⟨m₀, m₁, version, kind, idLength, raw.take 16, flags, rest.take 4, rest.drop 4,
    by rw [length_take]; omega, by rw [length_take]; omega, ?_⟩
  rw [layout, take_append_drop, ← hrest, take_append_drop]

section Layout

variable {m₀ m₁ version kind idLength flags : UInt8} {id size body : Bytes}

section

variable (hid : id.length = 16)
include hid

theorem length_layout (hsize : size.length = 4) :
    (layout m₀ m₁ version kind idLength id flags size body).length = 26 + body.length := by
  simp only [layout, length_cons, length_append, hid, hsize]
  omega

theorem id_layout : ((layout m₀ m₁ version kind idLength id flags size body).drop 5).take 16 = id := by
  rw [← hid]
  simp [layout]

theorem drop_layout (n : Nat) : (layout m₀ m₁ version kind idLength id flags size body).drop (21 + n) =
      (flags :: (size ++ body)).drop n := by
  have hsplit : 21 + n = id.length + n + 5 := by omega
  rw [hsplit]
  simp [layout, drop_append]

theorem flags_layout : (layout m₀ m₁ version kind idLength id flags size body).getD 21 0 = flags := by
  have hdrop := @drop_layout m₀ m₁ version kind idLength flags id size body hid 0
  rw [getD_eq_getElem?_getD, ← add_zero 21, ← List.getElem?_drop, hdrop]
  rfl

theorem size_layout (hsize : size.length = 4) :
    ((layout m₀ m₁ version kind idLength id flags size body).drop 22).take 4 = size := by
  rw [drop_layout hid 1, ← hsize]
  simp

theorem body_layout (hsize : size.length = 4) :
    (layout m₀ m₁ version kind idLength id flags size body).drop binaryHeaderBytes = body := by
  have hbody := @drop_layout m₀ m₁ version kind idLength flags id size body hid 5
  rw [binaryHeaderBytes, hbody, drop_succ_cons, ← hsize, drop_left]

end

theorem append_eq_layout : binaryMagic ++ [version, kind, idLength] ++ id ++ [flags] ++ size ++ body =
      layout 0x59 0x44 version kind idLength id flags size body := by
  simp [layout, binaryMagic]

end Layout

def frameFlags (endOfBody hasOffset : Bool) : UInt8 :=
  (if endOfBody then binaryEndOfBody else 0) ||| (if hasOffset then binaryHasOffset else 0)

theorem frameFlags_false (endOfBody : Bool) :
    frameFlags endOfBody false = if endOfBody then binaryEndOfBody else 0 := by
  cases endOfBody <;> rfl

theorem frameFlags_facts (endOfBody hasOffset : Bool) :
    frameFlags endOfBody hasOffset &&& ~~~(binaryEndOfBody ||| binaryHasOffset) = 0 ∧
      (frameFlags endOfBody hasOffset &&& binaryHasOffset ≠ 0 ↔ hasOffset = true) ∧
      decide (frameFlags endOfBody hasOffset &&& binaryEndOfBody ≠ 0) = endOfBody := by
  cases endOfBody <;> cases hasOffset <;> decide

theorem eq_frameFlags (hknown : flags &&& ~~~(binaryEndOfBody ||| binaryHasOffset) = 0) :
    flags = frameFlags (decide (flags &&& binaryEndOfBody ≠ 0))
      (decide (flags &&& binaryHasOffset ≠ 0)) := by
  have hall : ∀ n : Fin 256, UInt8.ofNat n &&& ~~~(binaryEndOfBody ||| binaryHasOffset) = 0 →
      UInt8.ofNat n = frameFlags (decide (UInt8.ofNat n &&& binaryEndOfBody ≠ 0))
        (decide (UInt8.ofNat n &&& binaryHasOffset ≠ 0)) := by
    decide +kernel
  have hflags := hall ⟨flags.toNat, flags.toNat_lt⟩
  simp only [UInt8.ofNat_toNat] at hflags
  exact hflags hknown

theorem BinaryKind.toByte_of_ofByte (hkind : ofByte byte = some kind) : byte = kind.toByte := by
  unfold ofByte at hkind
  split_ifs at hkind with h₁ h₂ h₃
  · cases hkind
    exact h₁
  · cases hkind
    exact h₂
  · cases hkind
    exact h₃

structure Frame where
  id : Bytes
  kind : BinaryKind
  payload : Bytes
  endOfBody : Bool
  offset : Option Nat
  length_id : id.length = 16
  offset_lt : ∀ n ∈ offset, n < 2 ^ 64

namespace Frame

variable (f : Frame)

def body : Bytes := (f.offset.map (toBeBytes 8)).getD [] ++ f.payload

def bytes : Bytes :=
  layout 0x59 0x44 binaryEnvelopeVersion f.kind.toByte 16 f.id
    (frameFlags f.endOfBody f.offset.isSome) (toBeBytes 4 f.body.length) f.body

def envelope : BinaryEnvelope :=
  { id := idFromUuidBytes f.id, kind := f.kind, payload := f.payload,
    endOfBody := f.endOfBody, offset := f.offset.map Int.ofNat }

theorem body_none (hoffset : f.offset = none) : f.body = f.payload := by
  rw [body, hoffset]
  rfl

theorem body_some (hoffset : f.offset = some n) : f.body = toBeBytes 8 n ++ f.payload := by
  rw [body, hoffset]
  rfl

theorem length_offset (hoffset : f.offset = some n) : (toBeBytes 8 n).length = 8 :=
  length_toBeBytes (lt_of_lt_of_eq (f.offset_lt n hoffset) (by norm_num))

theorem length_body : f.body.length = f.payload.length + if f.offset.isSome then 8 else 0 := by
  cases hoffset : f.offset with
  | none => simp [f.body_none hoffset]
  | some =>
    rw [f.body_some hoffset, length_append, f.length_offset hoffset, isSome_some, if_pos rfl, add_comm]

end Frame

/-- The decoders test in different orders and report errors differently; apart from that they
agree. -/
theorem decode_toOption_eq (raw : Bytes) (maxPayload : Nat) :
    (decode raw maxPayload).toOption = (Python.decode raw maxPayload).toOption := by
  by_cases hshort : raw.length < binaryHeaderBytes
  · rw [decode, Python.decode, if_pos hshort, if_pos hshort]
  have hid : ((raw.drop 5).take 16).length = 16 := by
    rw [length_take, length_drop]
    simp only [binaryHeaderBytes] at hshort
    omega
  unfold decode Python.decode
  simp only [if_neg hshort, idFromUuidBytes_eq_textFromUuidBytes hid, length_drop]
  by_cases hmagic : raw.take 2 ≠ binaryMagic
  · rw [if_pos hmagic, if_pos hmagic]
  rw [if_neg hmagic, if_neg hmagic]
  by_cases hversion : raw.getD 2 0 ≠ binaryEnvelopeVersion
  · rw [if_pos hversion, if_pos hversion]
  rw [if_neg hversion, if_neg hversion]
  by_cases hidLength : raw.getD 4 0 ≠ 16
  · rw [if_pos hidLength]
    cases BinaryKind.ofByte (raw.getD 3 0) with
    | none => rfl
    | some => simp only [if_pos hidLength]
  rw [if_neg hidLength]
  cases BinaryKind.ofByte (raw.getD 3 0) with
  | none => rfl
  | some =>
    simp only [if_neg hidLength]
    by_cases hoffset : raw.getD 21 0 &&& binaryHasOffset ≠ 0
    · simp only [if_pos hoffset]
    · simp only [if_neg hoffset]

variable {maxPayload : Nat}

theorem Rust.decode_bytes (f : Frame) (hlimit : maxPayload + 8 < 2 ^ 32)
    (hpayload : f.payload.length ≤ maxPayload) : decode f.bytes maxPayload = .ok f.envelope := by
  have hbody := f.length_body
  have hbodyLt : f.body.length < 256 ^ 4 := by
    rw [hbody]
    split <;> omega
  have hsize := length_toBeBytes hbodyLt
  obtain ⟨hknown, hhas, hend⟩ := frameFlags_facts f.endOfBody f.offset.isSome
  have hlength : f.bytes.length = 26 + f.body.length := length_layout f.length_id hsize
  unfold decode
  rw [Frame.bytes] at hlength ⊢
  rw [if_neg (by rw [hlength, binaryHeaderBytes]; omega), id_layout f.length_id,
    flags_layout f.length_id, size_layout f.length_id hsize, body_layout f.length_id hsize, hlength,
    fromBeBytes_toBeBytes hbodyLt]
  rw [if_neg (by simp [layout, binaryMagic]), if_neg (by simp [layout])]
  have hkind : (layout 0x59 0x44 binaryEnvelopeVersion f.kind.toByte 16 f.id
      (frameFlags f.endOfBody f.offset.isSome) (toBeBytes 4 f.body.length) f.body).getD 3 0 =
      f.kind.toByte := rfl
  have hof : BinaryKind.ofByte f.kind.toByte = some f.kind := by cases f.kind <;> rfl
  rw [hkind, hof]
  simp only
  rw [if_neg (by simp [layout]), if_neg (not_not.mpr hknown)]
  cases hoffset : f.offset with
  | none =>
    rw [hoffset] at hhas hend hbody
    have hnot : ¬ frameFlags f.endOfBody (none : Option Nat).isSome &&& binaryHasOffset ≠ 0 :=
      fun h => absurd (hhas.mp h) (by decide)
    simp only [isSome_none, Bool.false_eq_true, if_false, add_zero] at hbody
    simp only [hnot, false_and, if_false, add_zero, hend]
    rw [if_neg (by omega), if_neg (by simp [binaryHeaderBytes]), if_neg (by omega)]
    simp [Frame.envelope, hoffset, f.body_none hoffset]
  | some n =>
    rw [hoffset] at hhas hend hbody
    have hset : frameFlags f.endOfBody (some n).isSome &&& binaryHasOffset ≠ 0 := hhas.mpr rfl
    have hoffsetLength := f.length_offset hoffset
    have hnlt : n < 256 ^ 8 := lt_of_lt_of_eq (f.offset_lt n hoffset) (by norm_num)
    simp only [isSome_some, if_true] at hbody
    have htake : f.body.take 8 = toBeBytes 8 n := by rw [f.body_some hoffset, take_left' hoffsetLength]
    have hdrop : f.body.drop 8 = f.payload := by rw [f.body_some hoffset, drop_left' hoffsetLength]
    simp only [if_pos hset, hend, htake, hdrop, fromBeBytes_toBeBytes hnlt]
    rw [if_neg (by omega), if_neg (by simp [binaryHeaderBytes]),
      if_neg (fun h => absurd h.2 (by omega)), if_neg (by omega)]
    simp [Frame.envelope, hoffset]

theorem ite_error_eq_ok {ε α : Type} {c : Prop} [Decidable c] {e : ε} {x : Except ε α} {a : α} :
    (if c then .error e else x) = .ok a ↔ ¬ c ∧ x = .ok a := by
  by_cases hc : c
  · simp [hc]
  · simp [hc]

variable {env : BinaryEnvelope}

theorem Rust.exists_frame (hdecode : decode raw maxPayload = .ok env) :
    ∃ f : Frame, f.payload.length ≤ maxPayload ∧ f.bytes = raw ∧ f.envelope = env := by
  by_cases hshort : raw.length < binaryHeaderBytes
  · rw [decode, if_pos hshort] at hdecode
    cases hdecode
  obtain ⟨m₀, m₁, version, kindByte, idLength, id, flags, size, body, hid, hsize, rfl⟩ :=
    exists_layout (Nat.le_of_not_lt hshort)
  unfold decode at hdecode
  rw [if_neg hshort, id_layout hid, flags_layout hid, size_layout hid hsize, body_layout hid hsize,
    length_layout hid hsize] at hdecode
  simp only [layout, take_succ_cons, take_zero, getD_cons_succ, getD_cons_zero] at hdecode
  simp only [ite_error_eq_ok] at hdecode
  obtain ⟨hmagic, hversion, hdecode⟩ := hdecode
  obtain ⟨kind, hkind⟩ : ∃ kind, BinaryKind.ofByte kindByte = some kind := by
    cases hkind : BinaryKind.ofByte kindByte with
    | none =>
      rw [hkind] at hdecode
      cases hdecode
    | some kind => exact ⟨kind, rfl⟩
  simp only [hkind, ite_error_eq_ok] at hdecode
  obtain ⟨hidLength, hknown, -, hstated, henough, hpayload, hdecode⟩ := hdecode
  have hflags := eq_frameFlags (not_not.mp hknown)
  have hsizeEq : toBeBytes 4 body.length = size := by
    have hlength : body.length = fromBeBytes size := by
      rw [← not_not.mp hstated, binaryHeaderBytes]
      omega
    rw [hlength]
    exact toBeBytes_fromBeBytes hsize
  have hmagicEq : m₀ = 0x59 ∧ m₁ = 0x44 := by simpa [binaryMagic] using hmagic
  obtain ⟨rfl, rfl⟩ := hmagicEq
  obtain rfl := not_not.mp hversion
  obtain rfl := not_not.mp hidLength
  obtain rfl := BinaryKind.toByte_of_ofByte hkind
  -- The limit, the offset and the payload all depend on the flag.
  by_cases hoffset : flags &&& binaryHasOffset ≠ 0
  · simp only [if_pos hoffset] at hpayload hdecode
    cases hdecode
    have hbodyLength : 8 ≤ body.length := Nat.le_of_not_lt fun h => henough ⟨hoffset, h⟩
    have htake : (body.take 8).length = 8 := by rw [length_take]; omega
    have hlt := fromBeBytes_lt (body.take 8)
    rw [htake] at hlt
    refine ⟨{ id, kind, payload := body.drop 8, endOfBody := decide (flags &&& binaryEndOfBody ≠ 0),
              offset := some (fromBeBytes (body.take 8)), length_id := hid, offset_lt := ?_ },
      Nat.le_of_not_lt hpayload, ?_, rfl⟩
    · intro n hn
      cases hn
      exact lt_of_lt_of_eq hlt (by norm_num)
    · have hbody : toBeBytes 8 (fromBeBytes (body.take 8)) ++ body.drop 8 = body := by
        rw [toBeBytes_fromBeBytes htake, take_append_drop]
      rw [decide_eq_true hoffset] at hflags
      simp only [Frame.bytes, Frame.body, map_some, getD_some, isSome_some]
      rw [hbody, hsizeEq, ← hflags]
  · simp only [if_neg hoffset] at hpayload hdecode
    cases hdecode
    refine ⟨{ id, kind, payload := body, endOfBody := decide (flags &&& binaryEndOfBody ≠ 0),
              offset := none, length_id := hid, offset_lt := fun n hn => by cases hn },
      Nat.le_of_not_lt hpayload, ?_, rfl⟩
    rw [decide_eq_false hoffset] at hflags
    simp only [Frame.bytes, Frame.body, map_none, getD_none, isSome_none, nil_append]
    rw [hsizeEq, ← hflags]

/-- A frame that carries an envelope: everything but the text of the id is the same. -/
structure Frame.Carries (f : Frame) (env : BinaryEnvelope) : Prop where
  isUuidText : IsUuidText env.id
  id : f.id = pairs (compact env.id)
  kind : f.kind = env.kind
  payload : f.payload = env.payload
  endOfBody : f.endOfBody = env.endOfBody
  offset : f.offset.map Int.ofNat = env.offset

section

variable {f : Frame} (hlimit : maxPayload + 8 < 2 ^ 32) (hpayload : f.payload.length ≤ maxPayload)
  (hcarries : f.Carries env)
include hlimit hpayload hcarries

theorem Rust.encode_eq : encode env maxPayload = .ok f.bytes := by
  have hid : uuidBytesFromId env.id = .ok f.id :=
    uuidBytesFromId_eq_ok.mpr ⟨hcarries.isUuidText, hcarries.id⟩
  rw [encode, ← hcarries.payload, ← hcarries.kind, ← hcarries.endOfBody, ← hcarries.offset,
    if_neg (by omega), hid]
  have hbody := f.length_body
  cases hoffset : f.offset with
  | none =>
    simp only [hoffset, isSome_none, Bool.false_eq_true, if_false, add_zero] at hbody
    have hmod : f.payload.length % 2 ^ 32 = f.payload.length := mod_eq_of_lt (by omega)
    simp only [map_none, isSome_none, Bool.false_eq_true, if_false, add_zero,
      hmod, bind, Except.bind, pure, Except.pure, append_nil]
    rw [append_eq_layout, Frame.bytes, hoffset, f.body_none hoffset, isSome_none, frameFlags_false]
  | some n =>
    simp only [hoffset, isSome_some, if_true] at hbody
    have hmod : (f.payload.length + 8) % 2 ^ 32 = f.payload.length + 8 :=
      mod_eq_of_lt (by omega)
    have hn : n % 2 ^ 64 = n := mod_eq_of_lt (f.offset_lt n hoffset)
    have hflags (b : Bool) : (if b then binaryEndOfBody else 0) ||| binaryHasOffset = frameFlags b true := rfl
    simp only [map_some, isSome_some, if_true, ofNat_eq_natCast,
      toNat_natCast, hmod, hn, hflags, bind, Except.bind, pure, Except.pure]
    rw [append_assoc, append_eq_layout, Frame.bytes, hbody, hoffset, f.body_some hoffset]
    rfl

theorem Python.encode_eq : Python.encode env maxPayload = .ok f.bytes := by
  rw [Python.encode, ← hcarries.payload, ← hcarries.kind, ← hcarries.endOfBody, ← hcarries.offset,
    if_neg (by omega), uuidFromText_of_isUuidText hcarries.isUuidText]
  simp only [toBeBytes_digitValues hcarries.isUuidText, ← hcarries.id]
  have hbody := f.length_body
  cases hoffset : f.offset with
  | none =>
    simp only [hoffset, isSome_none, Bool.false_eq_true, if_false, add_zero] at hbody
    simp only [map_none, any_none, Bool.false_eq_true, if_false]
    rw [if_neg (by omega), append_assoc binaryMagic, append_assoc binaryMagic]
    rw [Frame.bytes, hoffset, f.body_none hoffset, isSome_none, frameFlags_false]
    exact congrArg Except.ok append_eq_layout
  | some n =>
    simp only [hoffset, isSome_some, if_true] at hbody
    have hn := f.offset_lt n hoffset
    have hnonneg : ¬ (n : Int) < 0 := by omega
    have hsmall : ¬ (2 ^ 64 : Int) ≤ n := by exact_mod_cast not_le.mpr hn
    have hwire : (toBeBytes 8 n ++ f.payload).length = f.body.length := by rw [f.body_some hoffset]
    have hflags (b : Bool) : (if b then binaryEndOfBody else 0) ||| binaryHasOffset = frameFlags b true := rfl
    simp only [map_some, any_some, ofNat_eq_natCast, decide_eq_true_eq,
      if_neg hnonneg, if_neg hsmall, toNat_natCast, hflags, hwire]
    rw [if_neg (by omega), ← f.body_some hoffset, append_assoc binaryMagic,
      append_assoc binaryMagic, Frame.bytes, hoffset, isSome_some]
    exact congrArg Except.ok append_eq_layout

end

/-- The text that a decoder prints is one that both encoders read to the bytes it was printed
from. -/
theorem isUuidText_idFromUuidBytes (hlength : bytes.length = 16) : IsUuidText (idFromUuidBytes bytes) ∧
      pairs (compact (idFromUuidBytes bytes)) = bytes := by
  have hcompact := compact_idFromUuidBytes bytes
  refine ⟨⟨?_, ?_⟩, ?_⟩
  · rw [hcompact, length_map, length_halves, length_map, hlength]
  · rw [hcompact]
    intro c hc
    obtain ⟨d, hd, rfl⟩ := mem_map.mp hc
    rw [hexValue_hexDigit (lt_of_mem_byteHalves hd)]
    rfl
  · rw [hcompact, pairs_hexDigits]

theorem Frame.carries_envelope (f : Frame) : f.Carries f.envelope := by
  obtain ⟨htext, hpairs⟩ := isUuidText_idFromUuidBytes f.length_id
  exact ⟨htext, hpairs.symm, rfl, rfl, rfl, rfl⟩

theorem exists_carries (hid : IsUuidText env.id)
    (hoffset : ∀ offset ∈ env.offset, 0 ≤ offset ∧ offset < 2 ^ 64) : ∃ f : Frame, f.Carries env := by
  have hround : (env.offset.map toNat).map ofNat = env.offset := by
    cases henv : env.offset with
    | none => rfl
    | some offset =>
      simp only [map_some, Option.some.injEq]
      exact toNat_of_nonneg (hoffset offset henv).1
  refine ⟨{ id := pairs (compact env.id), kind := env.kind, payload := env.payload,
            endOfBody := env.endOfBody, offset := env.offset.map toNat,
            length_id := (halves_pairs hid.1 hid.2).1, offset_lt := ?_ },
    ⟨hid, rfl, rfl, rfl, rfl, hround⟩⟩
  intro n hn
  obtain ⟨offset, hmem, rfl⟩ := map_eq_some_iff.mp hn
  have hbounds := hoffset offset hmem
  omega

theorem Frame.Carries.envelope_eq {f : Frame} (hcarries : f.Carries env) :
    f.envelope = { env with id := canonicalId env.id } := by
  rw [Frame.envelope, hcarries.id, hcarries.kind, hcarries.payload, hcarries.endOfBody,
    hcarries.offset, idFromUuidBytes_pairs hcarries.isUuidText]

theorem decode_eq_ok_iff (raw : Bytes) (maxPayload : Nat) (env : BinaryEnvelope) :
    decode raw maxPayload = .ok env ↔ Python.decode raw maxPayload = .ok env := by
  have htoOption := decode_toOption_eq raw maxPayload
  constructor
  · intro h
    rw [h] at htoOption
    cases hpython : Python.decode raw maxPayload with
    | error =>
      rw [hpython] at htoOption
      cases htoOption
    | ok =>
      rw [hpython] at htoOption
      cases htoOption
      rfl
  · intro h
    rw [h] at htoOption
    cases hrust : decode raw maxPayload with
    | error =>
      rw [hrust] at htoOption
      cases htoOption
    | ok =>
      rw [hrust] at htoOption
      cases htoOption
      rfl

/-- **One format.** The decoders agree, the encoders agree, and each inverts the other. -/
theorem envelope_codecs_bijective (maxPayload : Nat) (hlimit : maxPayload + 8 < 2 ^ 32) :
    (∀ raw env, decode raw maxPayload = .ok env ↔ Python.decode raw maxPayload = .ok env) ∧
    (∀ env : BinaryEnvelope, env.payload.length ≤ maxPayload →
      (∀ offset ∈ env.offset, 0 ≤ offset ∧ offset < 2 ^ 64) →
      (∃ bytes, uuidBytesFromId env.id = .ok bytes) → (Python.uuidFromText env.id).isSome →
      ∃ raw, encode env maxPayload = .ok raw ∧ Python.encode env maxPayload = .ok raw ∧
        decode raw maxPayload = .ok { env with id := canonicalId env.id } ∧
        Python.decode raw maxPayload = .ok { env with id := canonicalId env.id }) ∧
    (∀ raw env, decode raw maxPayload = .ok env ∨ Python.decode raw maxPayload = .ok env →
      encode env maxPayload = .ok raw ∧ Python.encode env maxPayload = .ok raw) := by
  refine ⟨fun raw env => decode_eq_ok_iff raw maxPayload env, ?_, ?_⟩
  · rintro env hpayload hoffset ⟨bytes, hbytes⟩ -
    obtain ⟨f, hcarries⟩ := exists_carries (uuidBytesFromId_eq_ok.mp hbytes).1 hoffset
    rw [← hcarries.payload] at hpayload
    have hdecode := decode_bytes f hlimit hpayload
    rw [hcarries.envelope_eq] at hdecode
    exact ⟨f.bytes, encode_eq hlimit hpayload hcarries, Python.encode_eq hlimit hpayload hcarries,
      hdecode, (decode_eq_ok_iff _ _ _).mp hdecode⟩
  · intro raw env hdecode
    have hrust : decode raw maxPayload = .ok env :=
      hdecode.elim (fun h => h) (decode_eq_ok_iff raw maxPayload env).mpr
    obtain ⟨f, hpayload, rfl, rfl⟩ := exists_frame hrust
    exact ⟨encode_eq hlimit hpayload f.carries_envelope, Python.encode_eq hlimit hpayload f.carries_envelope⟩

def sampleEnvelope : BinaryEnvelope :=
  { id := "0123456789ABCDEF0123456789abcdef", kind := .httpResponse, payload := [0x68, 0x69],
    endOfBody := true, offset := some 7 }

theorem envelope_codecs_bijective_sample :
    ∃ raw, encode sampleEnvelope 1024 = .ok raw ∧ Python.encode sampleEnvelope 1024 = .ok raw ∧
      decode raw 1024 = .ok { sampleEnvelope with id := canonicalId sampleEnvelope.id } ∧
      Python.decode raw 1024 = .ok { sampleEnvelope with id := canonicalId sampleEnvelope.id } := by
  refine (envelope_codecs_bijective 1024 (by norm_num)).2.1 sampleEnvelope (by decide) ?_ ?_ ?_
  · intro offset hoffset
    cases hoffset
    exact ⟨by decide, by decide⟩
  · have haccepted : (uuidBytesFromId sampleEnvelope.id).toOption.isSome = true := by decide +kernel
    cases hbytes : uuidBytesFromId sampleEnvelope.id with
    | error =>
      rw [hbytes] at haccepted
      cases haccepted
    | ok bytes => exact ⟨bytes, rfl⟩
  · decide +kernel

end Yuanrong.Tunnel
