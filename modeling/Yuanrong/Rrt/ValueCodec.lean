import Yuanrong.Tunnel.BinaryEnvelope

/-!
# The cross-language value codec

`yr_serialize_value` puts sixteen zero bytes before the MessagePack of a value. `yr_deserialize`
tries four layouts in turn, and the first of them reads bytes of the value itself as a size.
-/

namespace Yuanrong.Rrt

open List

open Tunnel (Bytes fromBeBytes)

/-- What the codec uses of `rmpv`: `readValue` decodes the value at the front of its input. -/
structure Rmpv (Value : Type) where
  writeValue : Value → Bytes
  readValue : Bytes → Option Value
  /-- The content of a `Value::Binary`. -/
  binary : Value → Option Bytes

def fromLeBytes (bytes : Bytes) : Nat := fromBeBytes bytes.reverse

def readInt : Bytes → Option Nat
  | [] => none
  | marker :: rest =>
    let read (n : Nat) := if n ≤ rest.length then some (fromBeBytes (rest.take n)) else none
    let readSigned (n : Nat) := (read n).filter (2 * · < 256 ^ n)
    if marker < 0x80 then some marker.toNat
    else if marker = 0xcc then read 1
    else if marker = 0xcd then read 2
    else if marker = 0xce then read 4
    else if marker = 0xcf then read 8
    else if marker = 0xd0 then readSigned 1
    else if marker = 0xd1 then readSigned 2
    else if marker = 0xd2 then readSigned 4
    else if marker = 0xd3 then readSigned 8
    else none

variable {Value : Type} {c : Rmpv Value} {v : Value}

/-- A value in the `size` bytes from `start` on. A range past the end is refused, one past `usize`
too. -/
def readSized (c : Rmpv Value) (buf : Bytes) (start size : Nat) : Option Value :=
  if 0 < size ∧ start + size ≤ buf.length then c.readValue ((buf.drop start).take size) else none

mutual

/-- `yr_deserialize`, to a depth of binaries within binaries. -/
def yrDeserialize (c : Rmpv Value) : Nat → Bytes → Option Value
  | 0, _ => none
  | depth + 1, buf =>
    if buf.length < 16 then none
    else
      (if 32 ≤ buf.length then readSized c buf 32 (fromLeBytes ((buf.drop 24).take 8)) else none) <|>
      (readInt ((buf.drop 8).take 8)).bind (readSized c buf 16) <|>
      (c.readValue (buf.drop 16) <|> c.readValue buf).bind (unwrapMsgpackBinary c depth)

def unwrapMsgpackBinary (c : Rmpv Value) : Nat → Value → Option Value
  | 0, _ => none
  | depth + 1, value =>
    match c.binary value with
    | some bytes =>
      yrDeserialize c depth bytes <|> (c.readValue bytes).bind (unwrapMsgpackBinary c depth)
    | none => some value

end

def yrSerializeValue (c : Rmpv Value) (v : Value) : Bytes :=
  List.replicate 16 0 ++ c.writeValue v

/-- Bytes 8 to 16 of the MessagePack are taken for the size of a value after them. -/
def misread (c : Rmpv Value) (v : Value) : Option Value :=
  let mp := c.writeValue v
  if 16 ≤ mp.length then readSized c mp 16 (fromLeBytes ((mp.drop 8).take 8)) else none

theorem readSized_append (header mp : Bytes) (start size : Nat) :
    readSized c (header ++ mp) (header.length + start) size = readSized c mp start size := by
  have hle : header.length + start + size ≤ (header ++ mp).length ↔ start + size ≤ mp.length := by
    rw [length_append]
    omega
  simp only [readSized, hle, drop_length_add_append]

theorem firstLayout_yrSerializeValue :
    (if 32 ≤ (yrSerializeValue c v).length then
      readSized c (yrSerializeValue c v) 32 (fromLeBytes (((yrSerializeValue c v).drop 24).take 8))
    else none) = misread c v := by
  have hlength : 32 ≤ (yrSerializeValue c v).length ↔ 16 ≤ (c.writeValue v).length := by
    rw [yrSerializeValue, length_append, length_replicate]
    omega
  have hsize : (yrSerializeValue c v).drop 24 = (c.writeValue v).drop 8 := drop_append ..
  have hread : ∀ size, readSized c (yrSerializeValue c v) 32 size = readSized c (c.writeValue v) 16 size :=
    readSized_append (replicate 16 0) (c.writeValue v) 16
  simp only [hlength, hsize, hread, misread]

/-- The size in the header is zero, so the second layout is left, and the third one reads the
value. -/
theorem yrDeserialize_yrSerializeValue (hread : c.readValue (c.writeValue v) = some v)
    (hvalue : c.binary v = none) (depth : Nat) :
    yrDeserialize c (depth + 2) (yrSerializeValue c v) = some ((misread c v).getD v) := by
  have hlength : ¬ (yrSerializeValue c v).length < 16 := by
    rw [yrSerializeValue, length_append, length_replicate]
    omega
  have hheader : ((yrSerializeValue c v).drop 8).take 8 = replicate 8 0 := rfl
  have hzero : readInt (replicate 8 0) = some 0 := by decide
  have hdrop : (yrSerializeValue c v).drop 16 = c.writeValue v := drop_append ..
  rw [yrDeserialize, if_neg hlength, firstLayout_yrSerializeValue, hheader, hzero, hdrop, hread]
  cases misread c v with
  | some => rfl
  | none => simp [readSized, unwrapMsgpackBinary, hvalue]

/-- **Round trip.** A value comes back exactly when no other is where the first layout looks. -/
theorem yrDeserialize_eq_some_iff (hread : c.readValue (c.writeValue v) = some v)
    (hvalue : c.binary v = none) (depth : Nat) :
    yrDeserialize c (depth + 2) (yrSerializeValue c v) = some v ↔ ∀ w, misread c v = some w → w = v := by
  rw [yrDeserialize_yrSerializeValue hread hvalue]
  cases misread c v <;> simp

inductive SmallValue where
  | int (n : Fin 128)
  | array (elems : List (Fin 128))
  deriving DecidableEq

def readElems (n : Nat) (bytes : Bytes) : Option SmallValue :=
  if n ≤ bytes.length ∧ (bytes.take n).all (· < 0x80) then
    some (.array ((bytes.take n).map fun b => Fin.ofNat 128 b.toNat))
  else none

/-- The formats `fixint`, `fixarray` and `array16` of MessagePack. -/
def smallRmpv : Rmpv SmallValue where
  writeValue
    | .int n => [UInt8.ofNat n]
    | .array elems =>
      (if elems.length < 16 then [0x90 + UInt8.ofNat elems.length]
      else [0xdc, UInt8.ofNat (elems.length / 256), UInt8.ofNat elems.length]) ++
        elems.map fun n => UInt8.ofNat n
  readValue
    | [] => none
    | marker :: rest =>
      if marker < 0x80 then some (.int (Fin.ofNat 128 marker.toNat))
      else if 0x90 ≤ marker ∧ marker < 0xa0 then readElems (marker - 0x90).toNat rest
      else if marker = 0xdc ∧ 2 ≤ rest.length then readElems (fromBeBytes (rest.take 2)) (rest.drop 2)
      else none
  binary _ := none

theorem yrDeserialize_eq_some_iff_array :
    yrDeserialize smallRmpv 2 (yrSerializeValue smallRmpv (.array [1, 2, 3])) = some (.array [1, 2, 3]) :=
  (yrDeserialize_eq_some_iff (by decide) rfl 0).mpr (by decide)

/-- An array of sixteen integers: the fifth to the twelfth are the size 1, and the thirteenth is
read. -/
theorem yrDeserialize_misreads :
    let v : SmallValue := .array [0, 0, 0, 0, 0, 1, 0, 0, 0, 0, 0, 0, 0, 42, 0, 0]
    smallRmpv.readValue (smallRmpv.writeValue v) = some v ∧ ∀ depth,
      yrDeserialize smallRmpv (depth + 2) (yrSerializeValue smallRmpv v) = some (.int 42) := by
  refine ⟨by decide, fun depth => ?_⟩
  rw [yrDeserialize_yrSerializeValue (by decide) rfl]
  decide

end Yuanrong.Rrt
