import Yuanrong.Lib.Positional

/-!
# The binary envelope of the tunnel, in Rust and in Python

A frame of a streamed body is a header of 26 bytes, an offset of eight bytes if a flag says so, and
the payload. Daemon and client write the request's id as the sixteen bytes of a UUID and read it
back in the canonical text form; the daemon takes the text apart digit by digit, the client through
an integer.
-/

namespace Yuanrong.Tunnel

open Positional

abbrev Bytes := List UInt8

def toBeBytes (width n : Nat) : Bytes := (fixed 256 width n).map UInt8.ofNat

def fromBeBytes (bytes : Bytes) : Nat := value 256 (bytes.map UInt8.toNat)

inductive BinaryKind
  | httpRequest
  | httpResponse
  | webSocket
deriving DecidableEq

def BinaryKind.toByte : BinaryKind → UInt8
  | .httpRequest => 0x01
  | .httpResponse => 0x02
  | .webSocket => 0x03

def BinaryKind.ofByte (byte : UInt8) : Option BinaryKind :=
  if byte = 0x01 then some .httpRequest
  else if byte = 0x02 then some .httpResponse
  else if byte = 0x03 then some .webSocket
  else none

/-- An offset of the daemon is an unsigned number of 64 bits, one of the client any integer. -/
structure BinaryEnvelope where
  id : String
  kind : BinaryKind
  payload : Bytes
  endOfBody : Bool
  offset : Option Int
deriving DecidableEq

inductive EnvelopeError
  | payloadExceeds (size limit : Nat)
  | notUuid
  | offsetNegative
  | structError
  | shorterThanHeader
  | invalidMagic
  | unsupportedVersion (version : UInt8)
  | unknownKind (kind : UInt8)
  | invalidUuidLength (length : UInt8)
  | unknownFlags (flags : UInt8)
  | lengthMismatch (actual stated : Nat)
  | offsetTooShort
deriving DecidableEq

def binaryMagic : Bytes := [0x59, 0x44]

def binaryEnvelopeVersion : UInt8 := 1

def binaryHeaderBytes : Nat := 26

def binaryEndOfBody : UInt8 := 0x01

def binaryHasOffset : UInt8 := 0x02

def hexDigit (n : Nat) : Char := if n < 10 then Char.ofNat (48 + n) else Char.ofNat (87 + n)

def hexValue (c : Char) : Option Nat :=
  if '0' ≤ c ∧ c ≤ '9' then some (c.toNat - 48)
  else if 'a' ≤ c ∧ c ≤ 'f' then some (c.toNat - 87)
  else if 'A' ≤ c ∧ c ≤ 'F' then some (c.toNat - 55)
  else none

/-- Thirty-two digits with hyphens after the eighth, twelfth, sixteenth and twentieth. -/
def hyphenated (hex : List Char) : String :=
  String.ofList (hex.take 8 ++ '-' :: (hex.drop 8).take 4 ++ '-' :: (hex.drop 12).take 4 ++
    '-' :: (hex.drop 16).take 4 ++ '-' :: hex.drop 20)

namespace Rust

def pairs : List Char → Bytes
  | high :: low :: rest =>
    UInt8.ofNat ((hexValue high).getD 0 * 16 + (hexValue low).getD 0) :: pairs rest
  | _ => []

def uuidBytesFromId (id : String) : Except EnvelopeError Bytes :=
  let compact := id.toList.filter (· ≠ '-')
  if (compact.map Char.utf8Size).sum ≠ 32 ∨ ¬ compact.all (fun c => (hexValue c).isSome) then
    .error .notUuid
  else
    .ok (pairs compact)

def idFromUuidBytes (bytes : Bytes) : String :=
  hyphenated (bytes.flatMap fun byte => [hexDigit (byte.toNat / 16), hexDigit (byte.toNat % 16)])

def encode (env : BinaryEnvelope) (maxPayload : Nat) : Except EnvelopeError Bytes :=
  if env.payload.length > maxPayload then
    .error (.payloadExceeds env.payload.length maxPayload)
  else do
    let id ← uuidBytesFromId env.id
    let flags := if env.endOfBody then binaryEndOfBody else 0
    let flags := if env.offset.isSome then flags ||| binaryHasOffset else flags
    let wirePayloadLen := env.payload.length + if env.offset.isSome then 8 else 0
    let offset := match env.offset with
      | some offset => toBeBytes 8 (offset.toNat % 2 ^ 64)
      | none => []
    return binaryMagic ++ [binaryEnvelopeVersion, env.kind.toByte, 16] ++ id ++ [flags] ++
      toBeBytes 4 (wirePayloadLen % 2 ^ 32) ++ offset ++ env.payload

def decode (raw : Bytes) (maxPayload : Nat) : Except EnvelopeError BinaryEnvelope :=
  if raw.length < binaryHeaderBytes then
    .error .shorterThanHeader
  else if raw.take 2 ≠ binaryMagic then
    .error .invalidMagic
  else if raw.getD 2 0 ≠ binaryEnvelopeVersion then
    .error (.unsupportedVersion (raw.getD 2 0))
  else
    match BinaryKind.ofByte (raw.getD 3 0) with
    | none => .error (.unknownKind (raw.getD 3 0))
    | some kind =>
      if raw.getD 4 0 ≠ 16 then
        .error (.invalidUuidLength (raw.getD 4 0))
      else
        let id := idFromUuidBytes ((raw.drop 5).take 16)
        let flags := raw.getD 21 0
        if flags &&& ~~~(binaryEndOfBody ||| binaryHasOffset) ≠ 0 then
          .error (.unknownFlags flags)
        else
          let payloadLen := fromBeBytes ((raw.drop 22).take 4)
          let wireLimit := maxPayload + if flags &&& binaryHasOffset ≠ 0 then 8 else 0
          if payloadLen > wireLimit then
            .error (.payloadExceeds payloadLen wireLimit)
          else if raw.length - binaryHeaderBytes ≠ payloadLen then
            .error (.lengthMismatch (raw.length - binaryHeaderBytes) payloadLen)
          else
            let wirePayload := raw.drop binaryHeaderBytes
            if flags &&& binaryHasOffset ≠ 0 ∧ wirePayload.length < 8 then
              .error .offsetTooShort
            else
              let (offset, payload) :=
                if flags &&& binaryHasOffset ≠ 0 then
                  (some (fromBeBytes (wirePayload.take 8) : Int), wirePayload.drop 8)
                else
                  (none, wirePayload)
              if payload.length > maxPayload then
                .error (.payloadExceeds payload.length maxPayload)
              else
                .ok { id, kind, payload, endOfBody := flags &&& binaryEndOfBody ≠ 0, offset }

end Rust

namespace Python

def isSpace (c : Char) : Bool := (9 ≤ c.toNat && c.toNat ≤ 13) || c.toNat = 32

def strip (p : Char → Bool) (cs : List Char) : List Char :=
  ((cs.dropWhile p).reverse.dropWhile p).reverse

/-- `str.replace(pattern, '')`; `skip` characters of a match are still to be left out. -/
def removeAll (pattern : List Char) : Nat → List Char → List Char
  | _, [] => []
  | skip + 1, _ :: cs => removeAll pattern skip cs
  | 0, c :: cs =>
    if pattern.isPrefixOf (c :: cs) then removeAll pattern (pattern.length - 1) cs
    else c :: removeAll pattern 0 cs

def digits (acc : Nat) (afterDigit : Bool) : List Char → Option Nat
  | [] => if afterDigit then some acc else none
  | c :: cs =>
    match hexValue c with
    | some d => digits (acc * 16 + d) true cs
    | none => if c = '_' ∧ afterDigit then digits acc false cs else none

/-- Digits after an optional `0x`, which an underscore may follow. -/
def magnitude : List Char → Option Nat
  | '0' :: 'x' :: '_' :: cs => digits 0 false cs
  | '0' :: 'X' :: '_' :: cs => digits 0 false cs
  | '0' :: 'x' :: cs => digits 0 false cs
  | '0' :: 'X' :: cs => digits 0 false cs
  | cs => digits 0 false cs

/-- `int(text, 16)`. Digits of other scripts, which Python takes too, are left out. -/
def intBase16 (cs : List Char) : Option Int :=
  match strip isSpace cs with
  | '-' :: cs => (magnitude cs).map fun n => -(n : Int)
  | '+' :: cs => (magnitude cs).map fun n => (n : Int)
  | cs => (magnitude cs).map fun n => (n : Int)

/-- `uuid.UUID(text)`: the integer of 128 bits that it holds. -/
def uuidFromText (id : String) : Option Nat :=
  let hex := removeAll "uuid:".toList 0 (removeAll "urn:".toList 0 id.toList)
  let hex := (strip (fun c => c = '\x7b' || c = '\x7d') hex).filter (· ≠ '-')
  if hex.length ≠ 32 then
    none
  else
    match intBase16 hex with
    | none => none
    | some n => if 0 ≤ n ∧ n < 2 ^ 128 then some n.toNat else none

/-- `str(uuid.UUID(bytes=raw))`, which prints the integer with 32 digits. -/
def textFromUuidBytes (bytes : Bytes) : String :=
  hyphenated ((fixed 16 32 (fromBeBytes bytes)).map hexDigit)

def encode (env : BinaryEnvelope) (maxPayload : Nat) : Except EnvelopeError Bytes :=
  if env.payload.length > maxPayload then
    .error (.payloadExceeds env.payload.length maxPayload)
  else
    match uuidFromText env.id with
    | none => .error .notUuid
    | some requestUuid =>
      if env.offset.any (· < 0) then
        .error .offsetNegative
      else if env.offset.any (2 ^ 64 ≤ ·) then
        .error .structError
      else
        let flags := if env.endOfBody then binaryEndOfBody else 0
        let (flags, wirePayload) := match env.offset with
          | some offset => (flags ||| binaryHasOffset, toBeBytes 8 offset.toNat ++ env.payload)
          | none => (flags, env.payload)
        if wirePayload.length ≥ 2 ^ 32 then
          .error .structError
        else
          .ok (binaryMagic ++ [binaryEnvelopeVersion] ++ [env.kind.toByte] ++ [16] ++
            toBeBytes 16 requestUuid ++ [flags] ++ toBeBytes 4 wirePayload.length ++ wirePayload)

def decode (raw : Bytes) (maxPayload : Nat) : Except EnvelopeError BinaryEnvelope :=
  if raw.length < binaryHeaderBytes then
    .error .shorterThanHeader
  else
    let magic := raw.take 2
    let version := raw.getD 2 0
    let kind := raw.getD 3 0
    let idLength := raw.getD 4 0
    let rawId := (raw.drop 5).take 16
    let flags := raw.getD 21 0
    let payloadLength := fromBeBytes ((raw.drop 22).take 4)
    if magic ≠ binaryMagic then
      .error .invalidMagic
    else if version ≠ binaryEnvelopeVersion then
      .error (.unsupportedVersion version)
    else if idLength ≠ 16 then
      .error (.invalidUuidLength idLength)
    else
      match BinaryKind.ofByte kind with
      | none => .error (.unknownKind kind)
      | some binaryKind =>
        if flags &&& ~~~(binaryEndOfBody ||| binaryHasOffset) ≠ 0 then
          .error (.unknownFlags flags)
        else
          let wireLimit := maxPayload + if flags &&& binaryHasOffset ≠ 0 then 8 else 0
          if payloadLength > wireLimit then
            .error (.payloadExceeds payloadLength wireLimit)
          else
            let wirePayload := raw.drop binaryHeaderBytes
            if wirePayload.length ≠ payloadLength then
              .error (.lengthMismatch wirePayload.length payloadLength)
            else if flags &&& binaryHasOffset ≠ 0 ∧ wirePayload.length < 8 then
              .error .offsetTooShort
            else
              let offset := if flags &&& binaryHasOffset ≠ 0 then
                some (fromBeBytes (wirePayload.take 8) : Int) else none
              let payload := if flags &&& binaryHasOffset ≠ 0 then wirePayload.drop 8
                else wirePayload
              if payload.length > maxPayload then
                .error (.payloadExceeds payload.length maxPayload)
              else
                .ok { id := textFromUuidBytes rawId, kind := binaryKind, payload,
                      endOfBody := flags &&& binaryEndOfBody ≠ 0, offset }

end Python

end Yuanrong.Tunnel
