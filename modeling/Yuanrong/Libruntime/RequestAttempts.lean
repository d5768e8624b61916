import Mathlib.Data.Fintype.Basic

/-!
# The attempts of a stateless request

A request that is retried is sent under its own id with the number of the attempt, of eight bits,
for the last two digits. A notification is for the request whose id it has with zeros there.
-/

namespace Yuanrong.Libruntime

open List

def uint8ToHex (value : Fin 256) : List Char :=
  let digits := "0123456789abcdef".toList
  [digits.getD (value / 16) '0', digits.getD (value % 16) '0']

def hexCharToUint8 (c : Char) : Nat :=
  if '0' ≤ c ∧ c ≤ '9' then c.toNat - 48
  else if 'A' ≤ c ∧ c ≤ 'F' then c.toNat - 55
  else if 'a' ≤ c ∧ c ≤ 'f' then c.toNat - 87
  else 0

def hexToUint8 (hex : List Char) : Fin 256 :=
  Fin.ofNat 256 (hexCharToUint8 (hex.getD 0 '0') * 16 + hexCharToUint8 (hex.getD 1 '0'))

def genRequestId (requestId : List Char) (index : Fin 256) : List Char :=
  requestId.take 16 ++ uint8ToHex index

def parseRealRequestId (requestId : List Char) : List Char :=
  (requestId.takeWhile (· ≠ '@')).takeWhile (· ≠ '-')

def decodeRawRequestId (requestId : List Char) : List Char × Fin 256 :=
  if requestId = [] then ("ffffffffffffffff00".toList, 0)
  else
    let real := if '@' ∉ requestId ∧ '-' ∉ requestId then requestId else parseRealRequestId requestId
    (real.take 16 ++ ['0', '0'], hexToUint8 (real.drop 16))

theorem uint8ToHex_spec : ∀ value : Fin 256, hexToUint8 (uint8ToHex value) = value ∧
    '@' ∉ uint8ToHex value ∧ '-' ∉ uint8ToHex value := by
  decide +kernel

inductive AttemptResult
  | success
  | instanceLost
  | worthRetry (checked : Bool)
  | other

structure RetryOptions where
  retryTimes : Int
  maxRetryTime : Int

/-- `NeedRetry`, with `ConsumeRetryTime` where that is to follow. -/
def RetryOptions.needRetry (opts : RetryOptions) : AttemptResult → Option RetryOptions
  | .instanceLost =>
    if opts.maxRetryTime = -1 then some opts
    else if opts.maxRetryTime = 0 then none
    else some { opts with maxRetryTime := opts.maxRetryTime - 1 }
  | .worthRetry true =>
    if opts.retryTimes ≤ 0 then none else some { opts with retryTimes := opts.retryTimes - 1 }
  | _ => none

/-- A request with the bytes its id was generated from. `attempt` is a record. -/
structure RetriedRequest where
  uuid : Fin 8 → Fin 256
  opts : RetryOptions
  seq : Fin 256 := 0
  ended : Bool := false
  attempt : Nat := 0

namespace RetriedRequest

variable (s : RetriedRequest)

def requestId : List Char := (ofFn s.uuid).flatMap uint8ToHex ++ ['0', '0']

def attemptId (i : Nat) : List Char := genRequestId s.requestId (Fin.ofNat 256 i)

/-- The request is still there, and the notification is not a stale one. -/
def acts (requestId : List Char) : Bool := !s.ended && decodeRawRequestId requestId == (s.requestId, s.seq)

/-- A notification for any attempt so far, at any time and any number of times. -/
def notify (e : Nat × AttemptResult) : RetriedRequest :=
  if e.1 ≤ s.attempt ∧ s.acts (s.attemptId e.1) then
    match s.opts.needRetry e.2 with
    | some opts => { s with opts, seq := s.seq + 1, attempt := s.attempt + 1 }
    | none => { s with ended := true }
  else s

theorem decode_attemptId (i : Nat) : decodeRawRequestId (s.attemptId i) = (s.requestId, Fin.ofNat 256 i) := by
  have hspec := uint8ToHex_spec
  have hlength : ((ofFn s.uuid).flatMap uint8ToHex).length = 16 := by simp [uint8ToHex]
  rw [attemptId, genRequestId, requestId, take_left' hlength, decodeRawRequestId,
    if_neg (by simp [uint8ToHex]), if_pos (by grind)]
  dsimp only
  rw [take_left' hlength, drop_left' hlength, (hspec _).1]

theorem seq_notify (h : s.seq = Fin.ofNat 256 s.attempt) (e : Nat × AttemptResult) :
    (s.notify e).seq = Fin.ofNat 256 (s.notify e).attempt := by
  unfold notify
  split
  · split
    · exact (congrArg (· + 1) h).trans (Fin.ext (by simp [Fin.add_def]))
    · exact h
  · exact h

theorem foldl_lost (n : Nat) : ((range n).map (·, .instanceLost)).foldl notify ⟨u, ⟨t, -1⟩, 0, false, 0⟩ =
    ⟨u, ⟨t, -1⟩, Fin.ofNat 256 n, false, n⟩ := by
  induction n with
  | zero => rfl
  | succ n ih =>
    rw [range_succ, map_append, foldl_append, ih]
    simp [notify, acts, decode_attemptId, requestId, RetryOptions.needRetry, Fin.add_def, Fin.ext_iff]

end RetriedRequest

/-- The id of an attempt leads to its request, and settles no later attempt unless that is the
256th. -/
theorem old_reply_settles_nothing (uuid : Fin 8 → Fin 256) (opts : RetryOptions)
    (es : List (Nat × AttemptResult)) (i : Nat) :
    let s := es.foldl RetriedRequest.notify { uuid, opts }
    (decodeRawRequestId (s.attemptId i)).1 = s.requestId ∧
      (s.acts (s.attemptId i) = true → i ≤ s.attempt → s.attempt < i + 256 → i = s.attempt) := by
  intro s
  have hdecode := s.decode_attemptId i
  have hseq : s.seq = Fin.ofNat 256 s.attempt :=
    foldlRecOn (motive := fun s : RetriedRequest => s.seq = Fin.ofNat 256 s.attempt) es _ rfl
      fun s h e _ => s.seq_notify h e
  refine ⟨congrArg Prod.fst hdecode, fun hacts hle hnear => ?_⟩
  have hsame : Fin.ofNat 256 i = Fin.ofNat 256 s.attempt := by
    simpa [RetriedRequest.acts, hdecode, hseq] using (Bool.and_eq_true_iff.mp hacts).2
  have hmod : i % 256 = s.attempt % 256 := congrArg Fin.val hsame
  omega

/-- After 256 retries the reply to the first attempt is acted upon. -/
theorem old_reply_settles : ∃ es : List (Nat × AttemptResult),
    let s := es.foldl RetriedRequest.notify { uuid := fun _ => 0, opts := ⟨0, -1⟩ }
    s.attempt = 256 ∧ s.acts (s.attemptId 0) = true := by
  refine ⟨(range 256).map (·, .instanceLost), ?_⟩
  rw [RetriedRequest.foldl_lost]
  decide +kernel

end Yuanrong.Libruntime
