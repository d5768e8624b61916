import Yuanrong.SessionContext

/-!
# Allocations and their identifiers

An allocation is one unit of work handed out on an instance. Its identifier
`lite:{sessionHash}:{instanceID}:thread:{seq}` is all a client keeps, and after a restart it is all
there is to rebuild the allocation from, so it must be possible to read its parts back.
-/

namespace Yuanrong.Lite

open List GoString String

def liteAllocPrefix : String := "lite"

/-- What the identifiers need of the session hash: text without the separator. -/
structure SessionHash where
  sessionHash : String → String
  colon_notMem : ∀ s, ':' ∉ (sessionHash s).toList

def hexDigit (n : Nat) : Char :=
  if n < 10 then Char.ofNat ('0'.toNat + n) else Char.ofNat ('a'.toNat + (n - 10))

def hexEncode (bytes : List (Fin 256)) : List Char :=
  bytes.flatMap fun b => [hexDigit (b.val / 16), hexDigit (b.val % 16)]

theorem hexDigit_ne_colon : ∀ n < 16, hexDigit n ≠ ':' := by
  decide

theorem colon_notMem_hexEncode (bytes : List (Fin 256)) : ':' ∉ hexEncode bytes := by
  intro hmem
  obtain ⟨b, -, hb⟩ := mem_flatMap.mp hmem
  have hhigh : b.val / 16 < 16 := by omega
  have hlow : b.val % 16 < 16 := by omega
  simp only [mem_cons, not_mem_nil, or_false] at hb
  rcases hb with hb | hb
  · exact hexDigit_ne_colon _ hhigh hb.symm
  · exact hexDigit_ne_colon _ hlow hb.symm

/-- The hash of the source: the first 16 hex characters of the SHA-256 digest of the session ID. -/
def SessionHash.ofDigest (digest : String → List (Fin 256)) : SessionHash where
  sessionHash s := String.ofList ((hexEncode (digest s)).take 16)
  colon_notMem s := by
    rw [toList_ofList]
    intro hmem
    exact colon_notMem_hexEncode _ (mem_of_mem_take hmem)

structure Allocation where
  allocationID : String
  sessionID : String
  sessionCtxID : String
  sessionTTL : Int
  tenantID : String
  instanceID : String
  funcKey : String
  expireAt : Nat
deriving DecidableEq

def allocationSessionID (sessionID sessionCtxID : String) : String :=
  if sessionID ≠ "" then sessionID else sessionCtxID

variable (H : SessionHash)

def genAllocationID (sessionID instanceID : String) (seq : Int) : String :=
  liteAllocPrefix ++ ":" ++ H.sessionHash sessionID ++ ":" ++ instanceID ++ ":thread:" ++ itoa seq

structure LiteAllocationID where
  sessHash : String
  instanceID : String
  seq : Int
deriving DecidableEq

def parseLiteAllocationID (allocID : String) : Option LiteAllocationID :=
  if hasPrefix allocID (liteAllocPrefix ++ ":") = false then
    none
  else
    match splitN (trimPrefix allocID (liteAllocPrefix ++ ":")) ':' 3 with
    | [sessHash, instanceID, threadPart] =>
      if hasPrefix threadPart "thread:" = false then
        none
      else
        (atoi (trimPrefix threadPart "thread:")).map fun seq => { sessHash, instanceID, seq }
    | _ => none

def isLiteAllocationID (allocID : String) : Bool := (parseLiteAllocationID allocID).isSome

theorem genAllocationID_toList (sessionID instanceID : String) (seq : Int) :
    (genAllocationID H sessionID instanceID seq).toList =
      "lite:".toList ++ ((H.sessionHash sessionID).toList ++
        ':' :: (instanceID.toList ++ ':' :: ("thread:".toList ++ (itoa seq).toList))) := by
  simp [genAllocationID, liteAllocPrefix]

theorem genAllocationID_eq_append (sessionID instanceID : String) (seq : Int) :
    genAllocationID H sessionID instanceID seq =
      (liteAllocPrefix ++ ":") ++ (H.sessionHash sessionID ++ ":" ++ instanceID ++ ":thread:" ++
        itoa seq) := by
  simp [genAllocationID, String.append_assoc]

theorem splitN_issued (ha : ':' ∉ a) :
    splitN (String.ofList ((H.sessionHash sessionID).toList ++ ':' :: (a ++ ':' :: b))) ':' 3 =
      [H.sessionHash sessionID, String.ofList a, String.ofList b] := by
  unfold splitN
  rw [toList_ofList, splitNChars_append (H.colon_notMem sessionID), splitNChars_append ha]
  simp [splitNChars]

/-- **Round trip.** An identifier on an instance ID without separator parses back. -/
theorem parse_genAllocationID (hins : ':' ∉ instanceID.toList) (hlow : -2 ^ 63 ≤ seq)
    (hhigh : seq < 2 ^ 63) : parseLiteAllocationID (genAllocationID H sessionID instanceID seq) =
      some { sessHash := H.sessionHash sessionID, instanceID, seq } := by
  have hrest : H.sessionHash sessionID ++ ":" ++ instanceID ++ ":thread:" ++ itoa seq =
      ofList ((H.sessionHash sessionID).toList ++
        ':' :: (instanceID.toList ++ ':' :: ("thread:" ++ itoa seq).toList)) := by
    rw [← toList_inj]
    simp
  unfold parseLiteAllocationID
  rw [genAllocationID_eq_append, hasPrefix_append, trimPrefix_append, hrest, splitN_issued H hins,
    ofList_toList, ofList_toList]
  dsimp only
  rw [hasPrefix_append, trimPrefix_append, atoi_itoa hlow hhigh]
  rfl

theorem parse_genAllocationID_eq_none (hins : ':' ∈ instanceID.toList) :
    parseLiteAllocationID (genAllocationID H sessionID instanceID seq) = none := by
  obtain ⟨a, b, hsplit, ha⟩ := eq_append_cons_of_mem hins
  have hrest : H.sessionHash sessionID ++ ":" ++ instanceID ++ ":thread:" ++ itoa seq =
      ofList ((H.sessionHash sessionID).toList ++
        ':' :: (a ++ ':' :: (b ++ ":thread:".toList ++ (itoa seq).toList))) := by
    rw [← toList_inj]
    simp [hsplit]
  unfold parseLiteAllocationID
  rw [genAllocationID_eq_append, hasPrefix_append, trimPrefix_append, hrest, splitN_issued H ha]
  dsimp only
  rw [if_neg (by decide)]
  split
  · rfl
  rename_i hthread
  -- The third part keeps at least two separators, and the thread prefix accounts for only one.
  have hhead := eq_append_of_hasPrefix (eq_true_of_ne_false hthread)
  generalize trimPrefix _ "thread:" = rest at hhead ⊢
  have hcount := congrArg (fun s => s.toList.count ':') hhead
  simp only [toList_ofList, toList_append, count_append] at hcount
  have hmem : ':' ∈ rest.toList := by
    rw [← count_pos_iff]
    have htwo : ":thread:".toList.count ':' = 2 := by decide
    have hone : "thread:".toList.count ':' = 1 := by decide
    omega
  cases hatoi : atoi rest with
  | none => rfl
  | some => exact absurd hmem (notMem_of_atoi hatoi (by decide) (by decide) (by decide))

theorem parse_issued {id : LiteAllocationID}
    (hparse : parseLiteAllocationID (genAllocationID H sessionID instanceID seq) = some id)
    (hlow : -2 ^ 63 ≤ seq) (hhigh : seq < 2 ^ 63) :
    id = { sessHash := H.sessionHash sessionID, instanceID, seq } := by
  by_cases hins : ':' ∈ instanceID.toList
  · rw [parse_genAllocationID_eq_none H hins] at hparse
    cases hparse
  · rw [parse_genAllocationID H hins hlow hhigh] at hparse
    exact (Option.some.inj hparse).symm

theorem genAllocationID_injective
    (heq : genAllocationID H sessionID instanceID seq = genAllocationID H sessionID' instanceID' seq') :
    H.sessionHash sessionID = H.sessionHash sessionID' ∧ instanceID = instanceID' ∧ seq = seq' := by
  have hchars := congrArg toList heq
  rw [genAllocationID_toList, genAllocationID_toList] at hchars
  obtain ⟨hhash, hrest⟩ :=
    append_sep_inj (H.colon_notMem _) (H.colon_notMem _) (append_cancel_left hchars)
  have hdigit : ∀ n : Int, ':' ∉ (itoa n).toList := notMem_itoa (by decide) (by decide)
  have htail : ∀ (ins : String) (n : Int), ins.toList ++ ':' :: ("thread:".toList ++ (itoa n).toList) =
        (ins.toList ++ ":thread".toList) ++ ':' :: (itoa n).toList := by
    intro ins n
    simp
  rw [htail, htail] at hrest
  obtain ⟨hins, hseq⟩ := append_sep_inj_right (hdigit _) (hdigit _) hrest
  exact ⟨toList_inj.mp hhash, toList_inj.mp (append_cancel_right hins), itoa_injective (toList_inj.mp hseq)⟩

end Yuanrong.Lite
