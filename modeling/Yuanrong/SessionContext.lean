import Yuanrong.Lib.GoString

/-!
# Keys of sessions in a context

Functions that run sessions in contexts file them under the session ID and the context ID, joined by
a character that the IDs are not expected to hold. Nothing checks that they do not.
-/

namespace Yuanrong

open GoString List

def sessionContextKeySeparator : String := "\x00"

def joinKey (parts : List String) : String := join sessionContextKeySeparator parts

def separatorFree (sessionID : String) : Bool := sessionID.toList.all (· ≠ '\x00')

theorem joinKey_toList (sessionID sessionCtxID : String) : (joinKey [sessionID, sessionCtxID]).toList =
      sessionID.toList ++ '\x00' :: sessionCtxID.toList := by
  simp [joinKey, join, sessionContextKeySeparator]

theorem notMem_of_separatorFree (hfree : separatorFree sessionID = true) : '\x00' ∉ sessionID.toList := by
  intro hmem
  have hall := all_eq_true.mp hfree _ hmem
  simp at hall

theorem joinKey_inj (ha : separatorFree a = true) (hb : separatorFree b = true)
    (heq : joinKey [a, ctx] = joinKey [b, ctx']) : a = b ∧ ctx = ctx' := by
  have hchars := congrArg String.toList heq
  rw [joinKey_toList, joinKey_toList] at hchars
  obtain ⟨hhead, htail⟩ :=
    append_sep_inj (notMem_of_separatorFree ha) (notMem_of_separatorFree hb) hchars
  exact ⟨String.toList_inj.mp hhead, String.toList_inj.mp htail⟩

theorem joinKey_ne_part (sessionID sessionCtxID : String) :
    joinKey [sessionID, sessionCtxID] ≠ sessionID ∧
      joinKey [sessionID, sessionCtxID] ≠ sessionCtxID := by
  have hlength : (joinKey [sessionID, sessionCtxID]).toList.length =
      sessionID.toList.length + 1 + sessionCtxID.toList.length := by
    rw [joinKey_toList, length_append, length_cons]
    omega
  constructor
  all_goals
    intro heq
    rw [heq] at hlength
    omega

end Yuanrong
