import Mathlib.Algebra.Group.Int.Defs
import Mathlib.Algebra.Group.Nat.Defs
import Mathlib.Data.List.Basic

/-!
# String functions of the Go standard library

The functions of `strings` and `strconv` that identifiers are built and taken apart with, over the
character lists of the strings so that they evaluate in the kernel. `Itoa` and the `%d` verb print
alike, so one definition stands for both; `Atoi` has the range of a 64-bit `int`.
-/

namespace GoString

open List Nat

def hasPrefix (s head : String) : Bool := head.toList.isPrefixOf s.toList

def trimPrefix (s head : String) : String :=
  if hasPrefix s head then String.ofList (s.toList.drop head.toList.length) else s

/-- `strings.SplitN` with a one-character separator: at most `n` pieces, the last one unsplit. -/
def splitNChars (sep : Char) : Nat → List Char → List (List Char)
  | 0, _ => []
  | 1, cs => [cs]
  | n + 2, cs =>
    match cs.dropWhile (· != sep) with
    | [] => [cs]
    | _ :: rest => cs.takeWhile (· != sep) :: splitNChars sep (n + 1) rest

def splitN (s : String) (sep : Char) (n : Nat) : List String :=
  (splitNChars sep n s.toList).map String.ofList

def join (sep : String) : List String → String
  | [] => ""
  | [part] => part
  | part :: rest => part ++ sep ++ join sep rest

def itoa : Int → String
  | .ofNat n => n.repr
  | .negSucc n => "-" ++ (n + 1).repr

def digits (cs : List Char) : Option Nat :=
  if cs ≠ [] ∧ cs.all Char.isDigit then some (Nat.ofDigitChars 10 cs 0) else none

def atoiChars : List Char → Option Int
  | '-' :: cs => (digits cs).bind fun n => if n ≤ 2 ^ 63 then some (-(n : Int)) else none
  | '+' :: cs => (digits cs).bind fun n => if n < 2 ^ 63 then some (n : Int) else none
  | cs => (digits cs).bind fun n => if n < 2 ^ 63 then some (n : Int) else none

def atoi (s : String) : Option Int := atoiChars s.toList

@[simp]
theorem hasPrefix_append (head rest : String) : hasPrefix (head ++ rest) head = true := by
  simp [hasPrefix]

@[simp]
theorem trimPrefix_append (head rest : String) : trimPrefix (head ++ rest) head = rest := by
  simp [trimPrefix]

theorem eq_append_of_hasPrefix {s head : String} (hhead : hasPrefix s head = true) :
    s = head ++ trimPrefix s head := by
  obtain ⟨rest, hrest⟩ := isPrefixOf_iff_prefix.mp hhead
  rw [trimPrefix, if_pos hhead, ← String.toList_inj]
  simp [← hrest]

section Split

variable {sep : Char} {a b cs : List Char} {n : Nat}

theorem splitNChars_append (hsep : sep ∉ a) :
    splitNChars sep (n + 2) (a ++ sep :: b) = a :: splitNChars sep (n + 1) b := by
  have hall : ∀ c ∈ a, (c != sep) = true := by
    intro c hc
    simp only [bne_iff_ne]
    rintro rfl
    exact hsep hc
  rw [splitNChars, dropWhile_append_of_pos hall, takeWhile_append_of_pos hall]
  simp

theorem append_sep_inj (hsep : sep ∉ a) (hsep' : sep ∉ a')
    (heq : a ++ sep :: b = a' ++ sep :: b') : a = a' ∧ b = b' := by
  have hsplit := congrArg (splitNChars sep 2) heq
  rw [splitNChars_append hsep, splitNChars_append hsep'] at hsplit
  simpa [splitNChars] using hsplit

theorem append_sep_inj_right (hsep : sep ∉ b) (hsep' : sep ∉ b')
    (heq : a ++ sep :: b = a' ++ sep :: b') : a = a' ∧ b = b' := by
  have hrev := congrArg List.reverse heq
  simp only [reverse_append, reverse_cons, append_assoc, singleton_append] at hrev
  have hsplit := append_sep_inj (by simpa using hsep) (by simpa using hsep') hrev
  exact ⟨reverse_inj.mp hsplit.2, reverse_inj.mp hsplit.1⟩

end Split

theorem digits_toDigits (n : Nat) : digits (toDigits 10 n) = some n := by
  have hne : toDigits 10 n ≠ [] := by
    intro hnil
    have hpos : 0 < (toDigits 10 n).length := length_toDigits_pos
    rw [hnil] at hpos
    exact absurd hpos (Nat.lt_irrefl 0)
  have hall : (toDigits 10 n).all Char.isDigit = true := by
    rw [all_eq_true]
    intro c hc
    exact isDigit_of_mem_toDigits (by decide) (by decide) hc
  rw [digits, if_pos ⟨hne, hall⟩, ofDigitChars_ten_toDigits]

theorem notMem_toDigits (hc : c.isDigit = false) (n : Nat) : c ∉ toDigits 10 n := by
  intro hmem
  have hdigit := isDigit_of_mem_toDigits (by decide) (by decide) hmem
  rw [hc] at hdigit
  cases hdigit

theorem notMem_itoa (hc : c.isDigit = false) (hminus : c ≠ '-') (n : Int) : c ∉ (itoa n).toList := by
  cases n with
  | ofNat n => simpa [itoa] using notMem_toDigits hc n
  | negSucc n => simpa [itoa, hminus] using notMem_toDigits hc (n + 1)

theorem atoiChars_toDigits (hlt : n < 2 ^ 63) : atoiChars (toDigits 10 n) = some (n : Int) := by
  have hminus := notMem_toDigits (c := '-') (by decide) n
  have hplus := notMem_toDigits (c := '+') (by decide) n
  have hbody : (digits (toDigits 10 n)).bind
      (fun n => if n < 2 ^ 63 then some (n : Int) else none) = some (n : Int) := by
    rw [digits_toDigits, Option.bind_some, if_pos hlt]
  unfold atoiChars
  split
  · rename_i heq
    simp [heq] at hminus
  · rename_i heq
    simp [heq] at hplus
  · exact hbody

theorem notMem_of_atoi (hatoi : atoi s = some n)
    (hc : c.isDigit = false) (hminus : c ≠ '-') (hplus : c ≠ '+') : c ∉ s.toList := by
  have hdigitless : ∀ {cs : List Char} {m : Nat}, digits cs = some m → c ∉ cs := by
    intro cs m hdigits hmem
    have hdigit := all_eq_true.mp (Option.ite_none_right_eq_some.mp hdigits).1.2 c hmem
    rw [hc] at hdigit
    cases hdigit
  unfold atoi atoiChars at hatoi
  split at hatoi
  all_goals
    obtain ⟨m, hdigits, -⟩ := Option.bind_eq_some_iff.mp hatoi
    have hrest := hdigitless hdigits
  · rename_i heq
    simpa [heq, hminus] using hrest
  · rename_i heq
    simpa [heq, hplus] using hrest
  · exact hrest

theorem atoi_itoa (hlow : -2 ^ 63 ≤ n) (hhigh : n < 2 ^ 63) : atoi (itoa n) = some n := by
  cases n with
  | ofNat n =>
    have hlt : n < 2 ^ 63 := by
      have := Int.ofNat_lt.mp hhigh
      exact this
    simpa [atoi, itoa] using atoiChars_toDigits hlt
  | negSucc n =>
    have hle : n + 1 ≤ 2 ^ 63 := by omega
    simp only [atoi, itoa, String.toList_append, toList_repr]
    change (digits (toDigits 10 (n + 1))).bind _ = _
    rw [digits_toDigits, Option.bind_some, if_pos hle]
    rfl

theorem itoa_injective : Function.Injective itoa := by
  intro m n heq
  have hchars := congrArg String.toList heq
  cases m with
  | ofNat m =>
    cases n with
    | ofNat =>
      simp only [itoa, toList_repr] at hchars
      have hval := congrArg digits hchars
      rw [digits_toDigits, digits_toDigits, Option.some.injEq] at hval
      rw [hval]
    | negSucc =>
      simp only [itoa, toList_repr, String.toList_append] at hchars
      have hminus := notMem_toDigits (c := '-') (by decide) m
      rw [hchars] at hminus
      simp at hminus
  | negSucc =>
    cases n with
    | ofNat n =>
      simp only [itoa, toList_repr, String.toList_append] at hchars
      have hminus := notMem_toDigits (c := '-') (by decide) n
      rw [← hchars] at hminus
      simp at hminus
    | negSucc =>
      simp only [itoa, toList_repr, String.toList_append] at hchars
      have hval := congrArg digits (append_cancel_left hchars)
      rw [digits_toDigits, digits_toDigits, Option.some.injEq] at hval
      rw [succ.inj hval]

end GoString
