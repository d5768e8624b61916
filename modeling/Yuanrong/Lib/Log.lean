import Mathlib.Order.Nat

/-!
# Logs of numbered records

A log files its records under the numbers from one on. It grows at its end, is read from its start
up to the first number without a record, and is copied record by record, with a cursor that says how
far the copy is known to have come.
-/

abbrev Log (α : Type) := Nat → Option α

namespace Log

open Option Function List Bool

variable {α : Type} {index : α → Nat} {l l' : Log α} {n i : Nat} {a : α} {read : List α}

/-- The log holds the numbers from one to its length and every record has the number it is filed
under. -/
structure Complete (index : α → Nat) (l : Log α) (n : Nat) : Prop where
  isSome_iff : ∀ i, (l i).isSome ↔ 1 ≤ i ∧ i ≤ n
  numbered : ∀ i a, l i = some a → index a = i

def Gapless (index : α → Nat) (l : Log α) : Prop := ∃ n, Complete index l n

def Extends (l l' : Log α) : Prop := ∀ i a, l i = some a → l' i = some a

theorem Extends.refl (l : Log α) : Extends l l := fun _ _ h => h

theorem Complete.bounds (hl : Complete index l n) (hi : l i = some a) : 1 ≤ i ∧ i ≤ n :=
  (hl.isSome_iff i).mp (by rw [hi]; rfl)

theorem Complete.exists_record (hl : Complete index l n) (hpos : 1 ≤ i) (hle : i ≤ n) : ∃ a, l i = some a :=
  isSome_iff_exists.mp ((hl.isSome_iff i).mpr ⟨hpos, hle⟩)

theorem complete_empty (hnone : ∀ i, l i = none) : Complete index l 0 where
  isSome_iff i := by
    rw [hnone i]
    constructor
    · nofun
    · omega
  numbered i a h := by
    rw [hnone i] at h
    cases h

theorem Gapless.eq_none (hl : Gapless index l) (hfirst : l 1 = none) (i : Nat) : l i = none := by
  obtain ⟨n, hn⟩ := hl
  by_contra hne
  obtain ⟨a, ha⟩ := ne_none_iff_exists'.mp hne
  obtain ⟨hpos, hle⟩ := hn.bounds ha
  obtain ⟨b, hb⟩ := hn.exists_record (le_refl 1) (hpos.trans hle)
  rw [hfirst] at hb
  cases hb

theorem Gapless.first_isSome (hl : Gapless index l) (hi : l i = some a) : (l 1).isSome := by
  obtain ⟨n, hn⟩ := hl
  obtain ⟨hpos, hle⟩ := hn.bounds hi
  exact (hn.isSome_iff 1).mpr ⟨le_refl 1, hpos.trans hle⟩

def isNext (l : Log α) (i : Nat) : Bool :=
  (l i).isNone && (i = 1 || (1 < i && (l (i - 1)).isSome))

theorem Complete.eq_of_isNext (hl : Complete index l n) (hnext : l.isNext i = true) : i = n + 1 := by
  unfold isNext at hnext
  simp only [and_eq_true, or_eq_true, decide_eq_true_eq, isNone_iff_eq_none] at hnext
  obtain ⟨hnone, hprev⟩ := hnext
  have hout : ¬ (1 ≤ i ∧ i ≤ n) := by
    rw [← hl.isSome_iff i, hnone]
    exact false_ne_true
  rcases hprev with hone | ⟨hlt, hsome⟩
  · omega
  · have hbounds := (hl.isSome_iff (i - 1)).mp hsome
    omega

theorem Complete.append (hl : Complete index l n) (hindex : index a = n + 1) :
    Complete index (update l (n + 1) (some a)) (n + 1) where
  isSome_iff i := by
    by_cases hi : i = n + 1
    · subst hi
      simp
    · rw [update_of_ne hi, hl.isSome_iff]
      omega
  numbered i b hb := by
    by_cases hi : i = n + 1
    · subst hi
      rw [update_self] at hb
      cases hb
      exact hindex
    · rw [update_of_ne hi] at hb
      exact hl.numbered i b hb

theorem Gapless.append (hl : Gapless index l) (hnext : l.isNext (index a) = true) :
    Gapless index (update l (index a) (some a)) := by
  obtain ⟨n, hn⟩ := hl
  have hindex := hn.eq_of_isNext hnext
  rw [hindex]
  exact ⟨n + 1, hn.append hindex⟩

theorem extends_append (hnext : l.isNext i = true) : Extends l (update l i (some a)) := by
  intro j b hb
  have hnone : l i = none := by
    unfold isNext at hnext
    simp only [and_eq_true, isNone_iff_eq_none] at hnext
    exact hnext.1
  have hj : j ≠ i := by
    intro heq
    rw [heq, hnone] at hb
    cases hb
  rw [update_of_ne hj]
  exact hb

def Follows (l : Log α) (k : Nat) (as : List α) : Prop :=
  ∀ j a, as[j]? = some a → l (k + 1 + j) = some a

theorem follows_nil (l : Log α) (k : Nat) : Follows l k [] := by
  intro j a h
  simp at h

theorem follows_cons : Follows l k (a :: as) ↔ l (k + 1) = some a ∧ Follows l (k + 1) as := by
  constructor
  · intro h
    refine ⟨h 0 a rfl, ?_⟩
    intro j b hb
    have hnext := h (j + 1) b hb
    rwa [show k + 1 + (j + 1) = k + 1 + 1 + j by omega] at hnext
  · rintro ⟨hhead, htail⟩ j b hb
    cases j with
    | zero =>
      cases hb
      exact hhead
    | succ j =>
      have hnext := htail j b hb
      rwa [show k + 1 + 1 + j = k + 1 + (j + 1) by omega] at hnext

theorem Follows.extend (h : Follows l k as) (hext : Extends l l') : Follows l' k as :=
  fun j a ha => hext _ a (h j a ha)

section

variable (h : Follows l 0 read)
include h

theorem Follows.snoc (hnext : l (read.length + 1) = some a) : Follows l 0 (read ++ [a]) := by
  intro j b hb
  rw [getElem?_append] at hb
  split at hb
  · exact h j b hb
  rename_i hge
  have hj : j = read.length := by
    by_contra hne
    rw [getElem?_eq_none (by simp; omega)] at hb
    cases hb
  subst hj
  simp only [Nat.sub_self, getElem?_cons_zero, Option.some.injEq] at hb
  rw [← hb, show 0 + 1 + read.length = read.length + 1 by omega]
  exact hnext

theorem Follows.length_le (hl : Complete index l n) : read.length ≤ n := by
  by_contra hlt
  obtain ⟨a, ha⟩ : ∃ a, read[n]? = some a := ⟨_, getElem?_eq_getElem (by omega)⟩
  have hbounds := hl.bounds (h n a ha)
  omega

theorem Follows.length_eq (hl : Complete index l n) (hend : l (read.length + 1) = none) :
    read.length = n := by
  have hle := h.length_le hl
  by_contra hne
  obtain ⟨a, ha⟩ := hl.exists_record (show 1 ≤ read.length + 1 by omega) (by omega)
  rw [hend] at ha
  cases ha

theorem Follows.mem (hmem : a ∈ read) : ∃ i, l i = some a ∧ 1 ≤ i ∧ i ≤ read.length := by
  obtain ⟨j, hj⟩ := mem_iff_getElem?.mp hmem
  have hlt : j < read.length := (List.getElem?_eq_some_iff.mp hj).1
  exact ⟨0 + 1 + j, h j a hj, by omega, by omega⟩

theorem Follows.mem_of_complete (hl : Complete index l n)
    (hlength : read.length = n) (hi : l i = some a) : a ∈ read := by
  obtain ⟨hpos, hle⟩ := hl.bounds hi
  obtain ⟨b, hb⟩ : ∃ b, read[i - 1]? = some b := ⟨_, getElem?_eq_getElem (by omega)⟩
  have hfound := h (i - 1) b hb
  rw [show 0 + 1 + (i - 1) = i by omega, hi] at hfound
  cases hfound
  exact mem_of_getElem? hb

theorem Follows.getLast (hlast : read.getLast? = some a) : l read.length = some a := by
  rw [getLast?_eq_getElem?] at hlast
  have hlt : read.length - 1 < read.length := (List.getElem?_eq_some_iff.mp hlast).1
  have hfound := h _ a hlast
  rwa [show 0 + 1 + (read.length - 1) = read.length by omega] at hfound

end

structure ReadAll (index : α → Nat) (l : Log α) (read : List α) : Prop where
  follows : Follows l 0 read
  complete : Complete index l read.length

theorem Follows.readAll (h : Follows l 0 read) (hl : Gapless index l)
    (hend : l (read.length + 1) = none) : ReadAll index l read := by
  obtain ⟨n, hn⟩ := hl
  refine ⟨h, ?_⟩
  rw [h.length_eq hn hend]
  exact hn

theorem ReadAll.eq_none (h : ReadAll index l read) (hempty : read.length = 0) (i : Nat) : l i = none := by
  by_contra hne
  obtain ⟨a, ha⟩ := ne_none_iff_exists'.mp hne
  have hbounds := h.complete.bounds ha
  omega

def Within (l : Log α) (i n : Nat) : Prop := ∀ k a, l k = some a → i ≤ k ∧ k ≤ n

theorem Complete.within (hl : Complete index l n) : Within l 1 n := fun _ _ ha => hl.bounds ha

theorem Within.mono (h : Within l i n) (hle : j ≤ i) : Within l j n :=
  fun k a ha => ⟨hle.trans (h k a ha).1, (h k a ha).2⟩

theorem Within.delete (h : Within l i n) : Within (update l i none) (i + 1) n := by
  intro k a ha
  have hne : k ≠ i := by
    intro heq
    rw [heq, update_self] at ha
    cases ha
  rw [update_of_ne hne] at ha
  have hbounds := h k a ha
  omega

theorem Within.eq_none (h : Within l i n) (hlt : n < i) (k : Nat) : l k = none := by
  by_contra hne
  obtain ⟨a, ha⟩ := ne_none_iff_exists'.mp hne
  have hbounds := h k a ha
  omega

section Copying

variable {f : α → α} {src src' dst : Log α} {cursor bound : Nat}

/-- The copy has all records up to the cursor, and none past the bound. -/
structure CopiedTo (f : α → α) (src dst : Log α) (cursor bound : Nat) : Prop where
  copied : ∀ i, 1 ≤ i → i ≤ cursor → ∃ a, src i = some a ∧ dst i = some (f a)
  within : ∀ i b, dst i = some b → i ≤ bound ∧ ∃ a, src i = some a ∧ b = f a

theorem copiedTo_empty (hnone : ∀ i, dst i = none) : CopiedTo f src dst 0 bound where
  copied i hpos hle := by omega
  within i b hb := by
    rw [hnone i] at hb
    cases hb

section

variable (h : CopiedTo f src dst cursor bound)
include h

theorem CopiedTo.extend (hext : Extends src src') : CopiedTo f src' dst cursor bound where
  copied i hpos hle := by
    obtain ⟨a, ha, hb⟩ := h.copied i hpos hle
    exact ⟨a, hext i a ha, hb⟩
  within i b hb := by
    obtain ⟨hle, a, ha, heq⟩ := h.within i b hb
    exact ⟨hle, a, hext i a ha, heq⟩

theorem CopiedTo.put (ha : src i = some a) (hle : i ≤ bound) :
    CopiedTo f src (update dst i (some (f a))) cursor bound where
  copied j hpos hj := by
    by_cases heq : j = i
    · subst heq
      exact ⟨a, ha, update_self ..⟩
    · rw [update_of_ne heq]
      exact h.copied j hpos hj
  within j b hb := by
    by_cases heq : j = i
    · subst heq
      rw [update_self] at hb
      cases hb
      exact ⟨hle, a, ha, rfl⟩
    · rw [update_of_ne heq] at hb
      exact h.within j b hb

theorem CopiedTo.advance (ha : src (cursor + 1) = some a) (hle : cursor + 1 ≤ bound) :
    CopiedTo f src (update dst (cursor + 1) (some (f a))) (cursor + 1) bound where
  copied j hpos hj := by
    by_cases heq : j = cursor + 1
    · subst heq
      exact ⟨a, ha, update_self ..⟩
    · rw [update_of_ne heq]
      exact h.copied j hpos (by omega)
  within := (h.put ha hle).within

end

theorem CopiedTo.exact (h : CopiedTo f src dst bound bound) (hsrc : Gapless index src) (i : Nat) :
    dst i = if i ≤ bound then (src i).map f else none := by
  obtain ⟨n, hn⟩ := hsrc
  cases hdst : dst i with
  | some b =>
    obtain ⟨hle, a, ha, rfl⟩ := h.within i b hdst
    rw [if_pos hle, ha]
    rfl
  | none =>
    split
    · rename_i hle
      cases hs : src i with
      | none => rfl
      | some =>
        obtain ⟨b, -, hcopied⟩ := h.copied i (hn.bounds hs).1 hle
        rw [hdst] at hcopied
        cases hcopied
    · rfl

/-- The loop has passed the numbers up to `k`, and `rest` reaches to the bound. -/
structure Pending (src : Log α) (cursor bound k : Nat) (rest : List α) : Prop where
  follows : Follows src k rest
  passed : min k bound ≤ cursor
  cursor_le : cursor ≤ bound
  reaches : bound ≤ k + rest.length

variable {k : Nat} {rest : List α}

theorem Pending.extend (h : Pending src cursor bound k rest) (hext : Extends src src') :
    Pending src' cursor bound k rest :=
  { h with follows := h.follows.extend hext }

theorem Pending.finished (h : Pending src cursor bound k []) : cursor = bound := by
  have hpassed := h.passed
  have hreaches := h.reaches
  have hle := h.cursor_le
  simp only [length_nil] at hreaches
  omega

section

variable (h : Pending src cursor bound k (a :: rest))
include h

theorem Pending.record : src (k + 1) = some a :=
  (follows_cons.mp h.follows).1

theorem Pending.skip (hskip : k + 1 ≤ cursor ∨ k + 1 > bound) : Pending src cursor bound (k + 1) rest where
  follows := (follows_cons.mp h.follows).2
  passed := by
    have hpassed := h.passed
    omega
  cursor_le := h.cursor_le
  reaches := by
    have hreaches := h.reaches
    rw [length_cons] at hreaches
    omega

theorem Pending.eq_cursor (hcopy : ¬ (k + 1 ≤ cursor ∨ k + 1 > bound)) : k = cursor := by
  have hpassed := h.passed
  omega

end

theorem Pending.advance (h : Pending src cursor bound cursor (a :: rest)) (hle : cursor + 1 ≤ bound) :
    Pending src (cursor + 1) bound (cursor + 1) rest where
  follows := (follows_cons.mp h.follows).2
  passed := min_le_left _ _
  cursor_le := hle
  reaches := by
    have hreaches := h.reaches
    rw [length_cons] at hreaches
    omega

end Copying

end Log
