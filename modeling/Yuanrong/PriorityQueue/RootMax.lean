import Yuanrong.PriorityQueue.DeHeap

/-!
# When the root of the heap is the largest item

Not every removal keeps the order below the root, so only the root is followed here. Inserting an
item keeps the largest at the root. A removal of the root looks at six items to find the next one,
which are all there are as long as at most seven remain.
-/

namespace Yuanrong.PriorityQueue

open List Nat

theorem log2_succ_parent (hpos : 0 < i) : log2 (i + 1) = log2 (parent i + 1) + 1 := by
  have heq : (i + 1) / 2 = parent i + 1 := by
    unfold parent
    omega
  rw [log2_def, if_pos (by omega), heq]

theorem isMaxLevel_parent (hpos : 0 < i) : isMaxLevel (parent i) = !isMaxLevel i := by
  unfold isMaxLevel
  rw [log2_succ_parent hpos]
  rcases mod_two_eq_zero_or_one (log2 (parent i + 1)) with h | h
  all_goals simp [h, add_mod]

theorem grandparent_eq_some_iff : grandparent i = some g ↔ 3 ≤ i ∧ g = parent (parent i) := by
  unfold grandparent parent
  split
  · rw [Option.some_inj]
    omega
  · simp only [reduceCtorEq, false_iff]
    omega

theorem isMaxLevel_parent_parent (hpos : 0 < parent i) : isMaxLevel (parent (parent i)) = isMaxLevel i := by
  have hi : 0 < i := by
    unfold parent at hpos
    omega
  rw [isMaxLevel_parent hpos, isMaxLevel_parent hi, Bool.not_not]

theorem grandparent_lt (h : grandparent i = some g) : g < i := by
  obtain ⟨hle, rfl⟩ := grandparent_eq_some_iff.mp h
  unfold parent
  omega

theorem parent_lt (hpos : 0 < i) : parent i < i := by
  unfold parent
  omega

inductive Under (a : Nat) : Nat → Prop
  | refl : Under a a
  | child {j : Nat} : 0 < j → Under a (parent j) → Under a j

namespace Under

variable {a i j u : Nat}

theorem le (h : Under a j) : a ≤ j := by
  induction h with
  | refl => exact le_refl a
  | child _ _ ih =>
    unfold parent at ih
    omega

theorem trans (h : Under a i) (h' : Under i j) : Under a j := by
  induction h' with
  | refl => exact h
  | child hpos _ ih => exact .child hpos ih

theorem up (h : Under a j) (hne : a ≠ j) : Under a (parent j) := by
  cases h with
  | refl => exact absurd rfl hne
  | child _ h => exact h

theorem zero (j : Nat) : Under 0 j := by
  induction j using Nat.strong_induction_on with
  | _ j ih =>
    rcases Nat.eq_zero_or_pos j with rfl | hpos
    · exact .refl
    · exact .child hpos (ih _ (parent_lt hpos))

theorem total (h : Under a i) (h' : Under u i) : Under a u ∨ Under u a := by
  induction h with
  | refl => exact .inr h'
  | @child i hpos _ ih =>
    by_cases heq : u = i
    · exact .inl (heq ▸ .child hpos ‹_›)
    · exact ih (h'.up heq)

/-- Above a position are those on the other kind of level, and what its grandparent is under. -/
theorem cases_above (h : Under a i) (hne : a ≠ i) :
    isMaxLevel a = !isMaxLevel i ∨ ∃ g, grandparent i = some g ∧ Under a g := by
  cases h with
  | refl => exact absurd rfl hne
  | child hpos h =>
    cases h with
    | refl => exact .inl (isMaxLevel_parent hpos)
    | child hparent h =>
      refine .inr ⟨_, grandparent_eq_some_iff.mpr ⟨?_, rfl⟩, h⟩
      unfold parent at hparent
      omega

end Under

namespace DeHeap

variable {α : Type} {items : DeHeap α} {i j u : Nat} {fuel : Nat} {A : Nat → Prop}

def key (items : DeHeap α) (i : Nat) : Int := (items[i]?.map Item.priority).getD 0

variable {isMax : Bool} {cs : List Nat}

theorem key_of_getElem? (h : items[i]? = some item) : items.key i = item.priority := by
  simp [key, h]

theorem compare_eq (hi : i < items.length) (hj : j < items.length) :
    items.compare i j = decide (items.key i > items.key j) := by
  simp [compare, key, hi, hj]

@[simp] theorem length_swap : (items.swap i j).length = items.length := by
  unfold swap
  split
  · simp
  · rfl

theorem swap_eq (hi : i < items.length) (hj : j < items.length) :
    items.swap i j = (items.set i items[j]).set j items[i] := by
  simp [swap, hi, hj]

theorem swap_perm : (items.swap i j).Perm items := by
  by_cases hi : i < items.length
  · by_cases hj : j < items.length
    · rw [swap_eq hi hj]
      exact set_set_perm hi hj
    · simp [swap, hj]
  · simp [swap, hi]

theorem key_swap (hi : i < items.length) (hj : j < items.length) : (items.swap i j).key k =
      if k = j then items.key i else if k = i then items.key j else items.key k := by
  rw [swap_eq hi hj]
  unfold key
  rw [getElem?_set, getElem?_set]
  split
  case isTrue hkj => simp [hkj.symm, hi, hj]
  rename_i hkj
  split
  case isTrue hki =>
    subst hki
    simp [hj, Ne.symm hkj]
  case isFalse hki => simp [Ne.symm hkj, Ne.symm hki]

theorem key_swap_of_ne (hi : k ≠ i) (hj : k ≠ j) : (items.swap i j).key k = items.key k := by
  by_cases hil : i < items.length
  · by_cases hjl : j < items.length
    · rw [key_swap hil hjl, if_neg hj, if_neg hi]
    · simp [swap, hjl]
  · simp [swap, hil]

theorem key_swap_of_not {P : Nat → Prop} (hi : P i) (hj : P j) (hk : ¬P k) :
    (items.swap i j).key k = items.key k :=
  key_swap_of_ne (fun h => hk (h ▸ hi)) fun h => hk (h ▸ hj)

def Above (isMax : Bool) (u v : Int) : Prop := if isMax then v ≤ u else u ≤ v

instance {isMax : Bool} {u v : Int} : Decidable (Above isMax u v) :=
  inferInstanceAs (Decidable (if isMax = true then v ≤ u else u ≤ v))

section Above

variable {isMax : Bool} {u : Int}

theorem Above.refl : Above isMax u u := by cases isMax <;> exact le_refl u

theorem Above.trans (h : Above isMax u v) (h' : Above isMax v w) : Above isMax u w := by
  cases isMax with
  | false => exact le_trans (show u ≤ v from h) h'
  | true => exact le_trans (show w ≤ v from h') h

theorem above_not : Above (!isMax) u v ↔ Above isMax v u := by cases isMax <;> exact Iff.rfl

theorem Above.antisymm (h : Above isMax u v) (h' : Above (!isMax) u v) : u = v := by
  cases isMax with
  | false => exact le_antisymm h h'
  | true => exact le_antisymm h' h

theorem above_of_compare (hi : i < items.length) (hj : j < items.length)
    (h : items.compare i j = isMax) : Above isMax (items.key i) (items.key j) := by
  rw [compare_eq hi hj] at h
  subst h
  by_cases hgt : items.key i > items.key j
  · rw [decide_eq_true hgt]
    exact le_of_lt hgt
  · rw [decide_eq_false hgt]
    exact not_lt.mp hgt

theorem above_of_not_compare (hi : i < items.length) (hj : j < items.length)
    (h : ¬items.compare i j = isMax) : Above isMax (items.key j) (items.key i) := by
  rw [← above_not]
  exact above_of_compare hi hj (by cases isMax <;> simpa using h)

end Above

def Bounds (items : DeHeap α) (a : Nat) : Prop :=
  ∀ j, Under a j → j < items.length → Above (isMaxLevel a) (items.key a) (items.key j)

def RootMax (items : DeHeap α) : Prop := ∀ j, j < items.length → items.key j ≤ items.key 0

theorem rootMax_iff_forall_mem : items.RootMax ↔ ∀ item ∈ items, item.priority ≤ items.key 0 := by
  constructor
  · intro hroot item hmem
    obtain ⟨j, hj, rfl⟩ := mem_iff_getElem.mp hmem
    rw [← key_of_getElem? (getElem?_eq_getElem hj)]
    exact hroot j hj
  · intro hall j hj
    rw [key_of_getElem? (getElem?_eq_getElem hj)]
    exact hall _ (getElem_mem hj)

theorem RootMax.of_perm {items' : DeHeap α} (hroot : items.RootMax) (hperm : items'.Perm items)
    (hkey : items'.key 0 = items.key 0) : items'.RootMax := by
  rw [rootMax_iff_forall_mem] at hroot ⊢
  intro item hmem
  rw [hkey]
  exact hroot item (hperm.mem_iff.mp hmem)

theorem RootMax.swap (hroot : items.RootMax) (hi : 0 < i) (hj : 0 < j) : (items.swap i j).RootMax :=
  hroot.of_perm swap_perm (key_swap_of_ne hi.ne hj.ne)

theorem climb_perm : ∀ {items : DeHeap α} {i : Nat}, (climb isMax fuel items i).Perm items := by
  induction fuel with
  | zero => exact List.Perm.refl _
  | succ _ ih =>
    intro items i
    unfold climb
    split
    · exact List.Perm.refl _
    split
    · exact List.Perm.refl _
    · exact ih.trans swap_perm

theorem shiftUp_perm : (items.shiftUp i).Perm items := by
  unfold shiftUp
  simp only
  split
  · exact climb_perm.trans swap_perm
  · exact climb_perm

theorem push_perm : (items.push item).Perm (item :: items) :=
  shiftUp_perm.trans (perm_append_singleton item items)

theorem key_append_left (hj : j < items.length) : key (items ++ l) j = items.key j := by
  simp [key, getElem?_append_left hj]

def BoundsBut (A : Nat → Prop) (items : DeHeap α) (i : Nat) : Prop :=
  ∀ a, A a → ∀ j, Under a j → j < items.length → j ≠ i → Above (isMaxLevel a) (items.key a) (items.key j)

/-- The item at `i` is in order with those above it on the other kind of level. -/
def Opposed (A : Nat → Prop) (items : DeHeap α) (i : Nat) : Prop :=
  ∀ a, A a → Under a i → isMaxLevel a = !isMaxLevel i → Above (isMaxLevel a) (items.key a) (items.key i)

theorem bounds_of_but (h : BoundsBut A items i) (hopposed : Opposed A items i) (hi : i < items.length)
    (hg : ∀ g, grandparent i = some g → Above (isMaxLevel i) (items.key g) (items.key i)) :
    ∀ a, A a → items.Bounds a := by
  intro a ha j hj hlt
  by_cases hji : j = i
  · subst hji
    by_cases haj : a = j
    · exact haj ▸ .refl
    by_cases hlevel : isMaxLevel a = !isMaxLevel j
    · exact hopposed a ha hj hlevel
    obtain ⟨g, hgrand, hag⟩ := (hj.cases_above haj).resolve_left hlevel
    have hglt := grandparent_lt hgrand
    have hsame : isMaxLevel a = isMaxLevel j := by simpa using hlevel
    exact (h a ha g hag (by omega) (by omega)).trans (hsame ▸ hg g hgrand)
  · exact h a ha j hj hlt hji

theorem BoundsBut.swap (h : BoundsBut A items i) (hi : i < items.length) (hu : Under u i) (hlt : u < i)
    (hx : Above (isMaxLevel u) (items.key i) (items.key u))
    (hbetween : ∀ a, A a → Under u a → a ≠ u → a ≠ i → Under a i →
      Above (isMaxLevel a) (items.key a) (items.key u))
    (hdown : A i → ∀ j, Under i j → j < items.length → j ≠ i →
      Above (isMaxLevel i) (items.key u) (items.key j)) : BoundsBut A (items.swap u i) u := by
  intro a ha j hj hjl hju
  rw [length_swap] at hjl
  rw [key_swap (by omega) hi, key_swap (by omega) hi]
  by_cases hji : j = i
  · subst hji
    rw [if_pos rfl]
    by_cases haj : a = j
    · rw [if_pos haj]
      exact .refl
    rw [if_neg haj]
    by_cases hau : a = u
    · rw [if_pos hau, hau]
      exact hx
    rw [if_neg hau]
    rcases hj.total hu with hup | hdown
    · exact h a ha u hup (by omega) (by omega)
    · exact hbetween a ha hdown hau haj hj
  rw [if_neg hji, if_neg hju]
  by_cases hai : a = i
  · subst hai
    rw [if_pos rfl]
    exact hdown ha j hj hjl hji
  rw [if_neg hai]
  split
  case isTrue hau =>
    subst hau
    exact hx.trans (h a ha j hj hjl hji)
  case isFalse => exact h a ha j hj hjl hji

section

variable (hA : ∀ a, A a → A (parent a))
include hA

theorem bounds_climb : ∀ {items : DeHeap α} {i : Nat}, i ≤ fuel → i < items.length →
    BoundsBut A items i → Opposed A items i →
      ∀ a, A a → (climb (isMaxLevel i) fuel items i).Bounds a := by
  induction fuel with
  | zero =>
    intro items i hle hi hbut hopposed
    refine bounds_of_but hbut hopposed hi fun g hg => ?_
    rw [le_zero.mp hle] at hg
    cases hg
  | succ _ ih =>
    intro items i hle hi hbut hopposed
    unfold climb
    split
    case h_1 hnone =>
      refine bounds_of_but hbut hopposed hi fun g hg => ?_
      rw [hnone] at hg
      cases hg
    rename_i g hg
    have hlt := grandparent_lt hg
    have hgl : g < items.length := by omega
    split
    case isTrue hstop =>
      refine bounds_of_but hbut hopposed hi fun g' hg' => ?_
      cases hg.symm.trans hg'
      exact above_of_compare hgl hi hstop
    rename_i hgo
    obtain ⟨hthree, rfl⟩ := grandparent_eq_some_iff.mp hg
    have hpos : 0 < parent i := by
      unfold parent
      omega
    have hlevel := isMaxLevel_parent_parent hpos
    have hunder : Under (parent (parent i)) (parent i) := .child hpos .refl
    have hup : Under (parent (parent i)) i := .child (by omega) hunder
    have hx := above_of_not_compare hgl hi hgo
    rw [← hlevel] at hx ⊢
    refine ih (by omega) (by simpa using hgl) (hbut.swap hi hup hlt hx ?_ ?_) ?_
    · intro a ha hga hne hai hau
      have hap : a = parent i := by
        by_contra hap
        exact hne (le_antisymm ((hau.up hai).up hap).le hga.le)
      subst hap
      have hp := parent_lt (i := i) (by omega)
      have habove := hbut _ (hA _ ha) _ hunder (by omega) (by omega)
      rwa [isMaxLevel_parent hpos, above_not] at habove
    · intro ha j hj hjl hji
      rw [← hlevel]
      exact hbut _ (hA _ (hA _ ha)) j (hup.trans hj) hjl hji
    · intro a ha hag hopp
      have hne : a ≠ parent (parent i) := by
        rintro rfl
        simp at hopp
      have hle := hag.le
      rw [key_swap hgl hi, key_swap hgl hi, if_neg (by omega), if_neg hne, if_neg (by omega), if_pos rfl]
      exact hopposed a ha (hag.trans hup) (hlevel ▸ hopp)

/-- An item that may be out of order with all above it is moved up to where it is in order. -/
theorem bounds_shiftUp (hi : i < items.length) (hbut : BoundsBut A items i) :
    ∀ a, A a → (items.shiftUp i).Bounds a := by
  have hpl : parent i < items.length := by
    unfold parent
    omega
  unfold shiftUp
  dsimp only
  split
  case isTrue hyes =>
    have hpos : 0 < i := by
      by_contra hzero
      obtain rfl : i = 0 := by omega
      rw [compare_eq hpl hi, show isMaxLevel 0 = true by decide] at hyes
      exact lt_irrefl _ (of_decide_eq_true hyes)
    have hp := parent_lt hpos
    have hlevel := isMaxLevel_parent hpos
    have hdown := above_of_compare hpl hi hyes
    have hx := above_not.mpr hdown
    rw [← hlevel] at hx
    rw [← hlevel]
    refine bounds_climb hA hp.le (by simpa using hpl) (hbut.swap hi (.child hpos .refl) hp hx ?_ ?_) ?_
    · intro a _ hpa hne hai hau
      exact absurd (le_antisymm (hau.up hai).le hpa.le) hne
    · intro ha j hj hjl hji
      exact hdown.trans (hbut i ha j hj hjl hji)
    intro a ha hap hopp
    have hne : a ≠ parent i := by
      rintro rfl
      simp at hopp
    have hle := hap.le
    rw [key_swap hpl hi, key_swap hpl hi, if_neg (by omega), if_neg hne, if_neg (by omega), if_pos rfl]
    rw [← above_not, ← hopp] at hx
    exact (hbut a ha _ hap hpl (by omega)).trans hx
  case isFalse hno =>
    have hx := above_of_not_compare hpl hi hno
    rw [← above_not] at hx
    refine bounds_climb hA le_rfl hi hbut fun a ha hai hopp => ?_
    have hne : a ≠ i := by
      rintro rfl
      simp at hopp
    have hle := hai.le
    have hp := parent_lt (i := i) (by omega)
    exact (hbut a ha _ (hai.up hne) hpl (by omega)).trans (hopp ▸ hx)

theorem bounds_push (h : ∀ a, A a → items.Bounds a) : ∀ a, A a → (items.push item).Bounds a := by
  refine bounds_shiftUp hA (by simp) fun a ha j hj hlt hne => ?_
  rw [length_append, length_singleton] at hlt
  have hle := hj.le
  rw [key_append_left (by omega), key_append_left (by omega)]
  exact h a ha j hj (by omega)

end

theorem RootMax.push (hroot : items.RootMax) : (items.push item).RootMax := by
  have hpush : (items.push item).Bounds 0 := by
    refine bounds_push ?_ ?_ 0 rfl
    · rintro _ rfl
      rfl
    · rintro _ rfl j - hj
      exact hroot j hj
  exact fun j hj => hpush j (.zero j) hj

theorem sink_perm : ∀ {items : DeHeap α} {i : Nat}, (sink fuel items i).Perm items := by
  induction fuel with
  | zero => exact List.Perm.refl _
  | succ _ ih =>
    intro items i
    unfold sink
    simp only
    split
    · exact List.Perm.refl _
    split
    · exact List.Perm.refl _
    split
    · exact swap_perm
    split
    · exact (ih.trans swap_perm).trans swap_perm
    · exact ih.trans swap_perm

theorem shiftDown_perm : (items.shiftDown i).Perm items := sink_perm

theorem mem_below_iff : j ∈ items.below i ↔ j < items.length ∧
      (j = 2 * i + 1 ∨ j = 2 * i + 2 ∨ (4 * i + 3 ≤ j ∧ j ≤ 4 * i + 6)) := by
  simp only [below, leftChild, rightChild, mem_filter, mem_cons, not_mem_nil, or_false, decide_eq_true_eq]
  omega

theorem foldl_choose_mem :
    ∀ {t : Nat}, cs.foldl (fun t c => if items.compare c t = isMax then c else t) t = t ∨
      cs.foldl (fun t c => if items.compare c t = isMax then c else t) t ∈ cs := by
  induction cs with
  | nil => exact .inl rfl
  | cons c _ ih =>
    intro t
    rw [foldl_cons]
    split
    · rcases ih with h | h
      · rw [h]
        exact .inr mem_cons_self
      · exact .inr (mem_cons_of_mem _ h)
    · rcases ih with h | h
      · exact .inl h
      · exact .inr (mem_cons_of_mem _ h)

theorem choose_mem (items : DeHeap α) (isMax : Bool) (i : Nat) :
    items.choose isMax i = i ∨ items.choose isMax i ∈ items.below i := foldl_choose_mem

variable {isMax : Bool}

theorem foldl_choose_above (hcs : ∀ c ∈ cs, c < items.length) :
    ∀ {t : Nat}, t < items.length → ∀ c, c = t ∨ c ∈ cs →
      Above isMax (items.key (cs.foldl (fun t c => if items.compare c t = isMax then c else t) t))
        (items.key c) := by
  induction cs with
  | nil =>
    rintro t _ c (rfl | hmem)
    · exact .refl
    · cases hmem
  | cons d cs ih =>
    intro t ht c hc
    have hd := hcs d mem_cons_self
    have hrest : ∀ c ∈ cs, c < items.length := fun c h => hcs c (mem_cons_of_mem _ h)
    rw [foldl_cons]
    split
    case isTrue hgt =>
      have hfold := ih hrest hd
      rcases hc with rfl | hmem
      · exact (hfold d (.inl rfl)).trans (above_of_compare hd ht hgt)
      · exact hfold c (mem_cons.mp hmem)
    case isFalse hgt =>
      have hfold := ih hrest ht
      rcases hc with rfl | hmem
      · exact hfold c (.inl rfl)
      rcases mem_cons.mp hmem with rfl | hmem
      · exact (hfold t (.inl rfl)).trans (above_of_not_compare hd ht hgt)
      · exact hfold c (.inr hmem)

theorem above_choose (hi : i < items.length) (hj : j = i ∨ j ∈ items.below i) :
    Above isMax (items.key (items.choose isMax i)) (items.key j) :=
  foldl_choose_above (fun _ h => (mem_below_iff.mp h).1) hi j hj

theorem RootMax.sink :
    ∀ {items : DeHeap α} {i : Nat}, items.RootMax → 0 < i → (sink fuel items i).RootMax := by
  induction fuel with
  | zero => exact fun hroot _ => hroot
  | succ _ ih =>
    intro items i hroot hpos
    unfold DeHeap.sink
    simp only
    split
    · exact hroot
    split
    · exact hroot
    rename_i hne
    have hbelow := mem_below_iff.mp ((choose_mem items _ i).resolve_left hne)
    have htpos : 0 < items.choose (isMaxLevel i) i := by omega
    have hswap := hroot.swap hpos htpos
    split
    · exact hswap
    case isFalse hchild =>
      have hppos : 0 < parent (items.choose (isMaxLevel i) i) := by
        unfold parent
        omega
      split
      · exact ih (hswap.swap hppos htpos) hppos
      · exact ih hswap htpos

/-- With at most seven items the first round at the root finds the largest of them. -/
theorem rootMax_shiftDown_zero (hlen : items.length ≤ 7) : (items.shiftDown 0).RootMax := by
  unfold shiftDown
  cases hlength : items.length with
  | zero =>
    intro j hj
    rw [sink_perm.length_eq] at hj
    omega
  | succ =>
    have hzero : 0 < items.length := by omega
    have hlevel : isMaxLevel 0 = true := by decide
    have hmax : ∀ j, j < items.length → items.key j ≤ items.key (items.choose true 0) := by
      intro j hj
      refine (above_choose hzero ?_ : Above true _ _)
      rw [mem_below_iff]
      omega
    unfold DeHeap.sink
    simp only [hlevel]
    split
    case isTrue hsmall =>
      intro j hj
      unfold leftChild at hsmall
      rw [show j = 0 by omega]
    case isFalse =>
      split
      case isTrue hroot =>
        intro j hj
        rw [hroot] at hmax
        exact hmax j hj
      case isFalse hne =>
        have hbelow := mem_below_iff.mp ((choose_mem items true 0).resolve_left hne)
        have htpos : 0 < items.choose true 0 := by omega
        have hswap : (items.swap 0 (items.choose true 0)).RootMax := by
          intro j hj
          rw [length_swap] at hj
          rw [key_swap hzero hbelow.1, key_swap hzero hbelow.1, if_neg (Ne.symm hne), if_pos rfl]
          split
          · exact hmax 0 hzero
          split
          · exact le_refl _
          · exact hmax j hj
        split
        · exact hswap
        rename_i hchild
        have hppos : 0 < parent (items.choose true 0) := by
          unfold parent
          unfold leftChild rightChild at hchild
          omega
        split
        · exact (hswap.swap hppos htpos).sink hppos
        · exact hswap.sink htpos

theorem perm_cons_remove (hi : i < items.length) : items.Perm (items[i] :: items.remove i) := by
  have hn : items.length - 1 < items.length := by omega
  have hlast : (items.swap i (items.length - 1))[items.length - 1]? = some items[i] := by
    rw [swap_eq hi hn]
    simp [hn]
  have hsplit : items.swap i (items.length - 1) =
      (items.swap i (items.length - 1)).take (items.length - 1) ++ [items[i]] := by
    have htake := take_add_one (l := items.swap i (items.length - 1)) (i := items.length - 1)
    rw [hlast, take_of_length_le (by rw [length_swap]; omega)] at htake
    exact htake
  have hremove : (items.remove i).Perm ((items.swap i (items.length - 1)).take (items.length - 1)) := by
    unfold remove
    rw [if_neg (by omega)]
    exact shiftDown_perm
  calc items.Perm (items.swap i (items.length - 1)) := swap_perm.symm
    _ = (items.swap i (items.length - 1)).take (items.length - 1) ++ [items[i]] := hsplit
    List.Perm _ (items[i] :: (items.swap i (items.length - 1)).take (items.length - 1)) :=
      perm_append_singleton _ _
    List.Perm _ (items[i] :: items.remove i) := hremove.symm.cons _

theorem mem_of_mem_remove (hmem : item ∈ items.remove i) : item ∈ items := by
  unfold remove at hmem
  split at hmem
  · exact hmem
  · exact swap_perm.mem_iff.mp (mem_of_mem_take (shiftDown_perm.mem_iff.mp hmem))

theorem key_take (hj : j < n) : key (items.take n) j = items.key j := by
  simp [key, hj]

theorem RootMax.remove (hroot : items.RootMax) (hsmall : i = 0 → items.length ≤ 8) :
    (items.remove i).RootMax := by
  rcases Nat.eq_zero_or_pos i with rfl | hpos
  · unfold DeHeap.remove
    split
    case isTrue hempty => exact fun j hj => by omega
    case isFalse =>
      refine rootMax_shiftDown_zero ?_
      rw [length_take, length_swap]
      have hlen := hsmall rfl
      omega
  · unfold DeHeap.remove
    split
    · exact hroot
    rename_i hi
    refine RootMax.sink ?_ hpos
    have hswap := hroot.swap hpos (by omega : 0 < items.length - 1)
    intro j hj
    rw [length_take, length_swap] at hj
    rw [key_take (by omega), key_take (by omega)]
    exact hswap j (by rw [length_swap]; omega)

end DeHeap

end Yuanrong.PriorityQueue
