import Yuanrong.PriorityQueue.RootMax

/-!
# The max-min order

In a max-min heap every item bounds its subtree, from above on an even level and from below on an
odd one. Taking an item out leaves one position that may not, which `shiftDown` carries down. When
it swaps an item with its parent it goes on at the parent, where nothing is left to do, and not at
the item.
-/

namespace Yuanrong.PriorityQueue

namespace Under

variable {i j : Nat}

theorem one_or_two (hpos : 0 < j) : Under 1 j ∨ Under 2 j := by
  induction j using Nat.strong_induction_on with
  | _ j ih =>
    rcases Nat.eq_zero_or_pos (parent j) with hroot | hparent
    · obtain rfl | rfl : j = 1 ∨ j = 2 := by
        unfold parent at hroot
        omega
      · exact .inl .refl
      · exact .inr .refl
    · exact (ih _ (parent_lt hpos) hparent).imp (.child hpos) (.child hpos)

theorem cases_below (h : Under i j) : j = i ∨ (0 < j ∧ parent j = i) ∨
    ∃ c, Under c j ∧ 0 < parent c ∧ parent (parent c) = i := by
  induction h with
  | refl => exact .inl rfl
  | @child j hpos _ ih =>
    rcases ih with heq | ⟨hparent, heq⟩ | ⟨c, hc, hgrand⟩
    · exact .inr (.inl ⟨hpos, heq⟩)
    · exact .inr (.inr ⟨j, .refl, hparent, heq⟩)
    · exact .inr (.inr ⟨c, .child hpos hc, hgrand⟩)

end Under

namespace DeHeap

open List Nat

variable {α : Type} {items items' : DeHeap α} {a i t : Nat}

def MaxMin (items : DeHeap α) : Prop := ∀ a, items.Bounds a

/-- The order but for the item at `i`, be it the upper or the lower one. -/
abbrev Hole (items : DeHeap α) (i : Nat) : Prop := BoundsBut (· ≠ i) items i

theorem Hole.boundsBut (h : items.Hole i) (hi : ∀ j, Under i j → j < items.length → j ≠ i →
    Above (isMaxLevel i) (items.key i) (items.key j)) : BoundsBut (fun _ => True) items i := by
  intro a _ j hj hlt hji
  by_cases ha : a = i
  · subst ha
    exact hi j hj hlt hji
  · exact h a ha j hj hlt hji

theorem above_of_under (hhole : items.Hole i) (hj : Under i j) (hlt : j < items.length)
    (hu : ∀ c, c = i ∨ c ∈ items.below i → Above (isMaxLevel i) u (items.key c)) :
    Above (isMaxLevel i) u (items.key j) := by
  rcases hj.cases_below with heq | ⟨hpos, hchild⟩ | ⟨c, hc, hpos, hgrand⟩
  · exact hu j (.inl heq)
  · refine hu j (.inr (mem_below_iff.mpr ⟨hlt, ?_⟩))
    unfold parent at hchild
    omega
  have hle := hc.le
  have hmem : c ∈ items.below i := by
    refine mem_below_iff.mpr ⟨by omega, ?_⟩
    unfold parent at hgrand hpos
    omega
  have hne : c ≠ i := by
    have := (mem_below_iff.mp hmem).2
    omega
  have hlevel : isMaxLevel c = isMaxLevel i := by rw [← hgrand, isMaxLevel_parent_parent hpos]
  have hji : j ≠ i := by
    have := (mem_below_iff.mp hmem).2
    omega
  exact (hu c (.inr hmem)).trans (hlevel ▸ hhole c hne j hc hlt hji)

theorem Hole.above_chosen (h : items.Hole i) (hi : i < items.length)
    (hchosen : items.choose (isMaxLevel i) i = t) (hj : Under i j) (hlt : j < items.length) :
    Above (isMaxLevel i) (items.key t) (items.key j) :=
  hchosen ▸ above_of_under h hj hlt fun _ hc => above_choose hi hc

/-- What `shiftDown` chooses is brought up, and the hole moves down. -/
theorem Hole.swap (h : items.Hole i) (hi : i < items.length) (ht : t < items.length)
    (hchosen : items.choose (isMaxLevel i) i = t) (hunder : Under i t) (hne : t ≠ i) :
    (items.swap i t).Hole t := by
  intro a ha j hj hlt hjt
  rw [length_swap] at hlt
  rw [key_swap hi ht, key_swap hi ht, if_neg ha, if_neg hjt]
  by_cases hji : j = i
  · rw [if_pos hji]
    split
    case isTrue => exact .refl
    case isFalse hai => exact h a hai t ((hji ▸ hj).trans hunder) ht hne
  · rw [if_neg hji]
    split
    case isTrue hai =>
      subst hai
      exact h.above_chosen hi hchosen hj hlt
    case isFalse hai => exact h a hai j hj hlt hji

/-- The order can be read off the parents and grandparents. -/
theorem maxMin_of_local (h : ∀ j < items.length, 0 < j →
    Above (isMaxLevel (parent j)) (items.key (parent j)) (items.key j) ∧ (0 < parent j →
      Above (isMaxLevel (parent (parent j))) (items.key (parent (parent j))) (items.key j))) :
    items.MaxMin := by
  have hbounds : ∀ n a, items.length ≤ a + n → items.Bounds a := by
    intro n
    induction n with
    | zero =>
      intro a hle j hj hlt
      have := hj.le
      omega
    | succ _ ih =>
      intro a hle j hj hlt
      rcases hj.cases_below with rfl | ⟨hpos, rfl⟩ | ⟨c, hc, hpos, rfl⟩
      · exact .refl
      · exact (h j hlt hpos).1
      have hcle := hc.le
      have hup : parent (parent c) < c := lt_trans (parent_lt hpos) (parent_lt (by
        unfold parent at hpos
        omega))
      refine ((h c (by omega) (by omega)).2 hpos).trans ?_
      rw [isMaxLevel_parent_parent hpos]
      exact ih c (by omega) j hc hlt
  exact fun a => hbounds items.length a (by omega)

/-- What `shiftDown` chooses for the place `j` if the item stands there. -/
def choice (items : DeHeap α) (item : Item α) (j : Nat) : Nat := choose (items.set j item) (isMaxLevel j) j

abbrev Grandchild (j t : Nat) : Prop := 0 < parent t ∧ parent (parent t) = j

/-- The item has to change places with the parent of `t` when it comes to `t`. -/
def passes (items : DeHeap α) (item : Item α) (t : Nat) : Bool :=
  decide (items.key (parent t) > item.priority) == isMaxLevel t

/-- The grandchildren from `i` down each of which is chosen for the place of the one before, as long
as the item does not have to pass a parent. -/
inductive Way (items : DeHeap α) (item : Item α) : Nat → Nat → Prop
  | refl {i : Nat} : Way items item i i
  | down {i j : Nat} : Grandchild i (items.choice item i) →
      items.passes item (items.choice item i) = false → Way items item (items.choice item i) j →
        Way items item i j

/-- Where the item has to pass the parent of a grandchild, all below that grandchild has the
parent's priority. -/
def Clear (items : DeHeap α) (item : Item α) (i : Nat) : Prop :=
  ∀ j, Way items item i j → Grandchild j (items.choice item j) →
    items.passes item (items.choice item j) = true → ∀ k, Under (items.choice item j) k →
      k ≠ items.choice item j → k < items.length → items.key k = items.key (parent (items.choice item j))

section Clear

variable {item : Item α}

theorem clear_of_not_grandchild (hnot : ¬Grandchild i (items.choice item i)) : items.Clear item i := by
  intro j hway hgrand
  cases hway with
  | refl => exact absurd hgrand hnot
  | down hgrand' => exact absurd hgrand' hnot

variable (hgrand : Grandchild i (items.choice item i))
include hgrand

theorem clear_iff_of_passes (hyes : items.passes item (items.choice item i) = true) :
    items.Clear item i ↔ ∀ k, Under (items.choice item i) k → k ≠ items.choice item i →
      k < items.length → items.key k = items.key (parent (items.choice item i)) := by
  refine ⟨fun h => h i .refl hgrand hyes, fun h j hway => ?_⟩
  cases hway with
  | refl => exact fun _ _ => h
  | down _ hno => exact absurd (hyes.symm.trans hno) (by decide)

theorem clear_iff_of_not_passes (hno : items.passes item (items.choice item i) = false) :
    items.Clear item i ↔ items.Clear item (items.choice item i) := by
  refine ⟨fun h j hway => h j (.down hgrand hno hway), fun h j hway => ?_⟩
  cases hway with
  | refl => exact fun _ hyes => absurd (hno.symm.trans hyes) (by decide)
  | down _ _ hrest => exact h j hrest

end Clear

theorem foldl_choose_congr {cs : List Nat} (hlen : items'.length = items.length) : ∀ {t : Nat},
    (∀ k, k = t ∨ k ∈ cs → k < items.length ∧ items'.key k = items.key k) →
      cs.foldl (fun t c => if items'.compare c t = isMax then c else t) t =
        cs.foldl (fun t c => if items.compare c t = isMax then c else t) t := by
  induction cs with
  | nil => exact fun _ => rfl
  | cons c cs ih =>
    intro t hkeys
    obtain ⟨ht, hkt⟩ := hkeys t (.inl rfl)
    obtain ⟨hc, hkc⟩ := hkeys c (.inr mem_cons_self)
    have hsame : items'.compare c t = items.compare c t := by
      rw [compare_eq (by omega) (by omega), compare_eq hc ht, hkt, hkc]
    rw [foldl_cons, foldl_cons, hsame]
    refine ih fun k hk => ?_
    rcases hk with rfl | hk
    · split
      · exact ⟨hc, hkc⟩
      · exact ⟨ht, hkt⟩
    · exact hkeys k (.inr (mem_cons_of_mem _ hk))

theorem under_of_mem_below (h : j ∈ items.below i) : Under i j ∧ i < j := by
  have hplace := (mem_below_iff.mp h).2
  refine ⟨?_, by omega⟩
  by_cases hchild : parent j = i
  · exact .child (by omega) (hchild ▸ .refl)
  · have hgrand : parent (parent j) = i := by
      unfold parent at hchild ⊢
      omega
    refine .child (by omega) (.child ?_ (hgrand ▸ .refl))
    unfold parent at hchild ⊢
    omega

theorem key_set (hi : i < items.length) :
    key (items.set i item) j = if j = i then item.priority else items.key j := by
  unfold key
  rw [List.getElem?_set]
  by_cases hji : j = i
  · simp [hji, hi]
  · simp [hji, Ne.symm hji]

/-- The heap has the item at `i`, and below it what another one has. -/
structure Holds (items heap : DeHeap α) (item : Item α) (i : Nat) : Prop where
  length : items.length = heap.length
  here : items.key i = item.priority
  below : ∀ k, Under i k → k ≠ i → items.key k = heap.key k

theorem Holds.choose (h : Holds items heap item i) (hi : i < items.length) :
    items.choose (isMaxLevel i) i = heap.choice item i := by
  have hlen : items.length = (heap.set i item).length := h.length.trans length_set.symm
  have hbelow : items.below i = DeHeap.below (heap.set i item) i := by simp only [DeHeap.below, hlen]
  unfold choice DeHeap.choose
  rw [hbelow]
  refine foldl_choose_congr hlen fun k hk => ?_
  rw [key_set (h.length ▸ hi)]
  rcases hk with rfl | hk
  · exact ⟨hlen ▸ hi, by rw [if_pos rfl, h.here]⟩
  · obtain ⟨hunder, hlt⟩ := under_of_mem_below hk
    exact ⟨(mem_below_iff.mp hk).1, by rw [if_neg hlt.ne', h.below k hunder hlt.ne']⟩

theorem Holds.swap (h : Holds items heap item i) (hi : i < items.length) (ht : t < items.length)
    (hunder : Under i t) (hne : t ≠ i) : Holds (items.swap i t) heap item t := by
  have hlt : i < t := lt_of_le_of_ne hunder.le hne.symm
  refine ⟨length_swap.trans h.length, ?_, fun k hk hkt => ?_⟩
  · rw [key_swap hi ht, if_pos rfl, h.here]
  · have hle := hk.le
    rw [key_swap_of_ne (by omega) hkt]
    exact h.below k (hunder.trans hk) (by omega)

/-- The item at `i` is in order with all that is above it. -/
def Fits (items : DeHeap α) (i : Nat) : Prop :=
  ∀ a, Under a i → a ≠ i → Above (isMaxLevel a) (items.key a) (items.key i)

/-- What `shiftDown` has made of the heap `items` if it has brought the item from `i` to `e`. -/
structure Sunk (items items' heap : DeHeap α) (item : Item α) (i e : Nat) : Prop where
  under : Under i e
  lt : e < items.length
  key : items'.key e = item.priority
  off : ∀ a, ¬Under i a → items'.key a = items.key a
  fits : items.Fits i → items'.Fits e
  boundsBut : heap.Clear item i → BoundsBut (fun _ => True) items' e
  clear : (∀ a, ¬Under a e → items'.Bounds a) → heap.Clear item i

section Step

variable {heap : DeHeap α} {item : Item α} (hhole : items.Hole i) (hholds : Holds items heap item i)
  (hi : i < items.length)
include hhole hholds hi

theorem sunk_stay (hchosen : items.choose (isMaxLevel i) i = i) : Sunk items items heap item i i := by
  have hnot : ¬Grandchild i (heap.choice item i) := by
    rw [← hholds.choose hi, hchosen]
    rintro ⟨hpos, heq⟩
    exact absurd heq (lt_trans (parent_lt hpos) (parent_lt (by unfold parent at hpos; omega))).ne
  refine ⟨.refl, hi, hholds.here, fun _ _ => rfl, fun h => h, fun _ => ?_,
    fun _ => clear_of_not_grandchild hnot⟩
  exact hhole.boundsBut fun j hj hlt _ => hhole.above_chosen hi hchosen hj hlt

variable (ht : t < items.length) (hchosen : items.choose (isMaxLevel i) i = t)
include ht hchosen

omit ht in
theorem above_item : Above (isMaxLevel i) (items.key t) item.priority := by
  rw [← hholds.here]
  exact hhole.above_chosen hi hchosen .refl hi

theorem fits_swap (hunder : Under i t) (hbetween : ∀ a, Under i a → Under a t → a ≠ i →
      a ≠ t → Above (isMaxLevel a) (items.key a) item.priority) (h : items.Fits i) :
    (items.swap i t).Fits t := by
  intro a ha hat
  rw [key_swap hi ht, key_swap hi ht, if_neg hat, if_pos rfl, hholds.here]
  split
  case isTrue hai =>
    rw [hai]
    exact above_item hhole hholds hi hchosen
  case isFalse hai =>
    rcases ha.total hunder with hup | hdown
    · exact hholds.here ▸ h a hup hai
    · exact hbetween a hdown ha hai hat

theorem sunk_child (hpos : 0 < t) (hparent : parent t = i) :
    Sunk items (items.swap i t) heap item i t := by
  have hlt : i < t := hparent ▸ parent_lt hpos
  have hunder : Under i t := .child hpos (hparent ▸ .refl)
  have hswap := hhole.swap hi ht hchosen hunder hlt.ne'
  have hkey : (items.swap i t).key t = item.priority := by rw [key_swap hi ht, if_pos rfl, hholds.here]
  refine ⟨hunder, ht, hkey, fun _ => key_swap_of_not .refl hunder, ?_,
    fun _ => hswap.boundsBut fun j hj hjl hjt => ?_, fun _ => ?_⟩
  · refine fits_swap hhole hholds hi ht hchosen hunder fun a hia hat hne hne' => ?_
    exact absurd (le_antisymm (hparent ▸ (hat.up hne').le) hia.le) hne
  · have hle := hj.le
    have hdown := above_item hhole hholds hi hchosen
    rw [← hparent, isMaxLevel_parent hpos, above_not] at hdown
    rw [hkey, key_swap_of_ne (by omega) hjt]
    exact hdown.trans (hhole t hlt.ne' j hj (length_swap ▸ hjl) (by omega))
  · refine clear_of_not_grandchild ?_
    rw [← hholds.choose hi, hchosen]
    rintro ⟨hpos', heq⟩
    rw [hparent] at hpos' heq
    exact absurd heq (parent_lt hpos').ne

variable (hgrand : Grandchild i t)
include hgrand

omit hhole hholds hi ht hchosen in
theorem grandchild_under : i < parent t ∧ parent t < t ∧ Under i (parent t) ∧ Under i t := by
  obtain ⟨hpos, heq⟩ := hgrand
  have hunder : Under i (parent t) := .child hpos (heq ▸ .refl)
  have ht : 0 < t := by
    unfold parent at hpos
    omega
  exact ⟨heq ▸ parent_lt hpos, parent_lt ht, hunder, .child ht hunder⟩

omit hhole in
theorem compare_parent : (items.swap i t).compare (parent t) t = isMaxLevel i ↔
    heap.passes item t = true := by
  obtain ⟨hip, hpt, hunder, hunder'⟩ := grandchild_under hgrand
  rw [compare_eq (by rw [length_swap]; omega) (by rwa [length_swap]), key_swap_of_ne hip.ne' hpt.ne,
    key_swap hi ht, if_pos rfl, hholds.here, hholds.below _ hunder hip.ne', passes, beq_iff_eq,
    ← hgrand.2, isMaxLevel_parent_parent hgrand.1]

theorem sunk_grandchild (hno : ¬heap.passes item t = true)
    (hsunk : Sunk (items.swap i t) items' heap item t e) : Sunk items items' heap item i e := by
  obtain ⟨hip, hpt, hunder, hunder'⟩ := grandchild_under hgrand
  have hchoice := (hholds.choose hi).symm.trans hchosen
  have hclear : heap.Clear item i ↔ heap.Clear item t := by
    have := clear_iff_of_not_passes (hchoice ▸ hgrand) (hchoice ▸ Bool.eq_false_iff.mpr hno)
    rwa [hchoice] at this
  refine ⟨hunder'.trans hsunk.under, length_swap ▸ hsunk.lt, hsunk.key, fun a ha => ?_, fun h => ?_,
    fun h => hsunk.boundsBut (hclear.mp h), fun h => hclear.mpr (hsunk.clear h)⟩
  · rw [hsunk.off a fun hta => ha (hunder'.trans hta), key_swap_of_not .refl hunder' ha]
  · refine hsunk.fits (fits_swap hhole hholds hi ht hchosen hunder' (fun a hia hat hne hne' => ?_) h)
    obtain rfl : a = parent t := by
      by_contra hap
      exact hne (le_antisymm (hgrand.2 ▸ ((hat.up hne').up hap).le) hia.le)
    have hnot := mt (compare_parent hholds hi ht hchosen hgrand).mp hno
    have habove := above_of_not_compare (by rw [length_swap]; omega) (by rwa [length_swap]) hnot
    rw [key_swap_of_ne hip.ne' hpt.ne, key_swap hi ht, if_pos rfl, hholds.here, ← hgrand.2,
      isMaxLevel_parent hgrand.1, above_not] at habove
    exact habove

omit hhole hholds hi ht hchosen hgrand in
theorem choose_eq_self {p : Nat} (h : ∀ c ∈ items.below p, ¬items.compare c p = isMax) :
    items.choose isMax p = p := by
  have hfold : ∀ cs : List Nat, (∀ c ∈ cs, ¬items.compare c p = isMax) →
      cs.foldl (fun t c => if items.compare c t = isMax then c else t) p = p := by
    intro cs hcs
    induction cs with
    | nil => rfl
    | cons c cs ih =>
      rw [foldl_cons, if_neg (hcs c mem_cons_self)]
      exact ih fun c hc => hcs c (mem_cons_of_mem _ hc)
  exact hfold _ h

omit hhole hholds hi ht hchosen hgrand in
theorem not_gt_of_above {p x c : Int} (h : decide (p > x) = isMax) (habove : Above (!isMax) p c) :
    ¬decide (c > x) = !isMax := by
  cases isMax with
  | false =>
    have hle : c ≤ p := habove
    rw [decide_eq_false_iff_not] at h
    rw [Bool.not_false, decide_eq_true_eq]
    omega
  | true =>
    have hle : p ≤ c := habove
    rw [decide_eq_true_eq] at h
    rw [Bool.not_true, decide_eq_false_iff_not]
    omega

/-- After the swap with the parent the item is in order with all below it, so the loop ends
there. -/
theorem choose_passed (hyes : heap.passes item t = true) :
    ((items.swap i t).swap (parent t) t).choose (isMaxLevel (parent t)) (parent t) = parent t := by
  obtain ⟨hip, hpt, hunder, hunder'⟩ := grandchild_under hgrand
  have hp' : parent t < (items.swap i t).length := by rw [length_swap]; omega
  have ht' : t < (items.swap i t).length := by rwa [length_swap]
  have hlevel : isMaxLevel (parent t) = !isMaxLevel i := by
    rw [← hgrand.2, isMaxLevel_parent hgrand.1, Bool.not_not]
  have hcompare := (compare_parent hholds hi ht hchosen hgrand).mpr hyes
  rw [compare_eq hp' ht'] at hcompare
  refine choose_eq_self fun c hc => ?_
  obtain ⟨hcp, hlt⟩ := under_of_mem_below hc
  have hcl := (mem_below_iff.mp hc).1
  rw [length_swap, length_swap] at hcl
  have hbound : Above (!isMaxLevel i) ((items.swap i t).key (parent t))
      (((items.swap i t).swap (parent t) t).key c) := by
    rw [key_swap hp' ht', if_neg hlt.ne', ← hlevel]
    split
    case isTrue => exact .refl
    case isFalse hct =>
      exact hhole.swap hi ht hchosen hunder' (by omega) _ hpt.ne c hcp (by rwa [length_swap]) hct
  have hkey : ((items.swap i t).swap (parent t) t).key (parent t) = (items.swap i t).key t := by
    rw [key_swap hp' ht', if_neg hpt.ne, if_pos rfl]
  rw [compare_eq (by simpa using hcl) (by simpa using hp'), hlevel, hkey]
  exact not_gt_of_above hcompare hbound

theorem sunk_passed (hyes : heap.passes item t = true) :
    Sunk items ((items.swap i t).swap (parent t) t) heap item i (parent t) := by
  obtain ⟨hip, hpt, hunder, hunder'⟩ := grandchild_under hgrand
  have hp' : parent t < (items.swap i t).length := by rw [length_swap]; omega
  have ht' : t < (items.swap i t).length := by rwa [length_swap]
  have hlevel : isMaxLevel (parent t) = !isMaxLevel t := isMaxLevel_parent (by omega)
  have hsame : isMaxLevel t = isMaxLevel i := by rw [← hgrand.2, isMaxLevel_parent_parent hgrand.1]
  have hone := hhole.swap hi ht hchosen hunder' (by omega)
  have hkey : ∀ k, k ≠ i → k ≠ parent t → k ≠ t →
      ((items.swap i t).swap (parent t) t).key k = items.key k := fun k hki hkp hkt => by
    rw [key_swap_of_ne hkp hkt, key_swap_of_ne hki hkt]
  have hkeyT : ((items.swap i t).swap (parent t) t).key t = heap.key (parent t) := by
    rw [key_swap hp' ht', if_pos rfl, key_swap_of_ne hip.ne' hpt.ne, hholds.below _ hunder hip.ne']
  have hkeyP : ((items.swap i t).swap (parent t) t).key (parent t) = item.priority := by
    rw [key_swap hp' ht', if_neg hpt.ne, if_pos rfl, key_swap hi ht, if_pos rfl, hholds.here]
  have hchoice := (hholds.choose hi).symm.trans hchosen
  have hclear := clear_iff_of_passes (hchoice ▸ hgrand) (hchoice ▸ hyes)
  rw [hchoice] at hclear
  refine ⟨hunder, by omega, hkeyP, fun a ha => ?_, fun h a ha hap => ?_, fun h => ?_, fun h => ?_⟩
  · rw [key_swap_of_not hunder hunder' ha, key_swap_of_not .refl hunder' ha]
  · have hai : Under a i := hgrand.2 ▸ ha.up hap
    have hle := hai.le
    rw [hkeyP]
    by_cases heq : a = i
    · rw [heq, key_swap_of_ne hip.ne (by omega), key_swap hi ht, if_neg (by omega), if_pos rfl]
      exact above_item hhole hholds hi hchosen
    · rw [hkey a heq hap (by omega)]
      exact hholds.here ▸ h a hai heq
  · have hup : BoundsBut (· ≠ t) ((items.swap i t).swap (parent t) t) (parent t) := by
      refine BoundsBut.swap hone ht' (.child (by omega) .refl) hpt ?_
        (fun a _ hpa hap hat hau => ?_) (absurd rfl)
      · have habove := above_of_compare hp' ht' ((compare_parent hholds hi ht hchosen hgrand).mpr hyes)
        rwa [← hsame, ← above_not, ← hlevel] at habove
      · exact absurd (le_antisymm (hau.up hat).le hpa.le) hap
    intro a _ j hj hlt hjp
    by_cases hat : a = t
    · subst hat
      have hle := hj.le
      by_cases hjt : j = a
      · rw [hjt]
        exact .refl
      · rw [length_swap, length_swap] at hlt
        rw [hkeyT, hkey j (by omega) hjp hjt, hholds.below j (hunder'.trans hj) (by omega),
          hclear.mp h j hj hjt (hholds.length ▸ hlt)]
        exact .refl
    · exact hup a hat j hj hlt hjp
  · refine hclear.mpr fun k hk hkt hlt => ?_
    have hle := hk.le
    have hbounds := h t (fun hunder => absurd hunder.le (by omega)) k hk (by
      rw [length_swap, length_swap, hholds.length]
      exact hlt)
    rw [hkeyT, hkey k (by omega) (by omega) hkt, hholds.below k (hunder'.trans hk) (by omega)] at hbounds
    have hopposite := hhole (parent t) hip.ne' k (.trans (.child (by omega) .refl) hk)
      (hholds.length ▸ hlt) (by omega)
    rw [hlevel, hholds.below _ hunder hip.ne', hholds.below k (hunder'.trans hk) (by omega)] at hopposite
    exact (hbounds.antisymm hopposite).symm

end Step

variable {fuel : Nat} {item : Item α} {heap : DeHeap α}

theorem sink_stays (hchosen : items.choose (isMaxLevel i) i = i) :
    sink fuel items i = items ∧ sinkEnd fuel items i = i := by
  cases fuel <;> simp [sink, sinkEnd, hchosen]

/-- The loop as a whole, by what it does at one position. -/
theorem sunk_sink : ∀ {items : DeHeap α} {i : Nat}, items.length ≤ i + fuel → i < items.length →
    Holds items heap item i → items.Hole i →
      Sunk items (sink fuel items i) heap item i (sinkEnd fuel items i) := by
  induction fuel with
  | zero =>
    intro items i hle hi
    omega
  | succ fuel ih =>
    intro items i hle hi hholds hhole
    have hmem := choose_mem items (isMaxLevel i) i
    by_cases hti : items.choose (isMaxLevel i) i = i
    · rw [(sink_stays hti).1, (sink_stays hti).2]
      exact sunk_stay hhole hholds hi hti
    obtain ⟨ht, hplace⟩ := mem_below_iff.mp (hmem.resolve_left hti)
    have hleaf : ¬leftChild i ≥ items.length := by
      unfold leftChild
      omega
    simp only [sink, sinkEnd, if_neg hleaf]
    generalize hchosen : items.choose (isMaxLevel i) i = t at ht hplace hti ⊢
    rw [if_neg hti, if_neg hti]
    by_cases hchild : t = leftChild i ∨ t = rightChild i
    · rw [if_pos hchild, if_pos hchild]
      unfold leftChild rightChild at hchild
      exact sunk_child hhole hholds hi ht hchosen (by omega) (by unfold parent; omega)
    rw [if_neg hchild, if_neg hchild]
    have hgrand : Grandchild i t := by
      unfold leftChild rightChild at hchild
      constructor
      all_goals
        unfold parent
        omega
    obtain ⟨hip, hpt, -, hunder⟩ := grandchild_under hgrand
    have hcompare := compare_parent hholds hi ht hchosen hgrand
    by_cases hyes : heap.passes item t = true
    · have hstays := choose_passed hhole hholds hi ht hchosen hgrand hyes
      rw [if_pos (hcompare.mpr hyes), if_pos (hcompare.mpr hyes), (sink_stays hstays).1,
        (sink_stays hstays).2]
      exact sunk_passed hhole hholds hi ht hchosen hgrand hyes
    · rw [if_neg (mt hcompare.mp hyes), if_neg (mt hcompare.mp hyes)]
      refine sunk_grandchild hhole hholds hi ht hchosen hgrand hyes (ih ?_ ?_ ?_ ?_)
      · rw [length_swap]
        omega
      · rwa [length_swap]
      · exact hholds.swap hi ht hunder (by omega)
      · exact hhole.swap hi ht hchosen hunder (by omega)

theorem MaxMin.sunk (h : heap.MaxMin) (hi : i < heap.length) (item : Item α) :
    Sunk (heap.set i item) (shiftDown (heap.set i item) i) heap item i
      (sinkEnd (heap.set i item).length (heap.set i item) i) := by
  refine sunk_sink (by omega) (by rwa [length_set]) ⟨length_set, ?_, fun k _ hki => ?_⟩
    fun a ha j hj hlt hji => ?_
  · rw [key_set hi, if_pos rfl]
  · rw [key_set hi, if_neg hki]
  · rw [length_set] at hlt
    rw [key_set hi, key_set hi, if_neg ha, if_neg hji]
    exact h a j hj hlt

/-- `shiftDown` never moves an item up, so what it leaves is in order only if the item fits where it
was put. -/
theorem Sunk.maxMin_iff (h : Sunk items items' heap item i e) (hlen : items'.length = items.length)
    (hhere : items.key i = item.priority) : items'.MaxMin ↔ items.Fits i ∧ heap.Clear item i := by
  constructor
  · refine fun hmaxMin => ⟨fun a ha hai => ?_, h.clear fun a _ => hmaxMin a⟩
    have habove := hmaxMin a e (ha.trans h.under) (hlen ▸ h.lt)
    rwa [h.off a fun hia => hai (le_antisymm ha.le hia.le), h.key, ← hhere] at habove
  · rintro ⟨hfits, hclear⟩ a j hj hlt
    by_cases hje : j = e
    · subst hje
      by_cases haj : a = j
      · exact haj ▸ .refl
      · exact h.fits hfits a hj haj
    · exact h.boundsBut hclear a trivial j hj hlt hje

theorem MaxMin.dropLast (h : items.MaxMin) : MaxMin items.dropLast := by
  intro a j hj hlt
  have hle := hj.le
  rw [length_dropLast] at hlt
  rw [dropLast_eq_take, key_take hlt, key_take (by omega)]
  exact h a j hj (by omega)

theorem remove_eq (hi : i < items.length) (hlast : items.getLast? = some last) :
    items.remove i = shiftDown (items.dropLast.set i last) i := by
  have hn : items.length - 1 < items.length := by omega
  rw [getLast?_eq_getElem?, getElem?_eq_getElem hn, Option.some_inj] at hlast
  rw [remove, if_neg (by omega), swap_eq hi hn, hlast, dropLast_eq_take, take_set_of_le le_rfl, take_set]

/-- The last item is in order with all that is above `i`. -/
def LastFits (items : DeHeap α) (i : Nat) : Prop :=
  ∀ a, Under a i → a ≠ i → Above (isMaxLevel a) (items.key a) (items.key (items.length - 1))

/-- The way of the last item down from `i` is clear. -/
def LastClear (items : DeHeap α) (i : Nat) : Prop :=
  ∀ last, items.getLast? = some last → Clear items.dropLast last i

theorem lastClear_iff (hlast : items.getLast? = some last) :
    items.LastClear i ↔ Clear items.dropLast last i := by
  refine ⟨fun h => h last hlast, fun h other hother => ?_⟩
  cases hlast.symm.trans hother
  exact h

theorem choose_of_length_le (h : items.length ≤ i) : items.choose isMax i = i :=
  choose_eq_self fun _ hc => absurd (mem_below_iff.mp hc).1 (by
    have := (under_of_mem_below hc).2
    omega)

theorem MaxMin.remove_iff (h : items.MaxMin) (hi : i < items.length) :
    (items.remove i).MaxMin ↔ items.LastFits i ∧ items.LastClear i := by
  have hn : items.length - 1 < items.length := by omega
  obtain ⟨last, hlast⟩ : ∃ last, items.getLast? = some last :=
    ⟨_, getLast?_eq_getElem?.trans (getElem?_eq_getElem hn)⟩
  have hkey : items.key (items.length - 1) = last.priority :=
    key_of_getElem? (getLast?_eq_getElem?.symm.trans hlast)
  rw [remove_eq hi hlast, lastClear_iff hlast]
  by_cases hend : i = items.length - 1
  · -- the item that goes is the last one, and no other is moved
    have hlen : items.dropLast.length ≤ i := by
      rw [length_dropLast]
      omega
    have hset : items.dropLast.set i last = items.dropLast := set_eq_of_length_le hlen
    have hstays : choose items.dropLast (isMaxLevel i) i = i := choose_of_length_le hlen
    rw [hset, shiftDown, (sink_stays hstays).1]
    refine iff_of_true h.dropLast ⟨fun a ha _ => h a _ (hend ▸ ha) hn, clear_of_not_grandchild ?_⟩
    rw [choice, hset, hstays]
    rintro hgrand
    have := (grandchild_under hgrand).1
    have := (grandchild_under hgrand).2.1
    omega
  · have hil : i < items.dropLast.length := by
      rw [length_dropLast]
      omega
    have hhere : key (items.dropLast.set i last) i = last.priority := by rw [key_set hil, if_pos rfl]
    rw [(h.dropLast.sunk hil last).maxMin_iff shiftDown_perm.length_eq hhere]
    refine and_congr_left fun _ => forall_congr' fun a => forall_congr' fun ha => forall_congr' fun hai => ?_
    have hle := ha.le
    rw [hhere, key_set hil, if_neg hai, dropLast_eq_take, key_take (by omega), hkey]

theorem MaxMin.lastFits (h : items.MaxMin) (htop : i ≤ 2) (hi : i < items.length) : items.LastFits i := by
  intro a ha hai
  have hroot := (ha.up hai).le
  obtain rfl : a = 0 := by
    unfold parent at hroot
    omega
  exact h 0 _ (.zero _) (by omega)

theorem MaxMin.pop_iff (h : items.MaxMin) (htop : i ≤ 2) (hi : i < items.length) :
    (items.remove i).MaxMin ↔ items.LastClear i :=
  (h.remove_iff hi).trans (and_iff_right (h.lastFits htop hi))

theorem MaxMin.rootMax (h : items.MaxMin) : items.RootMax := fun j hj => h 0 j (.zero j) hj

theorem MaxMin.minIndex (h : items.MaxMin) (hlen : 0 < items.length) :
    items.minIndex < items.length ∧ items.minIndex ≤ 2 ∧
      ∀ j < items.length, items.key items.minIndex ≤ items.key j := by
  unfold DeHeap.minIndex
  split
  case isTrue hone =>
    refine ⟨hlen, by omega, fun j hj => ?_⟩
    rw [show j = 0 by omega]
  rename_i hone
  have hleft : ∀ j, Under 1 j → j < items.length → items.key 1 ≤ items.key j := h 1
  have hright : ∀ j, Under 2 j → j < items.length → items.key 2 ≤ items.key j := h 2
  have hroot := h.rootMax 1 (by omega)
  split
  case isTrue htwo =>
    have hlt := htwo.2
    rw [compare_eq (by omega) htwo.1, decide_eq_true_eq] at hlt
    refine ⟨htwo.1, le_refl 2, fun j hj => ?_⟩
    rcases Nat.eq_zero_or_pos j with rfl | hpos
    · omega
    rcases Under.one_or_two hpos with hu | hu
    · exact le_trans (le_of_lt hlt) (hleft j hu hj)
    · exact hright j hu hj
  case isFalse htwo =>
    refine ⟨by omega, by omega, fun j hj => ?_⟩
    rcases Nat.eq_zero_or_pos j with rfl | hpos
    · exact hroot
    rcases Under.one_or_two hpos with hu | hu
    · exact hleft j hu hj
    have hle := hu.le
    rw [compare_eq (by omega) (by omega), decide_eq_true_eq] at htwo
    have := hright j hu hj
    omega

def sortedRange : Nat → DeHeap α → List (Item α)
  | 0, _ => []
  | fuel + 1, items =>
    match items.getMax with
    | none => []
    | some item => item :: sortedRange fuel items.popMax

theorem perm_getMax (h : items.getMax = some item) : items.Perm (item :: items.popMax) := by
  obtain ⟨hlt, rfl⟩ := List.getElem?_eq_some_iff.mp h
  exact perm_cons_remove hlt

theorem length_popMax (h : items.getMax = some item) (hlen : items.length = n + 1) :
    items.popMax.length = n :=
  succ.inj ((perm_getMax h).length_eq.symm.trans hlen)

theorem sortedRange_perm :
    ∀ {items : DeHeap α}, items.length = fuel → (sortedRange fuel items).Perm items := by
  induction fuel with
  | zero =>
    intro items hlen
    rw [length_eq_zero_iff.mp hlen, sortedRange]
  | succ fuel ih =>
    intro items hlen
    obtain ⟨item, hitem⟩ : ∃ item, items.getMax = some item := ⟨_, getElem?_eq_getElem (by omega)⟩
    simp only [sortedRange, hitem]
    exact ((ih (length_popMax hitem hlen)).cons item).trans (perm_getMax hitem).symm

theorem MaxMin.max (h : items.MaxMin) (hitem : items.getMax = some item) :
    ∀ other ∈ items, other.priority ≤ item.priority := by
  have hall := rootMax_iff_forall_mem.mp h.rootMax
  rwa [key_of_getElem? hitem] at hall

theorem MaxMin.min (h : items.MaxMin) (hitem : items.getMin = some item) :
    ∀ other ∈ items, item.priority ≤ other.priority := by
  intro other hother
  obtain ⟨j, hj, rfl⟩ := mem_iff_getElem.mp hother
  rw [← key_of_getElem? hitem, ← key_of_getElem? (getElem?_eq_getElem hj)]
  exact (h.minIndex (by omega)).2.2 j hj

theorem MaxMin.sortedRange : ∀ {items : DeHeap α}, items.length = fuel →
    items.MaxMin → (∀ k, (popMax^[k] items).LastClear 0) →
    (sortedRange fuel items).Pairwise fun x y => y.priority ≤ x.priority := by
  induction fuel with
  | zero => exact fun _ _ _ => .nil
  | succ _ ih =>
    intro items hlen h hok
    rw [DeHeap.sortedRange]
    split
    · exact .nil
    rename_i item hitem
    have hrest := length_popMax hitem hlen
    refine .cons (fun other hother => ?_) (ih hrest ?_ fun k => hok (k + 1))
    · exact h.max hitem other (mem_of_mem_remove ((sortedRange_perm hrest).mem_iff.mp hother))
    · have hi := (List.getElem?_eq_some_iff.mp hitem).1
      exact (h.pop_iff (zero_le 2) hi).mpr (hok 0)

/-- **Popping in order.** A pop takes an item of maximal or minimal priority out of a max-min heap,
and nothing else. The heap is in order again just if the way of its last item down is clear, and a
run of pops that finds it so is sorted. -/
theorem pops_ordered (items : DeHeap α) (h : items.MaxMin) : (∀ item, items.getMax = some item →
      (∀ other ∈ items, other.priority ≤ item.priority) ∧ items.Perm (item :: items.popMax) ∧
        (items.popMax.MaxMin ↔ items.LastClear 0)) ∧
    (∀ item, items.getMin = some item →
      (∀ other ∈ items, item.priority ≤ other.priority) ∧ items.Perm (item :: items.popMin) ∧
        (items.popMin.MaxMin ↔ items.LastClear items.minIndex)) ∧
    (sortedRange items.length items).Perm items ∧
    ((∀ k, (popMax^[k] items).LastClear 0) →
      (sortedRange items.length items).Pairwise fun x y => y.priority ≤ x.priority) := by
  refine ⟨fun item hitem => ?_, fun item hitem => ?_, sortedRange_perm rfl, h.sortedRange rfl⟩
  · have hi := (List.getElem?_eq_some_iff.mp hitem).1
    exact ⟨h.max hitem, perm_getMax hitem, h.pop_iff (zero_le 2) hi⟩
  have hmin := h.min hitem
  obtain ⟨hlt, rfl⟩ := List.getElem?_eq_some_iff.mp hitem
  have htop := (h.minIndex (by omega)).2.1
  exact ⟨hmin, perm_cons_remove hlt, h.pop_iff htop hlt⟩

/-- The last item goes down by a grandchild of the root, whose parent it need not pass. -/
theorem pops_ordered_five : let items : DeHeap Unit := [9, 1, 2, 5, 4].map fun n => ⟨"", (), n⟩
    items.popMax.MaxMin ∧ items.popMin.MaxMin := by
  intro items
  obtain ⟨hmax, hmin, -⟩ := pops_ordered items (maxMin_of_local (by decide))
  refine ⟨(hmax _ rfl).2.2.mpr ((lastClear_iff rfl).mpr ?_),
    (hmin _ rfl).2.2.mpr ((lastClear_iff rfl).mpr (clear_of_not_grandchild (by decide)))⟩
  refine (clear_iff_of_not_passes (by decide) (by decide)).mpr ?_
  exact clear_of_not_grandchild (by decide)

/-- With a dozen items: the second item is swapped with the fifth, and the fifth is left smaller
than its child. -/
theorem popMax_breaks_order :
    let items : DeHeap Unit := [9, 1, 0, 2, 3, 3, 2, 2, 1, 2, 1, 0].map fun n => ⟨"", (), n⟩
    items.MaxMin ∧ ¬items.popMax.MaxMin := by
  refine ⟨maxMin_of_local (by decide +kernel), fun h => ?_⟩
  have habove := h 4 9 (.child (by decide) .refl) (by decide +kernel)
  exact absurd habove (by decide +kernel)

/-- `GetMax` and `GetMin` return items of maximal and of minimal priority. -/
def Ends (items : DeHeap α) : Prop := ∀ other ∈ items,
  (∃ item ∈ items, items.getMax = some item ∧ other.priority ≤ item.priority) ∧
    ∃ item ∈ items, items.getMin = some item ∧ item.priority ≤ other.priority

theorem MaxMin.ends (h : items.MaxMin) : items.Ends := by
  intro other hother
  have hlen := length_pos_of_mem hother
  have hmax := getElem?_eq_getElem hlen
  have hmin := getElem?_eq_getElem (h.minIndex hlen).1
  exact ⟨⟨_, getElem_mem hlen, hmax, h.max hmax other hother⟩,
    _, getElem_mem _, hmin, h.min hmin other hother⟩

/-- **Removing any item.** Exactly it is taken out. `Remove` only lets the last item sink from its
place, so the order is kept just if the last item fits under what is above and its way down is
clear. -/
theorem remove_ordered (items : DeHeap α) (h : items.MaxMin) (i : Nat) (hi : i < items.length) :
    items.Perm (items[i] :: items.remove i) ∧
    ((items.remove i).MaxMin ↔ items.LastFits i ∧ items.LastClear i) ∧
    ((items.remove i).MaxMin → (items.remove i).Ends) :=
  ⟨perm_cons_remove hi, h.remove_iff hi, MaxMin.ends⟩

theorem remove_ordered_inner : let items : DeHeap Unit := [10, 1, 5, 9, 8, 6].map fun n => ⟨"", (), n⟩
    (items.remove 3).MaxMin := by
  intro items
  have h : items.MaxMin := maxMin_of_local (by decide)
  refine (remove_ordered items h 3 (by decide)).2.1.mpr ⟨fun a ha hne => ?_, ?_⟩
  · have hle := (ha.up hne).le
    obtain rfl | rfl : a = 0 ∨ a = 1 := by
      change a ≤ 1 at hle
      omega
    · decide
    · decide
  · exact (lastClear_iff rfl).mpr (clear_of_not_grandchild (by decide))

/-- The last item comes from under the third and is put under the second, which is larger but on a
level of minima. -/
theorem remove_breaks_order : let items : DeHeap Unit := [10, 5, 1, 9, 8, 2].map fun n => ⟨"", (), n⟩
    items.MaxMin ∧ ¬(items.remove 3).MaxMin := by
  refine ⟨maxMin_of_local (by decide), fun h => ?_⟩
  have habove := h 1 3 (.child (by decide) .refl) (by decide)
  exact absurd habove (by decide)

theorem climb_key : ∀ {items : DeHeap α} {i : Nat}, ¬Under a i →
    (climb isMax fuel items i).key a = items.key a := by
  induction fuel with
  | zero => exact fun _ => rfl
  | succ _ ih =>
    intro items i hnot
    unfold climb
    split
    · rfl
    rename_i g hg
    obtain ⟨hthree, rfl⟩ := grandparent_eq_some_iff.mp hg
    have hup : Under (parent (parent i)) i :=
      (grandchild_under ⟨by unfold parent; omega, rfl⟩).2.2.2
    split
    · rfl
    rw [ih fun h => hnot (h.trans hup), key_swap_of_not (P := (Under · i)) hup .refl hnot]

/-- `shiftUp` only touches what is above the item. -/
theorem shiftUp_key (hnot : ¬Under a i) : (items.shiftUp i).key a = items.key a := by
  have hparent : Under (parent i) i := by
    rcases Nat.eq_zero_or_pos i with rfl | hpos
    · exact .refl
    · exact .child hpos .refl
  unfold shiftUp
  dsimp only
  split
  · rw [climb_key fun h => hnot (h.trans hparent),
      key_swap_of_not (P := (Under · i)) hparent .refl hnot]
  · exact climb_key hnot

theorem MaxMin.fix_iff (h : items.MaxMin) (hi : i < items.length) :
    (fix (items.set i item) i).MaxMin ↔ items.Clear item i := by
  have hsunk := h.sunk hi item
  unfold fix
  dsimp only
  generalize sinkEnd (items.set i item).length (items.set i item) i = e at hsunk ⊢
  split
  case isTrue =>
    constructor
    · refine fun hmaxMin => hsunk.clear fun a ha j hj hlt => ?_
      have habove := hmaxMin a j hj (by rwa [shiftUp_perm.length_eq])
      rwa [shiftUp_key ha, shiftUp_key fun hje => ha (hj.trans hje)] at habove
    · refine fun hclear a => bounds_shiftUp (fun _ _ => trivial) ?_ (hsunk.boundsBut hclear) a trivial
      rw [shiftDown_perm.length_eq]
      exact hsunk.lt
  case isFalse hroot =>
    have hle := hsunk.under.le
    rw [hsunk.maxMin_iff shiftDown_perm.length_eq (by rw [key_set hi, if_pos rfl])]
    refine and_iff_right fun a ha hai => absurd ha.le ?_
    omega

theorem fix_perm : (items.fix i).Perm items := by
  unfold fix
  dsimp only
  split
  · exact shiftUp_perm.trans shiftDown_perm
  · exact shiftDown_perm

/-- **Fixing a changed item.** The items are the same. `Fix` also moves the item up from where it
has sunk to, so the order is kept just if its way down is clear. -/
theorem fix_ordered (items : DeHeap α) (h : items.MaxMin) (i : Nat) (hi : i < items.length)
    (item : Item α) : (fix (items.set i item) i).Perm (items.set i item) ∧
      ((fix (items.set i item) i).MaxMin ↔ items.Clear item i) :=
  ⟨fix_perm, h.fix_iff hi⟩

theorem fix_ordered_raised :
    let items : DeHeap Unit := [10, 1, 2, 5].map fun n => ⟨"", (), n⟩
    (fix (items.set 1 ⟨"", (), 20⟩) 1).MaxMin := by
  intro items
  have h : items.MaxMin := maxMin_of_local (by decide)
  exact (fix_ordered items h 1 (by decide) ⟨"", (), 20⟩).2.mpr (clear_of_not_grandchild (by decide))

/-- The root is made the smallest: the second item is swapped with the fifth as above, and what is
at the fifth is never looked at. -/
theorem fix_breaks_order :
    let items : DeHeap Unit := [9, 1, 0, 2, 3, 3, 2, 2, 1, 2, 1].map fun n => ⟨"", (), n⟩
    items.MaxMin ∧ ¬(fix (items.set 0 ⟨"", (), 0⟩) 0).MaxMin := by
  refine ⟨maxMin_of_local (by decide +kernel), fun h => ?_⟩
  have habove := h 4 9 (.child (by decide) .refl) (by decide +kernel)
  exact absurd habove (by decide +kernel)

theorem MaxMin.push (h : items.MaxMin) : (items.push item).MaxMin :=
  fun a => bounds_push (A := fun _ => True) (fun _ _ => trivial) (fun a _ => h a) a trivial

theorem pushes_ordered (items : DeHeap α) (h : items.MaxMin) :
    (∀ item, (items.push item).Perm (item :: items) ∧ (items.push item).MaxMin) ∧
    ∀ new : List (Item α), (new.foldl push items).Perm (new ++ items) ∧
      (new.foldl push items).MaxMin ∧ (new.foldl push items).Ends := by
  refine ⟨fun item => ⟨push_perm, h.push⟩, fun new => ?_⟩
  induction new generalizing items with
  | nil => exact ⟨.refl _, h, h.ends⟩
  | cons item new ih =>
    obtain ⟨hperm, hrest⟩ := ih (items.push item) h.push
    exact ⟨(hperm.trans (push_perm.append_left new)).trans perm_middle, hrest⟩

theorem pushes_ordered_ties : let items : DeHeap Unit := [9, 1, 2, 5].map fun n => ⟨"", (), n⟩
    ([9, 1, 1].foldl (fun items n => items.push ⟨"", (), n⟩) items).MaxMin :=
  ((pushes_ordered _ (maxMin_of_local (by decide))).2 [⟨"", (), 9⟩, ⟨"", (), 1⟩, ⟨"", (), 1⟩]).2.1

end DeHeap

end Yuanrong.PriorityQueue
