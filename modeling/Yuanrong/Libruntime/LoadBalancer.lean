import Mathlib.Algebra.BigOperators.Ring.Finset
import Mathlib.Algebra.Order.BigOperators.Group.Finset
import Mathlib.Tactic.Linarith
import Mathlib.Tactic.Ring

/-!
# Smooth weighted round robin

`WeightedRoundRobin` gives every node its weight on each call, chooses the node with the largest
current weight and takes the total off it. After `k` calls the current weight of a node is `k` times
its weight less the total for each time it was chosen, and stays above minus the total, so that
after a period no node has been chosen more often than its weight says.
-/

open Finset Function

namespace Yuanrong.Libruntime

open Nat Option

structure WeightedNode where
  name : String
  weight : Int
  currentWeight : Int
deriving DecidableEq

namespace WeightedRoundRobin

def add (nodes : List WeightedNode) (node : String × Int) : List WeightedNode :=
  nodes ++ [{ name := node.1, weight := node.2, currentWeight := 0 }]

def addAll (nodes : List (String × Int)) : List WeightedNode := nodes.foldl add []

def current (nodes : List WeightedNode) (i : Nat) : Int :=
  (nodes[i]?.map WeightedNode.currentWeight).getD 0

def raise (node : WeightedNode) : WeightedNode :=
  { node with currentWeight := node.currentWeight + node.weight }

/-- The nodes seen so far with their raised weights, the total, and the best position. -/
def scan : List WeightedNode → List WeightedNode → Int → Nat → List WeightedNode × Int × Nat
  | [], seen, total, best => (seen, total, best)
  | node :: rest, seen, total, best =>
    let seen' := seen ++ [raise node]
    let best' := if (raise node).currentWeight > current seen' best then seen.length else best
    scan rest seen' (total + node.weight) best'

def nextNode (nodes : List WeightedNode) : List WeightedNode × Nat :=
  let (nodes, total, best) := scan nodes [] 0 0
  (nodes.modify best fun node => { node with currentWeight := node.currentWeight - total }, best)

def next (nodes : List WeightedNode) : List WeightedNode × String :=
  if nodes.length = 0 then
    (nodes, "")
  else
    let (nodes, best) := nextNode nodes
    (nodes, (nodes[best]?.map WeightedNode.name).getD "")

def after (nodes : List WeightedNode) (k : Nat) : List WeightedNode := (fun nodes => (next nodes).1)^[k] nodes

def chosen (nodes : List WeightedNode) (k : Nat) : Nat := (nextNode (after nodes k)).2

def timesChosen (nodes : List WeightedNode) (start n i : Nat) : Nat :=
  ((List.range n).filter fun k => chosen nodes (start + k) = i).length

section Call

variable {nodes : List WeightedNode} {i : Nat}

def weight (nodes : List WeightedNode) (i : Nat) : Int :=
  (nodes[i]?.map WeightedNode.weight).getD 0

def total (nodes : List WeightedNode) : Int := ∑ i ∈ range nodes.length, weight nodes i

theorem sum_map_eq_sum_range (f : WeightedNode → Int) (nodes : List WeightedNode) :
    (nodes.map f).sum = ∑ i ∈ range nodes.length, (nodes[i]?.map f).getD 0 := by
  induction nodes with
  | nil => rfl
  | cons _ _ ih =>
    rw [List.map_cons, List.sum_cons, ih, List.length_cons, sum_range_succ', add_comm]
    rfl

theorem current_map_raise (hi : i < nodes.length) :
    current (nodes.map raise) i = current nodes i + weight nodes i := by
  simp [current, weight, hi, raise]

theorem scan_spec : ∀ (rest seen : List WeightedNode) (sum : Int) (best : Nat), (seen = [] → best = 0) →
    (seen ≠ [] → best < seen.length ∧ ∀ j, j < seen.length → current seen j ≤ current seen best) →
    (scan rest seen sum best).1 = seen ++ rest.map raise ∧
      (scan rest seen sum best).2.1 = sum + (rest.map WeightedNode.weight).sum ∧
      (seen ++ rest ≠ [] → (scan rest seen sum best).2.2 < seen.length + rest.length ∧
        ∀ j, j < seen.length + rest.length → current (seen ++ rest.map raise) j ≤
          current (seen ++ rest.map raise) (scan rest seen sum best).2.2) := by
  intro rest
  induction rest with
  | nil =>
    intro seen sum best _ hbest
    simpa [scan] using hbest
  | cons node rest ih =>
    intro seen sum best hempty hbest
    have hlast : current (seen ++ [raise node]) seen.length = (raise node).currentWeight := by simp [current]
    have hold (j : Nat) (hj : j < seen.length) : current (seen ++ [raise node]) j = current seen j := by
      simp [current, List.getElem?_append_left hj]
    have hspec := ih (seen ++ [raise node]) (sum + node.weight)
      (if (raise node).currentWeight > current (seen ++ [raise node]) best then seen.length else best)
      (by simp) (fun _ => ?_)
    · have hassoc : seen ++ [raise node] ++ rest.map raise = seen ++ (node :: rest).map raise := by simp
      rw [hassoc] at hspec
      obtain ⟨hnodes, hsum, hmax⟩ := hspec
      refine ⟨hnodes, ?_, fun _ => ?_⟩
      · rw [List.map_cons, List.sum_cons, ← add_assoc]
        exact hsum
      have hlen : (seen ++ [raise node]).length + rest.length = seen.length + (node :: rest).length := by
        simp
        omega
      rw [hlen] at hmax
      exact hmax (by simp)
    · rw [List.length_append, List.length_singleton]
      rcases eq_or_ne seen [] with rfl | hne
      · rw [hempty rfl]
        simp
      obtain ⟨hlt, hle⟩ := hbest hne
      rw [hold best hlt]
      split
      case isTrue hgt =>
        refine ⟨by omega, fun j hj => ?_⟩
        rw [hlast]
        rcases lt_or_eq_of_le (le_of_lt_succ hj) with hj | rfl
        · rw [hold j hj]
          exact le_of_lt (lt_of_le_of_lt (hle j hj) hgt)
        · exact le_of_eq hlast
      case isFalse hgt =>
        refine ⟨by omega, fun j hj => ?_⟩
        rw [hold best hlt]
        rcases lt_or_eq_of_le (le_of_lt_succ hj) with hj | rfl
        · rw [hold j hj]
          exact hle j hj
        · rw [hlast]
          exact not_lt.mp hgt

theorem ne_nil_of_total_pos (hpos : 0 < total nodes) : nodes ≠ [] := by
  rintro rfl
  exact absurd hpos (by decide)

theorem nextNode_spec (hne : nodes ≠ []) : (nextNode nodes).2 < nodes.length ∧
      (∀ j, j < nodes.length → current nodes j + weight nodes j ≤
        current nodes (nextNode nodes).2 + weight nodes (nextNode nodes).2) ∧
      ∀ i, (nextNode nodes).1[i]? = nodes[i]?.map fun node : WeightedNode =>
        { node with
          currentWeight := node.currentWeight + node.weight -
            (if i = (nextNode nodes).2 then total nodes else 0) } := by
  obtain ⟨hnodes, hsum, hbest⟩ := scan_spec nodes [] 0 0 (fun _ => rfl) (fun h => absurd rfl h)
  rw [List.nil_append] at hnodes
  obtain ⟨hlt, hmax⟩ := hbest hne
  simp only [List.length_nil, zero_add, List.nil_append] at hlt hmax
  have htotal : (scan nodes [] 0 0).2.1 = total nodes := by
    rw [hsum, zero_add, sum_map_eq_sum_range]
    rfl
  have hchosen : (nextNode nodes).2 = (scan nodes [] 0 0).2.2 := rfl
  rw [hchosen]
  refine ⟨hlt, fun j hj => ?_, fun i => ?_⟩
  · rw [← current_map_raise hj, ← current_map_raise hlt]
    exact hmax j hj
  change ((scan nodes [] 0 0).1.modify (scan nodes [] 0 0).2.2 _)[i]? = _
  rw [hnodes, htotal, List.getElem?_modify, List.getElem?_map, Option.map_eq_map, Option.map_map]
  refine congrFun (congrArg Option.map (funext fun node => ?_)) _
  by_cases hi : (scan nodes [] 0 0).2.2 = i
  · simp [hi, raise]
  · simp [hi, Ne.symm hi, raise]

theorem next_eq (hne : nodes ≠ []) : next nodes = ((nextNode nodes).1,
      ((nextNode nodes).1[(nextNode nodes).2]?.map WeightedNode.name).getD "") := by
  rw [next, if_neg (by simpa using hne)]

theorem next_static (hne : nodes ≠ []) : (next nodes).1.map (fun node => (node.name, node.weight)) =
      nodes.map fun node => (node.name, node.weight) := by
  rw [next_eq hne]
  refine List.ext_getElem? fun i => ?_
  rw [List.getElem?_map, List.getElem?_map, (nextNode_spec hne).2.2 i, Option.map_map]
  rfl

theorem current_next (hne : nodes ≠ []) (hi : i < nodes.length) :
    current (next nodes).1 i = current nodes i + weight nodes i -
      if i = (nextNode nodes).2 then total nodes else 0 := by
  rw [next_eq hne]
  simp [current, weight, (nextNode_spec hne).2.2 i, hi]

end Call

section Run

variable {nodes : List WeightedNode} {k i : Nat}

theorem after_succ : after nodes (k + 1) = (next (after nodes k)).1 :=
  iterate_succ_apply' _ _ _

theorem after_add (k l : Nat) : after nodes (k + l) = after (after nodes k) l := by
  unfold after
  rw [add_comm, iterate_add_apply]

section

variable (hne : nodes ≠ [])
include hne

theorem after_static (k : Nat) : (after nodes k).map (fun node => (node.name, node.weight)) =
      nodes.map fun node => (node.name, node.weight) := by
  induction k with
  | zero => rfl
  | succ k ih =>
    have hne' : after nodes k ≠ [] := by
      intro hnil
      rw [hnil] at ih
      exact hne (List.map_eq_nil_iff.mp ih.symm)
    rw [after_succ, next_static hne', ih]

theorem length_after : (after nodes k).length = nodes.length := by
  simpa using congrArg List.length (after_static hne k)

theorem after_ne_nil : after nodes k ≠ [] := by
  intro hnil
  have hlen := length_after (k := k) hne
  rw [hnil] at hlen
  exact hne (List.length_eq_zero_iff.mp hlen.symm)

theorem weight_after : weight (after nodes k) i = weight nodes i := by
  have hget := congrArg (fun l => (l[i]?.map Prod.snd).getD 0) (after_static hne k)
  simpa [weight, comp_def] using hget

theorem total_after : total (after nodes k) = total nodes := by
  unfold total
  rw [length_after hne]
  exact sum_congr rfl fun i _ => weight_after hne

end

theorem timesChosen_succ (start n i : Nat) : timesChosen nodes start (n + 1) i =
      timesChosen nodes start n i + if i = chosen nodes (start + n) then 1 else 0 := by
  unfold timesChosen
  rw [List.range_succ, List.filter_append, List.length_append]
  by_cases h : chosen nodes (start + n) = i
  · simp [h]
  · simp [h, Ne.symm h]

theorem chosen_lt (hne : nodes ≠ []) : chosen nodes k < nodes.length := by
  have hlt := (nextNode_spec (after_ne_nil (k := k) hne)).1
  rwa [length_after hne] at hlt

theorem sum_timesChosen (hne : nodes ≠ []) (start n : Nat) :
    ∑ i ∈ range nodes.length, timesChosen nodes start n i = n := by
  induction n with
  | zero => simp [timesChosen]
  | succ _ ih =>
    simp only [timesChosen_succ, sum_add_distrib, ih]
    rw [sum_ite_eq', if_pos (mem_range.mpr (chosen_lt hne))]

theorem current_after (hne : nodes ≠ []) (hi : i < nodes.length) (k : Nat) : current (after nodes k) i =
      current nodes i + k * weight nodes i - total nodes * timesChosen nodes 0 k i := by
  induction k with
  | zero => simp [after, timesChosen]
  | succ k ih =>
    have hi' : i < (after nodes k).length := by rwa [length_after hne]
    rw [after_succ, current_next (after_ne_nil hne) hi', ih, weight_after hne, total_after hne,
      timesChosen_succ, zero_add]
    change _ - (if i = chosen nodes k then total nodes else 0) = _
    split
    all_goals
      push_cast
      ring

theorem sum_current_after (hne : nodes ≠ []) (hstart : ∀ i, current nodes i = 0) (k : Nat) :
    ∑ i ∈ range nodes.length, current (after nodes k) i = 0 := by
  calc ∑ i ∈ range nodes.length, current (after nodes k) i
      = ∑ i ∈ range nodes.length, (k * weight nodes i - total nodes * timesChosen nodes 0 k i) := by
        refine sum_congr rfl fun i hi => ?_
        rw [current_after hne (mem_range.mp hi), hstart, zero_add]
    _ = k * total nodes - total nodes * (∑ i ∈ range nodes.length, timesChosen nodes 0 k i : ℕ) := by
        rw [sum_sub_distrib, ← mul_sum, ← mul_sum, cast_sum]
        rfl
    _ = 0 := by
        rw [sum_timesChosen hne]
        ring

section

variable (hpos : 0 < total nodes)
include hpos

section

variable (hstart : ∀ i, current nodes i = 0)
include hstart

theorem chosen_raised_pos (k : Nat) :
    0 < current (after nodes k) (chosen nodes k) + weight nodes (chosen nodes k) := by
  have hne := ne_nil_of_total_pos hpos
  by_contra hle
  have hall : ∀ i ∈ range nodes.length, current (after nodes k) i + weight nodes i ≤ 0 := by
    intro i hi
    have hmax := (nextNode_spec (after_ne_nil (k := k) hne)).2.1 i
      (by rw [length_after hne]; exact mem_range.mp hi)
    rw [weight_after hne, weight_after hne] at hmax
    exact le_trans hmax (not_lt.mp hle)
  have hsum := sum_nonpos hall
  rw [sum_add_distrib, sum_current_after hne hstart, zero_add] at hsum
  exact absurd hpos (not_lt.mpr hsum)

variable (hnonneg : ∀ i, 0 ≤ weight nodes i)
include hnonneg

theorem neg_total_lt_current (hi : i < nodes.length) (k : Nat) :
    -total nodes < current (after nodes k) i := by
  have hne := ne_nil_of_total_pos hpos
  induction k with
  | zero =>
    change -total nodes < current nodes i
    rw [hstart]
    linarith
  | succ k =>
    have hi' : i < (after nodes k).length := by rwa [length_after hne]
    rw [after_succ, current_next (after_ne_nil hne) hi', weight_after hne, total_after hne]
    change _ < _ - (if i = chosen nodes k then total nodes else 0)
    split
    case isTrue hchosen =>
      have hraised := chosen_raised_pos hpos hstart k
      rw [← hchosen] at hraised
      linarith
    case isFalse =>
      have hweight := hnonneg i
      linarith

theorem timesChosen_period (hi : i < nodes.length) :
    (timesChosen nodes 0 (total nodes).toNat i : Int) = weight nodes i := by
  have hne := ne_nil_of_total_pos hpos
  have hcast : ((total nodes).toNat : Int) = total nodes := Int.toNat_of_nonneg (le_of_lt hpos)
  have hle : ∀ i ∈ range nodes.length,
      (timesChosen nodes 0 (total nodes).toNat i : Int) ≤ weight nodes i := by
    intro i hi
    have hlow := neg_total_lt_current hpos hstart hnonneg (mem_range.mp hi) (total nodes).toNat
    rw [current_after hne (mem_range.mp hi), hstart, hcast, zero_add, ← mul_sub] at hlow
    have hstrict : -1 < weight nodes i - timesChosen nodes 0 (total nodes).toNat i := by
      by_contra hge
      have := mul_le_mul_of_nonneg_left (not_lt.mp hge) (le_of_lt hpos)
      linarith
    linarith
  have hsum : ∑ i ∈ range nodes.length, (timesChosen nodes 0 (total nodes).toNat i : Int) =
      ∑ i ∈ range nodes.length, weight nodes i := by
    rw [← cast_sum, sum_timesChosen hne, hcast]
    rfl
  exact (sum_eq_sum_iff_of_le hle).mp hsum i (mem_range.mpr hi)

theorem after_period : after nodes (total nodes).toNat = nodes := by
  have hne := ne_nil_of_total_pos hpos
  have hcast : ((total nodes).toNat : Int) = total nodes := Int.toNat_of_nonneg (le_of_lt hpos)
  refine List.ext_getElem (length_after hne) fun i hi hi' => ?_
  have hstatic := congrArg (fun l => l[i]?) (after_static hne (total nodes).toNat)
  have hcurrent : current (after nodes (total nodes).toNat) i = current nodes i := by
    rw [current_after hne hi', timesChosen_period hpos hstart hnonneg hi', hcast]
    ring
  simp only [List.getElem?_map, List.getElem?_eq_getElem hi, List.getElem?_eq_getElem hi',
    map_some, some_inj, Prod.mk.injEq] at hstatic
  simp only [current, List.getElem?_eq_getElem hi, List.getElem?_eq_getElem hi', map_some,
    getD_some] at hcurrent
  cases hnew : (after nodes (total nodes).toNat)[i] with
  | mk =>
    cases hold : nodes[i] with
    | mk =>
      rw [hnew, hold] at hstatic hcurrent
      simp only at hstatic hcurrent
      rw [hstatic.1, hstatic.2, hcurrent]

theorem after_periods (j : Nat) : after nodes (j * (total nodes).toNat) = nodes := by
  induction j with
  | zero => rw [zero_mul]; rfl
  | succ _ ih => rw [succ_mul, after_add, ih, after_period hpos hstart hnonneg]

end

end

end Run

variable {nodes : List (String × Int)}

theorem addAll_eq (nodes : List (String × Int)) :
    addAll nodes = nodes.map fun node => ⟨node.1, node.2, 0⟩ := by
  have hfold (seen : List WeightedNode) :
      nodes.foldl add seen = seen ++ nodes.map fun node => ⟨node.1, node.2, 0⟩ := by
    induction nodes generalizing seen with
    | nil => simp
    | cons _ _ ih => simp [ih, add]
  exact hfold []

theorem weight_addAll (i : Nat) : weight (addAll nodes) i = (nodes[i]?.map Prod.snd).getD 0 := by
  rw [addAll_eq, weight, List.getElem?_map, Option.map_map]
  rfl

theorem name_addAll (hi : i < nodes.length) :
    (((addAll nodes).map fun node => (node.name, node.weight))[i]?.map Prod.fst).getD "" =
      nodes[i].1 := by
  simp [addAll_eq, hi]

theorem total_addAll : total (addAll nodes) = (nodes.map Prod.snd).sum := by
  unfold total weight
  rw [← sum_map_eq_sum_range WeightedNode.weight, addAll_eq, List.map_map]
  rfl

end WeightedRoundRobin

open WeightedRoundRobin in
/-- The current weights add up to zero, a period returns each node as often as its weight says and
leads back, and weight zero is never returned. -/
theorem weightedRoundRobin_exact (nodes : List (String × Int)) (hnonneg : ∀ node ∈ nodes, 0 ≤ node.2)
    (hpos : 0 < (nodes.map Prod.snd).sum) :
    (∀ k, ((after (addAll nodes) k).map WeightedNode.currentWeight).sum = 0) ∧
    (∀ k, ∃ hk : chosen (addAll nodes) k < nodes.length,
      (next (after (addAll nodes) k)).2 = nodes[chosen (addAll nodes) k].1 ∧
        nodes[chosen (addAll nodes) k].2 ≠ 0) ∧
    ∀ j, after (addAll nodes) (j * (nodes.map Prod.snd).sum.toNat) = addAll nodes ∧
      ∀ i (hi : i < nodes.length),
        (timesChosen (addAll nodes) (j * (nodes.map Prod.snd).sum.toNat)
          (nodes.map Prod.snd).sum.toNat i : Int) = nodes[i].2 := by
  have hweights (i : Nat) : 0 ≤ weight (addAll nodes) i := by
    rw [weight_addAll]
    cases hget : nodes[i]? with
    | none => exact le_refl 0
    | some node => exact hnonneg node (List.mem_of_getElem? hget)
  have hstart : ∀ i, current (addAll nodes) i = 0 := by
    intro i
    rw [addAll_eq, current, List.getElem?_map, Option.map_map]
    cases nodes[i]? <;> rfl
  have hlength : (addAll nodes).length = nodes.length := by rw [addAll_eq, List.length_map]
  rw [← total_addAll] at hpos ⊢
  have hne := ne_nil_of_total_pos hpos
  refine ⟨fun k => ?_, fun k => ?_, fun j => ?_⟩
  · rw [sum_map_eq_sum_range, length_after hne]
    exact sum_current_after hne hstart k
  · have hk : chosen (addAll nodes) k < nodes.length := hlength ▸ chosen_lt hne
    refine ⟨hk, ?_, fun hzero => ?_⟩
    · have hstatic := congrArg (fun l => (l[chosen (addAll nodes) k]?.map Prod.fst).getD "")
        (after_static hne (k + 1))
      rw [after_succ, next_eq (after_ne_nil hne)] at hstatic
      rw [next_eq (after_ne_nil hne)]
      refine Eq.trans ?_ (hstatic.trans ?_)
      · simp [chosen, comp_def]
      · exact name_addAll hk
    · have hraised := chosen_raised_pos hpos hstart k
      rw [current_after hne (chosen_lt hne), hstart, weight_addAll, List.getElem?_eq_getElem hk,
        map_some, getD_some, hzero] at hraised
      have hprod : 0 ≤ total (addAll nodes) *
          (timesChosen (addAll nodes) 0 k (chosen (addAll nodes) k) : Int) :=
        mul_nonneg (le_of_lt hpos) (Int.natCast_nonneg _)
      linarith
  · have hback := after_periods hpos hstart hweights j
    refine ⟨hback, fun i hi => ?_⟩
    have hsame : timesChosen (addAll nodes) (j * (total (addAll nodes)).toNat)
        (total (addAll nodes)).toNat i = timesChosen (addAll nodes) 0 (total (addAll nodes)).toNat i := by
      unfold timesChosen chosen
      simp [after_add, hback]
    rw [hsame, timesChosen_period hpos hstart hweights (hlength ▸ hi), weight_addAll,
      List.getElem?_eq_getElem hi]
    rfl

open WeightedRoundRobin in
theorem weightedRoundRobin_exact_three : (∀ node ∈ [("a", (5 : Int)), ("b", 0), ("c", 2)], 0 ≤ node.2) ∧
      0 < ([("a", (5 : Int)), ("b", 0), ("c", 2)].map Prod.snd).sum ∧
      ∀ k, ((after (addAll [("a", 5), ("b", 0), ("c", 2)]) k).map WeightedNode.currentWeight).sum = 0 :=
  ⟨by decide, by decide, (weightedRoundRobin_exact _ (by decide) (by decide)).1⟩

end Yuanrong.Libruntime
