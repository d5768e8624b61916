import Mathlib.Data.Finset.Basic
import Mathlib.Data.Prod.Lex

/-!
# The ownership ring

`SimpleCHGeneric` keeps the points of its members sorted and gives a key to the owner of the first
point after it. That point is the least one of a linear order which depends on the key only, so the
owner is a function of the set of members.
-/

namespace Yuanrong.LoadBalance

open List Bool

def search (f : Nat → Bool) (i j : Nat) : Nat :=
  if i < j then
    let h := (i + j) / 2
    if f h then search f i h else search f (h + 1) j
  else i
termination_by j - i

theorem search_spec {n : Nat} (hmono : ∀ k l, k ≤ l → l < n → f k → f l) {i j : Nat}
    (hij : i ≤ j) (hj : j ≤ n) (hlow : ∀ k < i, f k = false) (hhigh : ∀ k, j ≤ k → k < n → f k) :
    search f i j ≤ n ∧ (∀ k < search f i j, f k = false) ∧ ∀ k, search f i j ≤ k → k < n → f k := by
  fun_induction search f i j with
  | case1 _ _ _ h hf ih => exact ih (by omega) (by omega) hlow fun k hk hn => hmono h k hk hn hf
  | case2 _ _ _ h hf ih =>
    refine ih (by omega) hj (fun k hk => ?_) hhigh
    -- a place that held would carry over to `h`
    by_contra hheld
    exact hf (hmono k h (by omega) (by omega) (by simpa using hheld))
  | case3 => exact ⟨by omega, hlow, fun k hk => hhigh k (by omega)⟩

def virtualNodeCount : Nat := 256

@[ext] structure VirtualNode (Name : Type) where
  hash : Nat
  owner : Name
  index : Nat

structure Hashing (Name Key : Type) where
  point : Name → Nat → Nat
  key : Key → Nat

structure SimpleCHGeneric (Name : Type) where
  nodes : List (VirtualNode Name)
  owners : Finset Name

variable {Name Key : Type} {H : Hashing Name Key}

def newSimpleCHGeneric : SimpleCHGeneric Name := { nodes := [], owners := ∅ }

def buildVirtualNodes (H : Hashing Name Key) (name : Name) : List (VirtualNode Name) :=
  (List.range virtualNodeCount).map fun i => { hash := H.point name i, owner := name, index := i }

theorem owner_of_mem_build (h : n ∈ buildVirtualNodes H name) : n.owner = name := by
  obtain ⟨i, -, rfl⟩ := mem_map.mp h
  rfl

variable [LinearOrder Name]

def less (a b : VirtualNode Name) : Bool :=
  if a.hash ≠ b.hash then a.hash < b.hash
  else if a.owner ≠ b.owner then a.owner < b.owner
  else a.index < b.index

def sortVirtualNodes (nodes : List (VirtualNode Name)) : List (VirtualNode Name) :=
  nodes.mergeSort fun a b => !less b a

namespace SimpleCHGeneric

/-- The owner of a key, and nothing (the source's empty string) on an empty ring. -/
def next (H : Hashing Name Key) (c : SimpleCHGeneric Name) (key : Key) : Option Name :=
  let hashKey := H.key key
  if c.nodes.length = 0 then none
  else
    let i := search (fun i => c.nodes[i]?.any fun n => hashKey < n.hash) 0 c.nodes.length
    let i := if i = c.nodes.length then 0 else i
    c.nodes[i]?.map (·.owner)

def add (H : Hashing Name Key) (c : SimpleCHGeneric Name) (name : Name) : SimpleCHGeneric Name :=
  if name ∈ c.owners then c
  else
    { owners := insert name c.owners,
      nodes := sortVirtualNodes (c.nodes ++ buildVirtualNodes H name) }

def remove (c : SimpleCHGeneric Name) (name : Name) : SimpleCHGeneric Name :=
  if name ∉ c.owners then c
  else { owners := c.owners.erase name, nodes := c.nodes.filter (·.owner ≠ name) }

end SimpleCHGeneric

inductive RingOp (Name : Type) where
  | add (name : Name)
  | remove (name : Name)

def SimpleCHGeneric.step (H : Hashing Name Key) (c : SimpleCHGeneric Name) :
    RingOp Name → SimpleCHGeneric Name
  | .add name => c.add H name
  | .remove name => c.remove name

def ring (H : Hashing Name Key) (ops : List (RingOp Name)) : SimpleCHGeneric Name :=
  ops.foldl (·.step H) newSimpleCHGeneric

def VirtualNode.place (n : VirtualNode Name) : Nat ×ₗ (Name ×ₗ Nat) :=
  toLex (n.hash, toLex (n.owner, n.index))

variable {a b : VirtualNode Name}

theorem less_iff : less a b ↔ a.place < b.place := by
  simp only [VirtualNode.place, Prod.Lex.toLex_lt_toLex, less]
  by_cases hhash : a.hash = b.hash
  · by_cases howner : a.owner = b.owner <;> simp [hhash, howner]
  · simp [hhash]

/-- The points in the order in which a key meets them: those after it first. -/
def VirtualNode.rank (k : Nat) (n : VirtualNode Name) : Nat ×ₗ (Nat ×ₗ (Name ×ₗ Nat)) :=
  toLex (if k < n.hash then 0 else 1, n.place)

theorem rank_le {k : Nat} (hle : a.place ≤ b.place) (hside : k < b.hash → k < a.hash) :
    a.rank k ≤ b.rank k := by
  rw [VirtualNode.rank, VirtualNode.rank, Prod.Lex.toLex_le_toLex]
  by_cases hb : k < b.hash
  · simp [hb, hside hb, hle]
  · by_cases ha : k < a.hash <;> simp [ha, hb, hle]

omit [LinearOrder Name] in
theorem eq_of_rank_eq (h : a.rank k = b.rank k) : a = b := by
  simp only [VirtualNode.rank, VirtualNode.place, EmbeddingLike.apply_eq_iff_eq, Prod.mk.injEq] at h
  exact VirtualNode.ext h.2.1 h.2.2.1 h.2.2.2

theorem hash_le_of_place_le (h : a.place ≤ b.place) : a.hash ≤ b.hash := by
  rcases Prod.Lex.toLex_le_toLex.mp h with hlt | ⟨heq, -⟩
  · exact hlt.le
  · exact heq.le

structure WellFormed (H : Hashing Name Key) (c : SimpleCHGeneric Name) : Prop where
  sorted : c.nodes.Pairwise (·.place ≤ ·.place)
  mem_nodes : ∀ n, n ∈ c.nodes ↔ n.owner ∈ c.owners ∧ n ∈ buildVirtualNodes H n.owner

theorem sorted_sortVirtualNodes (nodes : List (VirtualNode Name)) :
    (sortVirtualNodes nodes).Pairwise (·.place ≤ ·.place) := by
  have hle : ∀ a b : VirtualNode Name, (!less b a) = true ↔ a.place ≤ b.place := by
    intro a b
    rw [not_eq_true', ← not_eq_true, less_iff, not_lt]
  refine (@pairwise_mergeSort _ (fun a b => !less b a) ?_ ?_ nodes).imp fun h => (hle _ _).mp h
  · intro a b c hab hbc
    exact (hle _ _).mpr (((hle _ _).mp hab).trans ((hle _ _).mp hbc))
  intro a b
  rw [or_eq_true, hle, hle]
  exact le_total _ _

namespace WellFormed

variable {c d : SimpleCHGeneric Name} {name o : Name} {key : Key}

theorem new : WellFormed H (newSimpleCHGeneric : SimpleCHGeneric Name) :=
  ⟨List.Pairwise.nil, by simp [newSimpleCHGeneric]⟩

theorem add (h : WellFormed H c) (name : Name) : WellFormed H (c.add H name) := by
  unfold SimpleCHGeneric.add
  split
  · exact h
  refine ⟨sorted_sortVirtualNodes _, fun n => ?_⟩
  simp only [sortVirtualNodes, mem_mergeSort, mem_append, h.mem_nodes, Finset.mem_insert]
  constructor
  · rintro (⟨howner, hbuild⟩ | hnew)
    · exact ⟨.inr howner, hbuild⟩
    · rw [owner_of_mem_build hnew]
      exact ⟨.inl rfl, hnew⟩
  · rintro ⟨rfl | howner, hbuild⟩
    · exact .inr hbuild
    · exact .inl ⟨howner, hbuild⟩

theorem remove (h : WellFormed H c) (name : Name) : WellFormed H (c.remove name) := by
  unfold SimpleCHGeneric.remove
  split
  · exact h
  refine ⟨h.sorted.filter _, fun n => ?_⟩
  simp only [mem_filter, decide_eq_true_eq, h.mem_nodes, Finset.mem_erase]
  tauto

theorem step (h : WellFormed H c) : ∀ op, WellFormed H (c.step H op)
  | .add name => h.add name
  | .remove name => h.remove name

theorem ring (ops : List (RingOp Name)) : WellFormed H (ring H ops) := by
  suffices ∀ c, WellFormed H c → WellFormed H (ops.foldl (·.step H) c) from this _ new
  induction ops with
  | nil => exact fun c hc => hc
  | cons op _ ih => exact fun c hc => ih _ (hc.step op)

section

variable (h : WellFormed H c)
include h

theorem nodes_eq_nil_iff : c.nodes = [] ↔ c.owners = ∅ := by
  rw [eq_nil_iff_forall_not_mem, Finset.eq_empty_iff_forall_notMem]
  constructor
  · intro hnone name hname
    refine hnone ⟨H.point name 0, name, 0⟩ ((h.mem_nodes _).mpr ⟨hname, ?_⟩)
    exact mem_map.mpr ⟨0, mem_range.mpr (by decide), rfl⟩
  · exact fun hnone n hn => hnone _ ((h.mem_nodes n).mp hn).1

theorem exists_least (hne : c.nodes ≠ []) (key : Key) : ∃ n ∈ c.nodes, c.next H key = some n.owner ∧
      ∀ m ∈ c.nodes, n.rank (H.key key) ≤ m.rank (H.key key) := by
  have hpos : 0 < c.nodes.length := length_pos_iff.mpr hne
  have hle : ∀ k l (hk : k < c.nodes.length) (hl : l < c.nodes.length), k ≤ l →
      c.nodes[k].place ≤ c.nodes[l].place := by
    intro k l hk hl hkl
    rcases hkl.eq_or_lt with rfl | hlt
    · exact le_rfl
    · exact pairwise_iff_getElem.mp h.sorted k l hk hl hlt
  simp only [SimpleCHGeneric.next, if_neg hpos.ne']
  generalize hf : (fun i : Nat => c.nodes[i]?.any fun n => H.key key < n.hash) = f
  have hafter : ∀ l (hl : l < c.nodes.length), f l ↔ H.key key < c.nodes[l].hash := by
    intro l hl
    simp [← hf, hl]
  obtain ⟨hi, hlow, hhigh⟩ := @search_spec f c.nodes.length (fun k l hkl hl hk => (hafter l hl).mpr
      (((hafter k (by omega)).mp hk).trans_le (hash_le_of_place_le (hle k l _ hl hkl))))
    0 c.nodes.length (by omega) le_rfl (by omega) (by omega)
  generalize search f 0 c.nodes.length = i at hi hlow hhigh
  have hbefore : ∀ l (hl : l < c.nodes.length), l < i → ¬ H.key key < c.nodes[l].hash := by
    intro l hl hli
    rw [← hafter l hl, hlow l hli]
    exact false_ne_true
  by_cases hend : i = c.nodes.length
  · -- no point comes after the key, and it wraps round to the first one
    refine ⟨c.nodes[0], getElem_mem hpos, by simp [hend, hpos], fun m hm => ?_⟩
    obtain ⟨l, hl, rfl⟩ := getElem_of_mem hm
    exact rank_le (hle 0 l hpos hl (by omega)) fun hside => absurd hside (hbefore l hl (by omega))
  · have hi' : i < c.nodes.length := by omega
    have hside := (hafter i hi').mp (hhigh i le_rfl hi')
    refine ⟨c.nodes[i], getElem_mem hi', by simp [hend, hi'], fun m hm => ?_⟩
    obtain ⟨l, hl, rfl⟩ := getElem_of_mem hm
    by_cases hil : i ≤ l
    · exact rank_le (hle i l hi' hl hil) fun _ => hside
    · simp [VirtualNode.rank, Prod.Lex.toLex_le_toLex, hside, hbefore l hl (by omega)]

theorem next_eq_none_iff : c.next H key = none ↔ c.owners = ∅ := by
  rw [← h.nodes_eq_nil_iff]
  constructor
  · intro hnone
    by_contra hne
    obtain ⟨n, -, hnext, -⟩ := h.exists_least hne key
    rw [hnone] at hnext
    cases hnext
  · intro hnil
    simp [SimpleCHGeneric.next, hnil]

theorem least_of_next (hnext : c.next H key = some o) :
    ∃ n ∈ c.nodes, n.owner = o ∧ ∀ m ∈ c.nodes, n.rank (H.key key) ≤ m.rank (H.key key) := by
  have hne : c.nodes ≠ [] := by
    intro hnil
    rw [h.next_eq_none_iff.mpr (h.nodes_eq_nil_iff.mp hnil)] at hnext
    cases hnext
  obtain ⟨n, hn, howner, hleast⟩ := h.exists_least hne key
  rw [hnext] at howner
  exact ⟨n, hn, (Option.some.inj howner).symm, hleast⟩

theorem mem_owners_of_next (hnext : c.next H key = some o) : o ∈ c.owners := by
  obtain ⟨n, hn, rfl, -⟩ := h.least_of_next hnext
  exact ((h.mem_nodes n).mp hn).1

end

theorem next_of_subset (hc : WellFormed H c) (hd : WellFormed H d) (hsub : c.owners ⊆ d.owners)
    (hnext : d.next H key = some o) (ho : o ∈ c.owners) : c.next H key = some o := by
  obtain ⟨n, hn, rfl, hleast⟩ := hd.least_of_next hnext
  have hmem : n ∈ c.nodes := (hc.mem_nodes n).mpr ⟨ho, ((hd.mem_nodes n).mp hn).2⟩
  obtain ⟨m, hm, hnext', hleast'⟩ := hc.exists_least (ne_nil_of_mem hmem) key
  have hm' := (hc.mem_nodes m).mp hm
  have heq : m = n := eq_of_rank_eq (le_antisymm (hleast' n hmem)
    (hleast m ((hd.mem_nodes m).mpr ⟨hsub hm'.1, hm'.2⟩)))
  rw [hnext', heq]

theorem next_eq_of_owners_eq (hc : WellFormed H c) (hd : WellFormed H d) (h : c.owners = d.owners) :
    c.next H key = d.next H key := by
  cases hnext : d.next H key with
  | none => rw [hc.next_eq_none_iff, h, ← hd.next_eq_none_iff, hnext]
  | some => exact hc.next_of_subset hd h.subset hnext (h ▸ hd.mem_owners_of_next hnext)

theorem owners_add (name : Name) : (c.add H name).owners = insert name c.owners := by
  unfold SimpleCHGeneric.add
  split
  case isTrue hmem => exact (Finset.insert_eq_of_mem hmem).symm
  case isFalse => rfl

theorem owners_remove (name : Name) : (c.remove name).owners = c.owners.erase name := by
  unfold SimpleCHGeneric.remove
  split
  case isTrue hout => exact (Finset.erase_eq_of_notMem hout).symm
  case isFalse => rfl

/-- With one more member a key keeps its owner or gets the new one. -/
theorem next_insert (hc : WellFormed H c) (hd : WellFormed H d) (howners : d.owners = insert name c.owners) :
    d.next H key = c.next H key ∨ d.next H key = some name := by
  cases hnext : d.next H key with
  | none => simp [hd.next_eq_none_iff, howners] at hnext
  | some =>
    have ho := hd.mem_owners_of_next hnext
    rw [howners, Finset.mem_insert] at ho
    rcases ho with rfl | hold
    · exact .inr rfl
    · refine .inl (hc.next_of_subset hd ?_ hnext hold).symm
      rw [howners]
      exact Finset.subset_insert name c.owners

theorem next_remove (h : WellFormed H c) (name : Name) :
    (c.remove name).next H key = c.next H key ∨ c.next H key = some name := by
  by_cases hmem : name ∈ c.owners
  · refine ((h.remove name).next_insert h ?_).imp_left Eq.symm
    rw [owners_remove, Finset.insert_erase hmem]
  · rw [SimpleCHGeneric.remove, if_pos hmem]
    exact .inl rfl

end WellFormed

/-- The members after some operations: the names whose last operation was an `Add`. -/
def Member (ops : List (RingOp Name)) (name : Name) : Prop :=
  ∃ front back, ops = front ++ .add name :: back ∧ .remove name ∉ back

omit [LinearOrder Name] in
theorem member_concat (ops : List (RingOp Name)) (op : RingOp Name) (name : Name) :
    Member (ops ++ [op]) name ↔ op = .add name ∨ (Member ops name ∧ op ≠ .remove name) := by
  constructor
  · rintro ⟨front, back, heq, hback⟩
    rcases back.eq_nil_or_concat' with rfl | ⟨back, last, rfl⟩
    · exact .inl (cons.inj (append_inj_right' heq rfl)).1
    · rw [← cons_append, ← append_assoc] at heq
      obtain ⟨rfl, hlast⟩ := append_inj' heq rfl
      cases hlast
      rw [mem_append, mem_singleton] at hback
      exact .inr ⟨⟨front, back, rfl, fun h => hback (.inl h)⟩, fun h => hback (.inr h.symm)⟩
  · rintro (rfl | ⟨⟨front, back, rfl, hback⟩, hne⟩)
    · exact ⟨ops, [], rfl, not_mem_nil⟩
    · refine ⟨front, back ++ [op], by simp, fun h => ?_⟩
      rcases mem_append.mp h with h | h
      · exact hback h
      · exact hne (mem_singleton.mp h).symm

theorem ring_concat (H : Hashing Name Key) (ops : List (RingOp Name)) (op : RingOp Name) :
    ring H (ops ++ [op]) = (ring H ops).step H op := foldl_append ..

theorem mem_owners_iff (H : Hashing Name Key) (ops : List (RingOp Name)) (name : Name) :
    name ∈ (ring H ops).owners ↔ Member ops name := by
  induction ops using reverseRecOn with
  | nil => simp [ring, newSimpleCHGeneric, Member]
  | append_singleton ops op ih =>
    rw [ring_concat, member_concat, ← ih]
    cases op with
    | add other => simp [SimpleCHGeneric.step, WellFormed.owners_add, eq_comm]
    | remove other =>
      rw [SimpleCHGeneric.step, WellFormed.owners_remove, Finset.mem_erase]
      constructor
      · rintro ⟨hne, hmem⟩
        exact .inr ⟨hmem, fun heq => hne (RingOp.remove.inj heq).symm⟩
      · rintro (hadd | ⟨hmem, hne⟩)
        · cases hadd
        · exact ⟨fun heq => hne (congrArg _ heq.symm), hmem⟩

/-- **Ownership.** The owner depends on the members only and is one of them, and a change of one
member moves only the keys that it gets or had. -/
theorem ring_owner (H : Hashing Name Key) (ops : List (RingOp Name)) (key : Key) :
    (∀ ops', (∀ name, Member ops' name ↔ Member ops name) →
      (ring H ops').next H key = (ring H ops).next H key) ∧
    ((∃ name, Member ops name) → ∃ o, Member ops o ∧ (ring H ops).next H key = some o) ∧
    (∀ name, (ring H (ops ++ [.add name])).next H key = (ring H ops).next H key ∨
      (ring H (ops ++ [.add name])).next H key = some name) ∧
    (∀ name, (ring H (ops ++ [.remove name])).next H key = (ring H ops).next H key ∨
      (ring H ops).next H key = some name) := by
  have h : WellFormed H (ring H ops) := WellFormed.ring ops
  refine ⟨fun ops' hsame => ?_, ?_, fun name => ?_, fun name => ?_⟩
  · refine (WellFormed.ring ops').next_eq_of_owners_eq h (Finset.ext fun name => ?_)
    rw [mem_owners_iff, mem_owners_iff, hsame]
  · rintro ⟨name, hname⟩
    cases hnext : (ring H ops).next H key with
    | none =>
      rw [← mem_owners_iff H, h.next_eq_none_iff.mp hnext] at hname
      cases hname
    | some o => exact ⟨o, (mem_owners_iff H ops o).mp (h.mem_owners_of_next hnext), rfl⟩
  · rw [ring_concat]
    exact h.next_insert (h.add name) (WellFormed.owners_add name)
  · rw [ring_concat]
    exact h.next_remove name

theorem ring_owner_collision : let H : Hashing Nat Nat := { point := fun _ _ => 7, key := id }
    (ring H [.add 2, .add 3, .remove 3, .add 1]).next H 5 = (ring H [.add 1, .add 2]).next H 5 ∧
      ∃ o, Member [.add 1, .add 2] o ∧ (ring H [.add 1, .add 2]).next H 5 = some o := by
  intro H
  obtain ⟨hsame, hmember, -⟩ := ring_owner H [.add 1, .add 2] 5
  refine ⟨hsame _ fun name => ?_, hmember ⟨1, [], [.add 2], rfl, by simp⟩⟩
  rw [← mem_owners_iff H, ← mem_owners_iff H,
    show (ring H [.add 2, .add 3, .remove 3, .add 1]).owners =
      (ring H [.add 1, .add 2]).owners by decide]

end Yuanrong.LoadBalance
