import Mathlib.Data.List.Perm.Basic
import Mathlib.Data.Nat.Log
import Mathlib.Tactic.Linarith

/-!
# The double-ended heap

`DeHeap` keeps its items in one slice: on an even level an item should be the largest of its
subtree, on an odd level the smallest. The two loops that restore this order run on fuel here, which
is never used up: the upward loop moves to smaller positions and the downward loop to greater ones.
-/

namespace Yuanrong.PriorityQueue

structure Item (α : Type) where
  objID : String
  obj : α
  priority : Int
deriving DecidableEq

abbrev DeHeap (α : Type) := List (Item α)

/-- The source computes the level as `bits.Len(i + 1) - 1`. -/
def isMaxLevel (i : Nat) : Bool := Nat.log2 (i + 1) % 2 == 0

/-- The root is its own parent: the division in the source truncates towards zero. -/
def parent (i : Nat) : Nat := (i - 1) / 2

/-- Where the source's index is negative there is no grandparent. -/
def grandparent (i : Nat) : Option Nat := if 3 ≤ i then some ((i + 1) / 4 - 1) else none

def leftChild (i : Nat) : Nat := i * 2 + 1

def rightChild (i : Nat) : Nat := i * 2 + 2

namespace DeHeap

variable {α : Type}

def compare (items : DeHeap α) (i j : Nat) : Bool :=
  match items[i]?, items[j]? with
  | some a, some b => decide (a.priority > b.priority)
  | _, _ => false

def swap (items : DeHeap α) (i j : Nat) : DeHeap α :=
  match items[i]?, items[j]? with
  | some a, some b => (items.set i b).set j a
  | _, _ => items

def climb (isMax : Bool) : Nat → DeHeap α → Nat → DeHeap α
  | 0, items, _ => items
  | fuel + 1, items, i =>
    match grandparent i with
    | none => items
    | some g =>
      if items.compare g i = isMax then
        items
      else
        climb isMax fuel (items.swap g i) g

def shiftUp (items : DeHeap α) (i : Nat) : DeHeap α :=
  let isMax := isMaxLevel i
  let p := parent i
  if items.compare p i = isMax then
    climb (!isMax) i (items.swap p i) p
  else
    climb isMax i items i

/-- The children and grandchildren of a position, in the order `shiftDown` looks at them. -/
def below (items : DeHeap α) (i : Nat) : List Nat :=
  [leftChild i, rightChild i, leftChild (leftChild i), rightChild (leftChild i),
    leftChild (rightChild i), rightChild (rightChild i)].filter (· < items.length)

/-- The position among `i` and those below it that should stand at `i`. -/
def choose (items : DeHeap α) (isMax : Bool) (i : Nat) : Nat :=
  (items.below i).foldl (fun t c => if items.compare c t = isMax then c else t) i

/-- The loop of `shiftDown`. After a swap with a grandchild's parent it goes on at that parent. -/
def sink : Nat → DeHeap α → Nat → DeHeap α
  | 0, items, _ => items
  | fuel + 1, items, i =>
    if leftChild i ≥ items.length then
      items
    else
      let isMax := isMaxLevel i
      let t := items.choose isMax i
      if t = i then
        items
      else
        let swapped := items.swap i t
        if t = leftChild i ∨ t = rightChild i then
          swapped
        else if swapped.compare (parent t) t = isMax then
          sink fuel (swapped.swap (parent t) t) (parent t)
        else
          sink fuel swapped t

def shiftDown (items : DeHeap α) (i : Nat) : DeHeap α := sink items.length items i

def sinkEnd : Nat → DeHeap α → Nat → Nat
  | 0, _, i => i
  | fuel + 1, items, i =>
    if leftChild i ≥ items.length then
      i
    else
      let isMax := isMaxLevel i
      let t := items.choose isMax i
      if t = i then
        i
      else
        let swapped := items.swap i t
        if t = leftChild i ∨ t = rightChild i then
          t
        else if swapped.compare (parent t) t = isMax then
          sinkEnd fuel (swapped.swap (parent t) t) (parent t)
        else
          sinkEnd fuel swapped t

def fix (items : DeHeap α) (i : Nat) : DeHeap α :=
  let j := sinkEnd items.length items i
  if 0 < j then (items.shiftDown i).shiftUp j else items.shiftDown i

def push (items : DeHeap α) (item : Item α) : DeHeap α :=
  shiftUp (items ++ [item]) items.length

/-- Puts the last item in the hole and lets it sink. It is never moved up. -/
def remove (items : DeHeap α) (i : Nat) : DeHeap α :=
  if i ≥ items.length then
    items
  else
    shiftDown ((items.swap i (items.length - 1)).take (items.length - 1)) i

def getMax (items : DeHeap α) : Option (Item α) := items[0]?

def minIndex (items : DeHeap α) : Nat :=
  if items.length ≤ 1 then 0
  else if 2 < items.length ∧ items.compare 1 2 = true then 2
  else 1

def getMin (items : DeHeap α) : Option (Item α) := items[items.minIndex]?

def popMax (items : DeHeap α) : DeHeap α := items.remove 0

def popMin (items : DeHeap α) : DeHeap α := items.remove items.minIndex

def indexOf (items : DeHeap α) (objID : String) : Option Nat :=
  items.findIdx? fun item => item.objID = objID

end DeHeap

end Yuanrong.PriorityQueue
