import Mathlib.Algebra.Order.Field.Rat

/-!
# Instances and their dispatch

The local view of an instance and the two policies that pick one for a request. A dispatcher is
handed the candidates in some order, since they come out of a map; the round-robin cursor therefore
counts positions in a list that may be ordered anew on every call.
-/

namespace Yuanrong.Lite

open Option Prod

inductive InstanceStatus
  | unavailable
  | running
  | subHealth
deriving DecidableEq

def kernelInstanceStatusRunning : Int := 3

def kernelInstanceStatusSubHealth : Int := 11

def mapStatus (code : Int) : InstanceStatus :=
  if code = kernelInstanceStatusRunning then .running
  else if code = kernelInstanceStatusSubHealth then .subHealth
  else .unavailable

structure InstanceRoute where
  instanceIP : String := ""
  instancePort : String := ""
  nodeIP : String := ""
  nodePort : String := ""
  funcSig : String := ""
  functionProxyID : String := ""
  routeAddress : String := ""
deriving DecidableEq

structure Instance where
  instanceID : String
  funcKey : String
  concurrentNum : Int
  statusCode : Int
  route : InstanceRoute := {}
  sessionCtxID : Option String := none
deriving DecidableEq

structure LiteInstance where
  instanceID : String
  funcKey : String
  capacity : Int
  inUse : Int
  status : InstanceStatus
  route : InstanceRoute
  sessionCtxID : String
  idleSince : Option Nat
  reclaiming : Bool
deriving DecidableEq

def LiteInstance.schedulable (ins : LiteInstance) : Bool :=
  ins.status = .running || ins.status = .subHealth

def buildLiteInstanceFromInstance (ins : Instance) : LiteInstance where
  instanceID := ins.instanceID
  funcKey := ins.funcKey
  capacity := ins.concurrentNum
  inUse := 0
  status := mapStatus ins.statusCode
  route := ins.route
  sessionCtxID := ins.sessionCtxID.getD ""
  idleSince := none
  reclaiming := false

def subHealthPenalty : ℚ := 1

/-- The source computes the score in `float64`; exact quotients order the same but for ties. -/
def LiteInstance.score (ins : LiteInstance) : ℚ :=
  let load : ℚ := (ins.inUse : ℚ) / (ins.capacity : ℚ)
  if ins.status = .subHealth then load + subHealthPenalty else load

def LiteInstance.fits (ins : LiteInstance) (concurrency : Int) : Bool :=
  concurrency ≤ ins.capacity - ins.inUse

inductive Dispatcher
  | concurrency
  | roundRobin (curIndex : Nat)
deriving DecidableEq

def better (concurrency : Int) (best : Option LiteInstance) (ins : LiteInstance) :
    Option LiteInstance :=
  if ins.capacity ≤ 0 || !ins.fits concurrency then
    best
  else
    match best with
    | none => some ins
    | some b => if ins.score < b.score then some ins else some b

def findFrom (slots : List LiteInstance) (cur : Nat) (status : InstanceStatus)
    (concurrency : Int) : Option (Nat × LiteInstance) :=
  (List.range slots.length).findSome? fun offset =>
    let idx := (cur + offset) % slots.length
    (slots[idx]?).bind fun ins =>
      if ins.status = status && ins.fits concurrency then some (idx, ins) else none

def Dispatcher.select (d : Dispatcher) (slots : List LiteInstance) (concurrency : Int) :
    Option LiteInstance × Dispatcher :=
  match d with
  | .concurrency =>
    if concurrency ≤ 0 then (none, d) else (slots.foldl (better concurrency) none, d)
  | .roundRobin curIndex =>
    if slots.length = 0 then (none, d)
    else if concurrency ≤ 0 then (none, d)
    else
      let cur := if slots.length ≤ curIndex then curIndex % slots.length else curIndex
      match findFrom slots cur .running concurrency with
      | some (idx, ins) => (some ins, .roundRobin ((idx + 1) % slots.length))
      | none =>
        match findFrom slots cur .subHealth concurrency with
        | some (idx, ins) => (some ins, .roundRobin ((idx + 1) % slots.length))
        | none => (none, .roundRobin cur)

def instanceSchedulePolicyRoundRobin : String := "round-robin"

def newDispatcher (schedulePolicy : String) : Dispatcher :=
  if schedulePolicy = instanceSchedulePolicyRoundRobin then .roundRobin 0 else .concurrency

variable {slots : List LiteInstance} {concurrency : Int} {ins : LiteInstance}

theorem better_eq_some (hbetter : better concurrency best next = some ins) :
    best = some ins ∨ ins = next := by
  unfold better at hbetter
  split at hbetter
  · exact .inl hbetter
  split at hbetter
  · exact .inr (some.inj hbetter).symm
  split at hbetter
  · exact .inr (some.inj hbetter).symm
  · exact .inl hbetter

theorem mem_of_foldl_better (hfold : slots.foldl (better concurrency) best = some ins) :
    best = some ins ∨ ins ∈ slots := by
  induction slots generalizing best with
  | nil => exact .inl hfold
  | cons _ _ ih =>
    rcases ih hfold with hbest | hmem
    · rcases better_eq_some hbest with hold | rfl
      · exact .inl hold
      · exact .inr List.mem_cons_self
    · exact .inr (List.mem_cons_of_mem _ hmem)

theorem mem_of_findFrom (hfind : findFrom slots cur status concurrency = some (idx, ins)) : ins ∈ slots := by
  obtain ⟨offset, -, hoffset⟩ := List.exists_of_findSome?_eq_some hfind
  obtain ⟨slot, hslot, hpick⟩ := bind_eq_some_iff.mp hoffset
  split at hpick
  · simp only [some.injEq, mk.injEq] at hpick
    exact hpick.2 ▸ List.mem_of_getElem? hslot
  · cases hpick

theorem Dispatcher.mem_of_select {d d' : Dispatcher}
    (hselect : d.select slots concurrency = (some ins, d')) : ins ∈ slots := by
  unfold Dispatcher.select at hselect
  cases d with
  | concurrency =>
    dsimp only at hselect
    split at hselect
    · cases hselect
    rcases mem_of_foldl_better (congrArg fst hselect) with hnone | hmem
    · cases hnone
    · exact hmem
  | roundRobin =>
    dsimp only at hselect
    split at hselect
    · cases hselect
    split at hselect
    · cases hselect
    split at hselect
    · rename_i hfind
      simp only [mk.injEq, some.injEq] at hselect
      exact hselect.1 ▸ mem_of_findFrom hfind
    split at hselect
    · rename_i hfind
      simp only [mk.injEq, some.injEq] at hselect
      exact hselect.1 ▸ mem_of_findFrom hfind
    · cases hselect

end Yuanrong.Lite
