import Mathlib.Logic.Function.Iterate

/-!
# Renewing leases in batches

`BatchRenewHandler` goes over the leases with an iterator, drops those whose instance is gone, and
puts the others into batches by ring, scheduler and function, at most `BATCH_RENEW_LEASE_NUM` to a
batch, with one request each. While the schedulers move between rings, a lease bound to a session of
another ring is left alone; the loop goes on to its next round there without moving the iterator.
-/

namespace Yuanrong.Libruntime.BatchRenew

def batchRenewLeaseNum : Nat := 1000

def fullBlueRatio : Nat := 100

structure FaasAllocationInfo where
  functionId : String
  schedulerInstanceID : String
  schedulerFunctionID : String
  ringName : String
deriving DecidableEq

structure FaasInfoForBatchRenew where
  ringName : String
  schedulerInstanceID : String
  schedulerFunctionID : String
  functionId : String
  batchIndex : Nat
deriving DecidableEq

def FaasAllocationInfo.forBatchRenew (faasInfo : FaasAllocationInfo) (index : Nat) :
    FaasInfoForBatchRenew :=
  { ringName := faasInfo.ringName, schedulerInstanceID := faasInfo.schedulerInstanceID,
    schedulerFunctionID := faasInfo.schedulerFunctionID, functionId := faasInfo.functionId,
    batchIndex := index }

structure ReportRecord where
  procReqNum : Int
  avgProcTime : Int
  maxProcTime : Int
  isAbnormal : Bool
deriving DecidableEq

structure InstanceInfo where
  faasInfo : FaasAllocationInfo
  report : ReportRecord
  needReacquire : Bool
deriving DecidableEq

/-- A lease in a request; `reacquire` is the resource whose data is sent along. -/
structure InstanceReport (ρ : Type) where
  record : ReportRecord
  reacquire : Option (ρ × String)
deriving DecidableEq

/-- `targets` are the keys of `targetNamesMap`; the others are looked up at these only. -/
structure Batches (ρ : Type) where
  targets : List FaasInfoForBatchRenew
  targetNames : FaasInfoForBatchRenew → String
  leaseIds : FaasInfoForBatchRenew → List String
  reports : FaasInfoForBatchRenew → List (String × InstanceReport ρ)

def Batches.empty {ρ : Type} : Batches ρ :=
  { targets := [], targetNames := fun _ => "", leaseIds := fun _ => [], reports := fun _ => [] }

def Batches.add {ρ : Type} (batches : Batches ρ) (key : FaasInfoForBatchRenew) (leaseId : String)
    (report : InstanceReport ρ) : Batches ρ :=
  { targets := if key ∈ batches.targets then batches.targets else batches.targets ++ [key]
    targetNames := Function.update batches.targetNames key
      (if batches.targetNames key = "" then leaseId else batches.targetNames key ++ "," ++ leaseId)
    leaseIds := Function.update batches.leaseIds key (batches.leaseIds key ++ [leaseId])
    reports := Function.update batches.reports key (batches.reports key ++ [(leaseId, report)]) }

/-- The inner loop: the first index from `i` on whose batch has room, if `fuel` rounds are
enough. -/
def freeIndex {ρ : Type} (batches : Batches ρ) (faasInfo : FaasAllocationInfo) : Nat → Nat → Option Nat
  | 0, _ => none
  | fuel + 1, i =>
    if (batches.leaseIds (faasInfo.forBatchRenew i)).length ≥ batchRenewLeaseNum then
      freeIndex batches faasInfo fuel (i + 1)
    else
      some i

/-- `session` is that of a resource's options, `getInstanceInfo` the instance of a lease. -/
structure Manager (ρ : Type) where
  leaseTimer : Bool
  blueRatio : Nat
  hashToPer : String → Nat
  session : ρ → Option String
  getInstanceInfo : ρ → String → Option InstanceInfo
  globalLeases : List (String × ρ)
  nodup_globalLeases : (globalLeases.map Prod.fst).Nodup

variable {ρ : Type}

def Manager.ringOf (m : Manager ρ) (sessionID : String) : String :=
  if m.hashToPer sessionID < m.blueRatio then "blue" else "green"

/-- The test of the rings: the lease belongs to a session that is on another ring now. -/
def Manager.otherRing (m : Manager ρ) (resource : ρ) (ringName : String) : Bool :=
  m.blueRatio ≠ 0 && m.blueRatio ≠ fullBlueRatio &&
    (m.session resource).any fun sessionID => ringName ≠ m.ringOf sessionID

structure Cursor (ρ : Type) where
  kept : List (String × ρ)
  rest : List (String × ρ)
  batches : Batches ρ

def instanceReport (resource : ρ) (info : InstanceInfo) : InstanceReport ρ :=
  { record := info.report
    reacquire := if info.needReacquire then some (resource, info.faasInfo.functionId) else none }

def Manager.round (m : Manager ρ) (c : Cursor ρ) : Cursor ρ :=
  match c.rest with
  | [] => c
  | (leaseId, resource) :: rest =>
    match m.getInstanceInfo resource leaseId with
    | none => { c with rest }
    | some info =>
      match freeIndex c.batches info.faasInfo (c.batches.targets.length + 1) 0 with
      | none => c
      | some i =>
        -- `continue` without a step of the iterator
        if m.otherRing resource info.faasInfo.ringName then c
        else
          { kept := c.kept ++ [(leaseId, resource)]
            rest
            batches := c.batches.add (info.faasInfo.forBatchRenew i) leaseId
              (instanceReport resource info) }

def Manager.start (m : Manager ρ) : Cursor ρ :=
  { kept := [], rest := m.globalLeases, batches := .empty }

def Manager.rounds (m : Manager ρ) (n : Nat) : Cursor ρ := m.round^[n] m.start

structure BatchRetain (ρ : Type) where
  instanceId : String
  function : String
  acquireOps : String
  reports : List (String × InstanceReport ρ)
  leaseIds : List String

def Batches.request (batches : Batches ρ) (key : FaasInfoForBatchRenew) : BatchRetain ρ :=
  { instanceId := key.schedulerInstanceID
    function := key.schedulerFunctionID
    acquireOps := "batchRetain#" ++ batches.targetNames key
    reports := batches.reports key
    leaseIds := batches.leaseIds key }

/-- The requests of a run and the leases it leaves, if the loop ends in `n` rounds. -/
def Manager.batchRenewHandler (m : Manager ρ) (n : Nat) :
    Option (List (BatchRetain ρ) × List (String × ρ)) :=
  if m.leaseTimer then
    let c := m.rounds n
    if c.rest.isEmpty then some (c.batches.targets.map c.batches.request, c.kept) else none
  else
    some ([], m.globalLeases)

end Yuanrong.Libruntime.BatchRenew
