import Yuanrong.Lib.FinMap
import Yuanrong.Lib.GoString

/-!
# Instance elements and the queues they are filed in

An element stands for one instance and holds its free threads. Healthy instances are filed in a
queue ordered by the threads they had then, the others in records of their own. The scheduler has
two such queues; only the one for its own instances has observers, which keep a count per instance.
-/

namespace Yuanrong.Concurrency

open GoString

def kernelInstanceStatusRunning : Int := 3

def kernelInstanceStatusEvicting : Int := 9

def kernelInstanceStatusSubHealth : Int := 11

structure Instance where
  instanceID : String
  concurrentNum : Int
  statusCode : Int
  permanent : Bool := false
  createSchedulerID : String := ""
  sessionCtxID : Option String := none
deriving DecidableEq

abbrev ThreadMap := FinMap String Unit

/-- `overIssued` is history: the number of threads that were handed out when none was free. -/
structure InstanceElement where
  ins : Instance
  threadIndex : Nat
  threadIDPrefix : String
  threadMap : ThreadMap
  overIssued : Nat := 0

namespace InstanceElement

variable (el : InstanceElement)

def threadID (index : Nat) : String :=
  el.ins.instanceID ++ "-thread" ++ el.threadIDPrefix ++ "-" ++ itoa index

def putThreadToThreadMap (threadID : String) : InstanceElement :=
  if (el.threadMap.lookup threadID).isSome then
    el
  else if el.threadMap.len ≥ el.ins.concurrentNum then
    el
  else
    { el with
      threadMap := el.threadMap.insert (el.threadID el.threadIndex) ()
      threadIndex := el.threadIndex + 1 }

def getThreadFromThreadMap (pick : Nat) : String × InstanceElement :=
  match el.threadMap.pick pick with
  | none => ("", el)
  | some threadID => (threadID, { el with threadMap := el.threadMap.erase threadID })

end InstanceElement

def newInstanceElement (ins : Instance) (threadIDPrefix : String) : InstanceElement :=
  let el : InstanceElement := { ins := ins, threadIndex := 1, threadIDPrefix, threadMap := ∅ }
  (List.range ins.concurrentNum.toNat).foldl
    (fun el _ =>
      { el with
        threadMap := el.threadMap.insert (el.threadID el.threadIndex) ()
        threadIndex := el.threadIndex + 1 }) el

inductive SchedulerError
  | insNotExist
  | insAlreadyExist
  | internal
  | noInsAvailable
  | invalidSession
  | insSubHealthy
  | designateInsNotAvailable
  | overAcqLimitExceeded
  | insThdNotExist
  | noInsThdAvail
  | leaseNotCreated
deriving DecidableEq

/-- An entry of the ordered queue: the element's address, and the free threads it was filed with. -/
structure Item where
  elem : Nat
  filedThreads : Nat
deriving DecidableEq

structure InstanceQueue where
  instanceQueue : FinMap String Item := ∅
  subHealthRecord : FinMap String Nat := ∅
  evictingRecord : FinMap String Nat := ∅
  insAvailThdCount : Option (FinMap String Nat) := none

namespace InstanceQueue

variable (q : InstanceQueue)

def getByID (objID : String) : Option Nat :=
  match q.subHealthRecord.lookup objID with
  | some elem => some elem
  | none =>
    match q.evictingRecord.lookup objID with
    | some elem => some elem
    | none => (q.instanceQueue.lookup objID).map Item.elem

def ids : List String := q.instanceQueue.keys ++ q.subHealthRecord.keys ++ q.evictingRecord.keys

/-- The order a walk through the queue takes: `order` as far as it goes, then the rest. -/
def sortedRange (order : List String) : List String := order ++ q.ids

def front (order : List String) : Option Nat :=
  ((order ++ q.instanceQueue.keys).findSome? q.instanceQueue.lookup).map Item.elem

def file (objID : String) (elem : Nat) (el : InstanceElement) : InstanceQueue × Option SchedulerError :=
  if el.ins.statusCode = kernelInstanceStatusRunning then
    ({ q with
       instanceQueue := q.instanceQueue.insert el.ins.instanceID
         { elem, filedThreads := el.threadMap.len } }, none)
  else if el.ins.statusCode = kernelInstanceStatusSubHealth then
    ({ q with subHealthRecord := q.subHealthRecord.insert objID elem }, none)
  else if el.ins.statusCode = kernelInstanceStatusEvicting then
    ({ q with evictingRecord := q.evictingRecord.insert objID elem }, none)
  else
    (q, some .internal)

def count (objID : String) (el : InstanceElement) : InstanceQueue :=
  { q with insAvailThdCount := q.insAvailThdCount.map fun m => m.insert objID el.threadMap.len }

def pushBack (elem : Nat) (el : InstanceElement) : InstanceQueue × Option SchedulerError :=
  if (q.getByID el.ins.instanceID).isSome then
    (q, some .insAlreadyExist)
  else
    match q.file el.ins.instanceID elem el with
    | (q, some err) => (q, some err)
    | (q, none) => (q.count el.ins.instanceID el, none)

def remove (objID : String) : InstanceQueue :=
  { q with
    instanceQueue := q.instanceQueue.erase objID
    subHealthRecord := q.subHealthRecord.erase objID
    evictingRecord := q.evictingRecord.erase objID }

def delByID (objID : String) : InstanceQueue × Option SchedulerError :=
  if q.insAvailThdCount.isSome ∧ (q.evictingRecord.lookup objID).isSome then
    ({ q with evictingRecord := q.evictingRecord.erase objID }, none)
  else if (q.getByID objID).isNone then
    (q, some .insNotExist)
  else
    ({ q.remove objID with
       insAvailThdCount := q.insAvailThdCount.map fun m => m.erase objID }, none)

def updateObjByID (objID : String) (elem : Nat) (el : InstanceElement) :
    InstanceQueue × Option SchedulerError :=
  if (q.getByID objID).isNone then
    (q, some .insNotExist)
  else
    match (q.remove objID).file objID elem el with
    | (q, some err) => (q, some err)
    | (q, none) =>
      match q.insAvailThdCount with
      | none => (q, none)
      | some m => if (m.lookup objID).isNone then (q, some .internal) else (q.count objID el, none)

end InstanceQueue

end Yuanrong.Concurrency
