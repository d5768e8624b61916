import Yuanrong.ConcurrencyScheduler.Queue
import Yuanrong.Lib.StepSystem
import Yuanrong.PriorityQueue.DeHeap

/-!
# The order in which a queue offers its instances

One queue of a concurrency scheduler, with its healthy instances in the heap that decides which is
at the front. A scaled scheduler keeps those without a free thread in a buffer behind it. Of the
free threads only their number matters here.
-/

namespace Yuanrong.Concurrency.Ordered

open PriorityQueue

structure InstanceElement where
  ins : Instance
  isNewInstance : Bool
  isPriorityAZ : Bool
  threads : Nat
deriving DecidableEq

inductive SchedulerKind
  | reserved
  | scaled (concurrency : Int)
deriving DecidableEq

namespace InstanceElement

variable (el : InstanceElement)

def getInstancePriorityBonus : Int :=
  (if el.isNewInstance ∧ el.threads > 0 then el.ins.concurrentNum else 0) +
    (if el.isPriorityAZ ∧ el.threads > 0 then el.ins.concurrentNum else 0)

def priorityFuncForReservedInstance : Int := el.threads + el.getInstancePriorityBonus

/-- `updating` says whether a rollout is under way. -/
def priorityFuncForScaledInstance (concurrency : Int) (updating : Bool) : Int :=
  if updating then
    let weight := concurrency - el.threads
    if el.isNewInstance then weight else -concurrency - weight
  else
    concurrency - el.threads + el.getInstancePriorityBonus

def priorityFunc (updating : Bool) : SchedulerKind → Int
  | .reserved => el.priorityFuncForReservedInstance
  | .scaled concurrency => el.priorityFuncForScaledInstance concurrency updating

def putThreadToThreadMap : InstanceElement :=
  if el.threads ≥ el.ins.concurrentNum then el else { el with threads := el.threads + 1 }

def getThreadFromThreadMap : InstanceElement := { el with threads := el.threads - 1 }

end InstanceElement

def newInstanceElement (ins : Instance) (isNewInstance isPriorityAZ : Bool) : InstanceElement :=
  { ins, isNewInstance, isPriorityAZ, threads := ins.concurrentNum.toNat }

/-- The healthy instances. The buffer of a reserved scheduler stays empty: it has none. -/
structure HealthyQueue where
  queue : DeHeap InstanceElement := []
  buffer : List InstanceElement := []

namespace HealthyQueue

variable (h : HealthyQueue)

def elements : List InstanceElement := h.queue.map Item.obj ++ h.buffer

def front : Option InstanceElement :=
  match h.queue.getMax with
  | some item => some item.obj
  | none => h.buffer.head?

def back : Option InstanceElement :=
  match h.queue.getMin with
  | some item => some item.obj
  | none => h.buffer.getLast?

def popFront : HealthyQueue :=
  if h.queue.length ≠ 0 then { h with queue := h.queue.popMax }
  else { h with buffer := h.buffer.tail }

def popBack : HealthyQueue :=
  if h.queue.length ≠ 0 then { h with queue := h.queue.popMin }
  else { h with buffer := h.buffer.dropLast }

def pushBack (kind : SchedulerKind) (updating : Bool) (el : InstanceElement) : HealthyQueue :=
  if kind ≠ .reserved ∧ el.threads = 0 then
    { h with buffer := h.buffer ++ [el] }
  else
    { h with
      queue := h.queue.push
        { objID := el.ins.instanceID, obj := el, priority := el.priorityFunc updating kind } }

def getByID (objID : String) : Option InstanceElement :=
  match h.queue.find? (fun item => item.objID = objID) with
  | some item => some item.obj
  | none => h.buffer.find? fun el => el.ins.instanceID = objID

def delByID (objID : String) : HealthyQueue :=
  match h.queue.indexOf objID with
  | some i => { h with queue := h.queue.remove i }
  | none => { h with buffer := h.buffer.eraseP fun el => el.ins.instanceID = objID }

end HealthyQueue

structure InstanceQueue where
  instanceQueue : HealthyQueue := {}
  subHealthRecord : FinMap String InstanceElement := ∅
  evictingRecord : FinMap String InstanceElement := ∅

namespace InstanceQueue

variable (q : InstanceQueue) (kind : SchedulerKind) (updating : Bool)

def instances : List InstanceElement :=
  q.instanceQueue.elements ++ q.subHealthRecord.entries.map Sigma.snd ++
    q.evictingRecord.entries.map Sigma.snd

def getByID (objID : String) : Option InstanceElement :=
  match q.subHealthRecord.lookup objID with
  | some el => some el
  | none =>
    match q.evictingRecord.lookup objID with
    | some el => some el
    | none => q.instanceQueue.getByID objID

def file (objID : String) (el : InstanceElement) : InstanceQueue × Option SchedulerError :=
  if el.ins.statusCode = kernelInstanceStatusRunning then
    ({ q with instanceQueue := q.instanceQueue.pushBack kind updating el }, none)
  else if el.ins.statusCode = kernelInstanceStatusSubHealth then
    ({ q with subHealthRecord := q.subHealthRecord.insert objID el }, none)
  else if el.ins.statusCode = kernelInstanceStatusEvicting then
    ({ q with evictingRecord := q.evictingRecord.insert objID el }, none)
  else
    (q, some .internal)

def pushBack (el : InstanceElement) : InstanceQueue × Option SchedulerError :=
  if (q.getByID el.ins.instanceID).isSome then (q, some .insAlreadyExist)
  else q.file kind updating el.ins.instanceID el

def remove (objID : String) : InstanceQueue where
  instanceQueue := q.instanceQueue.delByID objID
  subHealthRecord := q.subHealthRecord.erase objID
  evictingRecord := q.evictingRecord.erase objID

def delByID (objID : String) : InstanceQueue × Option SchedulerError :=
  if (q.getByID objID).isNone then (q, some .insNotExist) else (q.remove objID, none)

def updateObjByID (objID : String) (el : InstanceElement) : InstanceQueue × Option SchedulerError :=
  if (q.getByID objID).isNone then (q, some .insNotExist)
  else (q.remove objID).file kind updating objID el

def acquireDefaultInstance : InstanceQueue × Option SchedulerError :=
  match q.instanceQueue.front with
  | none => (q, some .noInsAvailable)
  | some el =>
    if el.threads = 0 then (q, some .noInsAvailable)
    else q.updateObjByID kind updating el.ins.instanceID el.getThreadFromThreadMap

def releaseInstance (objID : String) : InstanceQueue × Option SchedulerError :=
  match q.getByID objID with
  | none => (q, some .insNotExist)
  | some el => q.updateObjByID kind updating objID el.putThreadToThreadMap

def handleInstanceUpdate (ins : Instance) (isNewInstance isPriorityAZ : Bool) :
    InstanceQueue × Option SchedulerError :=
  match q.getByID ins.instanceID with
  | none => q.pushBack kind updating (newInstanceElement ins isNewInstance isPriorityAZ)
  | some el =>
    q.updateObjByID kind updating ins.instanceID { el with ins, isNewInstance, isPriorityAZ }

/-- A sub-healthy instance goes first; then the front, or the back if it is idle or `force`. -/
def popInstanceElement (force : Bool) (pick : Nat) : InstanceQueue :=
  match q.subHealthRecord.pick pick with
  | some objID => { q with subHealthRecord := q.subHealthRecord.erase objID }
  | none =>
    match kind with
    | .reserved => { q with instanceQueue := q.instanceQueue.popFront }
    | .scaled _ =>
      if force || q.instanceQueue.back.any fun el => (el.threads : Int) = el.ins.concurrentNum then
        { q with instanceQueue := q.instanceQueue.popBack }
      else
        q

end InstanceQueue

/-- `refile` stands for the operations of sessions and designations, which end by filing anew. -/
inductive Operation
  | addInstance (ins : Instance) (isNewInstance isPriorityAZ : Bool)
  | handleInstanceUpdate (ins : Instance) (isNewInstance isPriorityAZ : Bool)
  | acquire
  | release (objID : String)
  | refile (el : InstanceElement)
  | delInstance (objID : String)
  | popInstance (force : Bool) (pick : Nat)
deriving DecidableEq

structure Event where
  operation : Operation
  updating : Bool := false
deriving DecidableEq

def InstanceQueue.perform (q : InstanceQueue) (kind : SchedulerKind) (e : Event) :
    InstanceQueue × Option SchedulerError :=
  match e.operation with
  | .addInstance ins isNewInstance isPriorityAZ =>
    q.pushBack kind e.updating (newInstanceElement ins isNewInstance isPriorityAZ)
  | .handleInstanceUpdate ins isNewInstance isPriorityAZ =>
    q.handleInstanceUpdate kind e.updating ins isNewInstance isPriorityAZ
  | .acquire => q.acquireDefaultInstance kind e.updating
  | .release objID => q.releaseInstance kind e.updating objID
  | .refile el => q.updateObjByID kind e.updating el.ins.instanceID el
  | .delInstance objID => q.delByID objID
  | .popInstance force pick => (q.popInstanceElement kind force pick, none)

def system (kind : SchedulerKind) : StepSystem InstanceQueue Event (Option SchedulerError) where
  init q := q = {}
  step q e := some (q.perform kind e)

end Yuanrong.Concurrency.Ordered
