import Mathlib.Data.List.Sort
import Yuanrong.Lib.FinMap
import Yuanrong.Lib.StepSystem

/-!
# Numbers of ordered calls

The invoker's side of the ordered execution. `InvokeOrderManager` has an entry per instance: the
next number to give out, the least one that is not finished, and the finished ones above it. A call
gets its number before its dependencies are resolved, and reports it back once the notification has
been dealt with. An event is one section under the mutex, or one step of a call between two of them.
-/

namespace Yuanrong.Libruntime

/-- `serial` tells the entries apart that an instance has had one after the other. -/
structure InstanceOrdering where
  orderingCounter : Nat := 0
  unfinishedSeqNo : Nat := 0
  finishedOrderedReqSeqNo : List Nat := []
  serial : Nat
deriving DecidableEq

def takeFinished : Nat → List Nat → Nat × List Nat
  | n, [] => (n, [])
  | n, k :: rest => if k = n then takeFinished (n + 1) rest else (n, k :: rest)

namespace InstanceOrdering

variable (o : InstanceOrdering)

def counts (seqNo : Nat) : Bool := seqNo < o.unfinishedSeqNo || o.finishedOrderedReqSeqNo.contains seqNo

def emplace (seqNo : Nat) : List Nat :=
  if o.finishedOrderedReqSeqNo.contains seqNo then o.finishedOrderedReqSeqNo
  else o.finishedOrderedReqSeqNo.orderedInsert (· ≤ ·) seqNo

def finish (seqNo : Nat) : InstanceOrdering :=
  if seqNo < o.unfinishedSeqNo then o
  else
    { o with
      unfinishedSeqNo := (takeFinished o.unfinishedSeqNo (o.emplace seqNo)).1
      finishedOrderedReqSeqNo := (takeFinished o.unfinishedSeqNo (o.emplace seqNo)).2 }

end InstanceOrdering

structure InvokeOrderManager where
  instances : FinMap String InstanceOrdering := ∅
  made : Nat := 0

/-- Creations and removals of instances, of groups, and by signals. -/
inductive OrderUpdate
  | createInstance (instanceId : String)
  | createGroupInstance (instanceId : String)
  | notifyGroupInstance (instanceId : String)
  | registerInstance (instanceId : String)
  | registerInstanceAndUpdateOrder (instanceId : String) (restored : Bool)
  | updateFinishReqSeqNo (instanceId : String) (invokeSeqNo : Nat)
  | removeInstance (instanceId : String)
  | clear
deriving DecidableEq

namespace InvokeOrderManager

variable (m : InvokeOrderManager)

def insertNew (instanceId : String) (orderingCounter unfinishedSeqNo : Nat) : InvokeOrderManager :=
  if instanceId = "" ∨ (m.instances.lookup instanceId).isSome then m
  else
    { instances := m.instances.insert instanceId
        { orderingCounter, unfinishedSeqNo, serial := m.made }
      made := m.made + 1 }

def modify (instanceId : String) (f : InstanceOrdering → InstanceOrdering) : InvokeOrderManager :=
  match m.instances.lookup instanceId with
  | some o => { m with instances := m.instances.insert instanceId (f o) }
  | none => m

/-- `CreateInstance`: the creation itself has the first number. -/
def createInstance (instanceId : String) : InvokeOrderManager := m.insertNew instanceId 1 0

def createGroupInstance (instanceId : String) : InvokeOrderManager := m.insertNew instanceId 1 0

def registerInstance (instanceId : String) : InvokeOrderManager := m.insertNew instanceId 0 0

def registerInstanceAndUpdateOrder (instanceId : String) (restored : Bool) : InvokeOrderManager :=
  if restored then m.insertNew instanceId 0 0 else m.insertNew instanceId 1 1

def notifyGroupInstance (instanceId : String) : InvokeOrderManager :=
  m.modify instanceId fun o => { o with unfinishedSeqNo := o.unfinishedSeqNo + 1 }

def updateFinishReqSeqNo (instanceId : String) (invokeSeqNo : Nat) : InvokeOrderManager :=
  m.modify instanceId fun o => o.finish invokeSeqNo

def removeInstance (instanceId : String) : InvokeOrderManager :=
  { m with instances := m.instances.erase instanceId }

def update : OrderUpdate → InvokeOrderManager
  | .createInstance instanceId => m.createInstance instanceId
  | .createGroupInstance instanceId => m.createGroupInstance instanceId
  | .notifyGroupInstance instanceId => m.notifyGroupInstance instanceId
  | .registerInstance instanceId => m.registerInstance instanceId
  | .registerInstanceAndUpdateOrder instanceId restored =>
    m.registerInstanceAndUpdateOrder instanceId restored
  | .updateFinishReqSeqNo instanceId invokeSeqNo => m.updateFinishReqSeqNo instanceId invokeSeqNo
  | .removeInstance instanceId => m.removeInstance instanceId
  | .clear => { m with instances := ∅ }

/-- The entry `Invoke` takes the number from; a named instance that is asked for gets a new one. -/
def entryFor (instanceId : String) (isGetInstance : Bool) : InvokeOrderManager :=
  if isGetInstance then m.insertNew instanceId 0 0 else m

def nextNumber (instanceId : String) (isGetInstance : Bool) : Option (Nat × Nat) :=
  if instanceId = "" then none
  else ((m.entryFor instanceId isGetInstance).instances.lookup instanceId).map fun o =>
    (o.orderingCounter, o.serial)

def invoke (instanceId : String) (isGetInstance : Bool) : InvokeOrderManager :=
  if instanceId = "" then m
  else (m.entryFor instanceId isGetInstance).modify instanceId fun o =>
    { o with orderingCounter := o.orderingCounter + 1 }

end InvokeOrderManager

/-- Before its dependencies, before `PutRefArgToDs`, with the instance, in its notify handler before
or after the return objects, or at its end. -/
inductive CallPhase
  | resolving
  | puttingArgs
  | sent
  | readying
  | failing
  | ended
deriving DecidableEq

/-- `inManager`: `RequestManager` has it; `sent`: it went out; `completed`: an object was set. -/
structure OrderedCall where
  instanceId : String
  invokeSeqNo : Nat := 0
  entry : Option Nat := none
  invokeUnfinishedSeqNo : Nat := 0
  phase : CallPhase := .resolving
  inManager : Bool := true
  sent : Bool := false
  completed : Bool := false
deriving DecidableEq

structure OrderedCalls where
  order : InvokeOrderManager := {}
  calls : FinMap String OrderedCall := ∅

inductive NotifyResult
  | success
  | failure
  | retry
deriving DecidableEq

namespace OrderedCalls

inductive Event
  | invokeByInstanceId (requestId instanceId : String) (isGetInstance : Bool)
  | resolved (requestId : String) (ok : Bool)
  | putRefArgToDs (requestId : String) (ok : Bool)
  | notify (requestId : String) (result : NotifyResult)
  | setReady (requestId : String)
  | notifyInvokeSuccess (requestId : String)
  | cancel (requestId : String)
  | update (u : OrderUpdate)
deriving DecidableEq

variable (s : OrderedCalls)

def advance (requestId : String) (phase : CallPhase) (f : OrderedCall → OrderedCalls) :
    Option OrderedCalls :=
  match s.calls.lookup requestId with
  | some c => if c.phase = phase then some (f c) else none
  | none => none

def set (requestId : String) (c : OrderedCall) : OrderedCalls :=
  { s with calls := s.calls.insert requestId c }

def invokeByInstanceId (requestId instanceId : String) (isGetInstance : Bool) : Option OrderedCalls :=
  if (s.calls.lookup requestId).isNone then
    some {
      order := s.order.invoke instanceId isGetInstance
      calls := s.calls.insert requestId
        (match s.order.nextNumber instanceId isGetInstance with
          | some (seqNo, serial) => { instanceId, invokeSeqNo := seqNo, entry := some serial }
          | none => { instanceId }) }
  else
    none

/-- The dependencies are resolved: `UpdateUnfinishedSeq`, or `ProcessErr`. -/
def resolved (requestId : String) (ok : Bool) : Option OrderedCalls :=
  s.advance requestId .resolving fun c =>
    if ok then
      s.set requestId { c with
        phase := .puttingArgs
        invokeUnfinishedSeqNo := match s.order.instances.lookup c.instanceId with
          | some o => o.unfinishedSeqNo
          | none => c.invokeUnfinishedSeqNo }
    else
      s.set requestId { c with phase := .ended, completed := true }

/-- `PutRefArgToDs` fails with `ProcessErr`, or the call is sent. -/
def putRefArgToDs (requestId : String) (ok : Bool) : Option OrderedCalls :=
  s.advance requestId .puttingArgs fun c =>
    if ok then s.set requestId { c with phase := .sent, sent := true }
    else s.set requestId { c with phase := .ended, completed := true }

/-- The order manager is told of a success before the return objects are set, and of a failure
after. -/
def notify (requestId : String) (result : NotifyResult) : Option OrderedCalls :=
  s.advance requestId .sent fun c =>
    if c.inManager then
      match result with
      | .success =>
        { order := s.order.updateFinishReqSeqNo c.instanceId c.invokeSeqNo
          calls := s.calls.insert requestId { c with phase := .readying } }
      | .failure => s.set requestId { c with phase := .failing, completed := true }
      | .retry => s
    else
      s

def setReady (requestId : String) : Option OrderedCalls :=
  s.advance requestId .readying fun c =>
    s.set requestId { c with phase := .ended, completed := true, inManager := false }

def notifyInvokeSuccess (requestId : String) : Option OrderedCalls :=
  s.advance requestId .failing fun c =>
    { order := s.order.updateFinishReqSeqNo c.instanceId c.invokeSeqNo
      calls := s.calls.insert requestId { c with phase := .ended, inManager := false } }

/-- `CancelInstanceFunction`: the request is removed and its object set in error, wherever the call
is. -/
def cancel (requestId : String) : Option OrderedCalls :=
  match s.calls.lookup requestId with
  | some c =>
    if c.inManager then some (s.set requestId { c with inManager := false, completed := true })
    else none
  | none => none

def next : Event → Option OrderedCalls
  | .invokeByInstanceId requestId instanceId isGetInstance =>
    s.invokeByInstanceId requestId instanceId isGetInstance
  | .resolved requestId ok => s.resolved requestId ok
  | .putRefArgToDs requestId ok => s.putRefArgToDs requestId ok
  | .notify requestId result => s.notify requestId result
  | .setReady requestId => s.setReady requestId
  | .notifyInvokeSuccess requestId => s.notifyInvokeSuccess requestId
  | .cancel requestId => s.cancel requestId
  | .update u => some { s with order := s.order.update u }

end OrderedCalls

def orderedCalls : StepSystem OrderedCalls OrderedCalls.Event Unit where
  init s := s = {}
  step s e := (s.next e).map (·, ())

end Yuanrong.Libruntime
