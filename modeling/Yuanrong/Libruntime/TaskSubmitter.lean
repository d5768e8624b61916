import Yuanrong.Lib.StepSystem
import Yuanrong.Libruntime.ReturnObjects

/-!
# The requests of the task submitter

A stateless request is in the request manager's map from `PushInvokeSpec` on, and is ended by the
notification of its call, a failed creation of an instance, a removed resource group, the callback
of a downgraded call, the timer of a request that is not scheduled, or a cancel. Such a handler
makes calls of the request manager and of the memory store, each under a mutex of its own, so
handlers interleave.
-/

namespace Yuanrong.Libruntime

namespace MemoryStore

variable (m : MemoryStore)

def putInMemory (id : String) : MemoryStore :=
  match m.storeMap.lookup id with
  | none => m
  | some d =>
    if d.storeInMemory || d.storeInDataSystem then m
    else { m with storeMap := m.storeMap.insert id { d with storeInMemory := true, err := {} } }

def addReturnObject (id : String) : MemoryStore × Bool :=
  match m.storeMap.lookup id with
  | some _ => (m, false)
  | none =>
    ({ m with
        storeMap := m.storeMap.insert id { ready := false }
        waitingObjectManager := m.waitingObjectManager.setUnready id }, true)

/-- The list form, which stops at an id that is there already. -/
def addReturnObjects : MemoryStore → List String → MemoryStore
  | m, [] => m
  | m, id :: rest =>
    if (m.addReturnObject id).2 then addReturnObjects (m.addReturnObject id).1 rest
    else (m.addReturnObject id).1

end MemoryStore

structure InvokeSpec where
  requestId : String
  returnIds : List String
  invokeInstanceId : String := ""
  seq : Nat := 0
deriving DecidableEq

/-- A call of a handler; `releaseRefs` is `UnbindObjRefInReq` with its `DecreGlobalReference`. -/
inductive HandlerCall
  | removeRequest
  | put (id : String)
  | setReady (id : String)
  | setError (id : String) (err : ErrorInfo)
  | setReadyAll
  | setErrorAll (err : ErrorInfo)
  | releaseRefs
deriving DecidableEq

/-- A handler at work, with the calls it has still to make. -/
structure Handler where
  spec : InvokeSpec
  todo : List HandlerCall
deriving DecidableEq

namespace InvokeSpec

variable (spec : InvokeSpec)

def handleSuccessInvokeNotify (smallObjects : List String) : Handler :=
  ⟨spec, .removeRequest :: (smallObjects.map .put ++ [.setReadyAll, .releaseRefs])⟩

def handleFailInvokeNotify (err : ErrorInfo) : Handler :=
  ⟨spec, [.releaseRefs, .setErrorAll err, .removeRequest]⟩

def propagateFailForRemovedResourceGroup (err : ErrorInfo) : Handler :=
  ⟨spec, [.releaseRefs, .setErrorAll err, .removeRequest]⟩

def cancelFaasScheduleTimeoutReq (err : ErrorInfo) : Handler :=
  ⟨spec, [.removeRequest, .releaseRefs, .setErrorAll err]⟩

/-- The first of the return objects gets the value, and only it is set ready. -/
def downgradeCallback : Option ErrorInfo → Handler
  | some err => ⟨spec, [.setErrorAll err, .releaseRefs, .removeRequest]⟩
  | none =>
    ⟨spec, [.put (spec.returnIds.headD ""), .setReady (spec.returnIds.headD ""), .releaseRefs,
      .removeRequest]⟩

/-- One turn of `ScheduleIns` after `PopRequest`, or of its short circuit. -/
def drained (err : ErrorInfo) : Handler :=
  ⟨spec, [.setError (spec.returnIds.headD "") err]⟩

def cancelStatelessRequest (objId : String) : Handler :=
  ⟨spec, [.removeRequest, .setError objId ⟨3003, "invalid get obj, the obj has been cancelled."⟩]⟩

/-- `CancelStatelessRequest` gives up on a call that was sent if its instance may run others. -/
def cancelIgnored (isForce concurrent : Bool) : Bool :=
  spec.invokeInstanceId != "" && isForce && concurrent

end InvokeSpec

/-- What was submitted under a request id, and the references that were bound to it. -/
structure SubmittedRequest where
  requestId : String
  returnIds : List String
  objIds : List String
deriving DecidableEq

/-- `sent` may be notified, `downgrading` are under way; the last two fields are records. -/
structure TaskSubmitter where
  requestMap : FinMap String InvokeSpec := ∅
  queue : List String := []
  sent : List (String × Nat) := []
  downgrading : List String := []
  memoryStore : MemoryStore := {}
  reqObjStore : FinMap String (List String) := ∅
  handlers : List Handler := []
  runFlag : Bool := true
  submitted : List SubmittedRequest := []
  decreased : List (String × List String) := []

namespace TaskSubmitter

/-- A result, or an error answered by a retry, by giving up, or for a lost resource group. -/
inductive Notification
  | success (smallObjects : List String)
  | retry
  | fail (err : ErrorInfo)
  | groupRemoved (err : ErrorInfo)
deriving DecidableEq

inductive Event
  | pushInvokeSpec (requestId : String) (returnIds objIds : List String)
  | submitFunction (requestId : String)
  | scheduleRequest (requestId instanceId : String)
  | downgrade (requestId : String)
  | downgradeCallback (requestId : String) (err : Option ErrorInfo)
  | handleInvokeNotify (requestId : String) (seq : Nat) (notification : Notification)
  | drain (requestId : String) (err : ErrorInfo)
  | scheduleTimeout (requestId : String) (err : ErrorInfo)
  | cancelStatelessRequest (requestId objId : String) (isForce concurrent : Bool)
  | call (i : Nat)
  | release (id : String)
  | finalize
deriving DecidableEq

variable (dsGet : String → ErrorInfo) (s : TaskSubmitter)

def withStore (m : MemoryStore) : TaskSubmitter := { s with memoryStore := m }

def makeCall (spec : InvokeSpec) : HandlerCall → TaskSubmitter
  | .removeRequest => { s with requestMap := s.requestMap.erase spec.requestId }
  | .put id => s.withStore (s.memoryStore.putInMemory id)
  | .setReady id => s.withStore (s.memoryStore.setReady dsGet id).1
  | .setError id err => s.withStore (s.memoryStore.setError dsGet id err).1
  | .setReadyAll => s.withStore (s.memoryStore.setReadyAll dsGet spec.returnIds).1
  | .setErrorAll err => s.withStore (s.memoryStore.setErrorAll dsGet spec.returnIds err).1
  | .releaseRefs =>
    { s with
      reqObjStore := s.reqObjStore.erase spec.requestId
      decreased :=
        s.decreased ++ [(spec.requestId, (s.reqObjStore.lookup spec.requestId).getD [])] }

def addHandler (h : Handler) : TaskSubmitter := { s with handlers := s.handlers ++ [h] }

def retry (spec : InvokeSpec) : TaskSubmitter :=
  { s with
    requestMap := s.requestMap.insert spec.requestId { spec with seq := (spec.seq + 1) % 256 }
    queue := s.queue ++ [spec.requestId] }

def notified (spec : InvokeSpec) : Notification → TaskSubmitter
  | .success smallObjects => s.addHandler (spec.handleSuccessInvokeNotify smallObjects)
  | .retry => s.retry spec
  | .fail err => s.addHandler (spec.handleFailInvokeNotify err)
  | .groupRemoved err => s.addHandler (spec.propagateFailForRemovedResourceGroup err)

def send (spec : InvokeSpec) (instanceId : String) : TaskSubmitter :=
  { s with
    requestMap := s.requestMap.insert spec.requestId { spec with invokeInstanceId := instanceId }
    queue := s.queue.erase spec.requestId
    sent := s.sent ++ [(spec.requestId, spec.seq)] }

def dequeue (requestId : String) : TaskSubmitter := { s with queue := s.queue.erase requestId }

def next : Event → Option TaskSubmitter
  | .pushInvokeSpec requestId returnIds objIds =>
    -- request ids are generated, and the ids of the return objects are made from them
    if returnIds = [] ∨ s.submitted.any (fun p =>
        p.requestId == requestId || p.returnIds.any returnIds.contains) then none
    else some
      { s with
        requestMap := s.requestMap.insert requestId { requestId, returnIds }
        memoryStore := s.memoryStore.addReturnObjects returnIds
        reqObjStore := s.reqObjStore.insert requestId objIds
        submitted := s.submitted ++ [{ requestId, returnIds, objIds }] }
  | .submitFunction requestId =>
    if s.submitted.any (·.requestId == requestId) then
      some { s with queue := s.queue ++ [requestId] }
    else none
  | .scheduleRequest requestId instanceId =>
    if requestId ∈ s.queue ∧ instanceId ≠ "" ∧ s.runFlag then
      match s.requestMap.lookup requestId with
      | none => some (s.dequeue requestId)
      | some spec => some (s.send spec instanceId)
    else none
  | .downgrade requestId =>
    if requestId ∈ s.queue then
      match s.requestMap.lookup requestId with
      | none => some (s.dequeue requestId)
      | some _ =>
        some { s.dequeue requestId with downgrading := s.downgrading ++ [requestId] }
    else none
  | .downgradeCallback requestId err =>
    if requestId ∈ s.downgrading then
      match s.requestMap.lookup requestId with
      | none => some { s with downgrading := s.downgrading.erase requestId }
      | some spec =>
        some { s.addHandler (spec.downgradeCallback err) with
          downgrading := s.downgrading.erase requestId }
    else none
  | .handleInvokeNotify requestId seq notification =>
    if (requestId, seq) ∈ s.sent ∧ s.runFlag then
      match s.requestMap.lookup requestId with
      | none => some s
      | some spec => if seq = spec.seq then some (s.notified spec notification) else some s
    else none
  | .drain requestId err =>
    if requestId ∈ s.queue then
      match s.requestMap.lookup requestId with
      | none => some (s.dequeue requestId)
      | some spec =>
        some { (s.dequeue requestId).addHandler (spec.drained err) with
          requestMap := s.requestMap.erase requestId }
    else none
  | .scheduleTimeout requestId err =>
    match s.requestMap.lookup requestId with
    | none => some s
    | some spec =>
      if spec.invokeInstanceId = "" then
        some (s.addHandler (spec.cancelFaasScheduleTimeoutReq err))
      else some s
  | .cancelStatelessRequest requestId objId isForce concurrent =>
    match s.requestMap.lookup requestId with
    | none => some s
    | some spec =>
      if spec.cancelIgnored isForce concurrent then some s
      else some (s.addHandler (spec.cancelStatelessRequest objId))
  | .call i =>
    match s.handlers[i]? with
    | none => none
    | some ⟨_, []⟩ => some { s with handlers := s.handlers.eraseIdx i }
    | some ⟨spec, c :: rest⟩ =>
      some { s.makeCall dsGet spec c with handlers := s.handlers.set i ⟨spec, rest⟩ }
  | .release id =>
    some (s.withStore { s.memoryStore with storeMap := s.memoryStore.storeMap.erase id })
  | .finalize => some { s with runFlag := false, queue := [] }

end TaskSubmitter

/-- Any interleaving of the submitter's threads; `dsGet` is what the data system gives. -/
def taskSubmitter (dsGet : String → ErrorInfo) : StepSystem TaskSubmitter TaskSubmitter.Event Unit where
  init s := s = {}
  step s e := (s.next dsGet e).map (·, ())

end Yuanrong.Libruntime
