import Yuanrong.ConcurrencyScheduler.OrderedQueue

/-!
# The two queues of a scheduler and the moves between them

A scheduler files an instance in the queue for its own or for other instances by the ownership of
the function, except for permanent instances, which stay with the scheduler that created them. When
the ownership changes, the instances on the wrong side are moved; those being evicted are put on
both sides.
-/

namespace Yuanrong.Concurrency.Ordered

/-- What does not change during a run: the schedulers, and who created which instance. -/
structure Membership where
  schedulerProxyName : String
  contains : String → Bool
  permanent : String → Bool
  createSchedulerID : String → String

def Membership.checkSelfInstance (m : Membership) (isFuncOwner : Bool) (instanceID : String) : Bool :=
  if m.permanent instanceID then
    if m.createSchedulerID instanceID = m.schedulerProxyName then
      true
    else
      !m.contains (m.createSchedulerID instanceID) && isFuncOwner
  else
    isFuncOwner

structure Queues where
  selfInstanceQueue : InstanceQueue := {}
  otherInstanceQueue : InstanceQueue := {}
  isFuncOwner : Bool

def InstanceQueue.delByIDObserved (q : InstanceQueue) (objID : String) :
    InstanceQueue × Option SchedulerError :=
  if (q.evictingRecord.lookup objID).isSome then
    ({ q with evictingRecord := q.evictingRecord.erase objID }, none)
  else
    q.delByID objID

namespace Queues

variable (m : Membership) (kind : SchedulerKind) (updating : Bool) (s : Queues)

def queue (isSelf : Bool) : InstanceQueue :=
  if isSelf then s.selfInstanceQueue else s.otherInstanceQueue

def setQueue (isSelf : Bool) (q : InstanceQueue) : Queues :=
  if isSelf then { s with selfInstanceQueue := q } else { s with otherInstanceQueue := q }

def delByID (isSelf : Bool) (q : InstanceQueue) (objID : String) :
    InstanceQueue × Option SchedulerError :=
  if isSelf then q.delByIDObserved objID else q.delByID objID

def addInstance (ins : Instance) (isNewInstance isPriorityAZ : Bool) : Queues × Option SchedulerError :=
  let isSelf := m.checkSelfInstance s.isFuncOwner ins.instanceID
  let (q, err) := (s.queue isSelf).pushBack kind updating
    (newInstanceElement ins isNewInstance isPriorityAZ)
  (s.setQueue isSelf q, err)

/-- The queue is chosen before the lock is taken, by the ownership as it was then. -/
def handleInstanceUpdate (ownerSeen : Bool) (ins : Instance) (isNewInstance isPriorityAZ : Bool) :
    Queues × Option SchedulerError :=
  let isSelf := m.checkSelfInstance ownerSeen ins.instanceID
  let (q, err) :=
    (s.queue isSelf).handleInstanceUpdate kind updating ins isNewInstance isPriorityAZ
  (s.setQueue isSelf q, err)

def delInstance (instanceID : String) : Queues × Option SchedulerError :=
  let isSelf := m.checkSelfInstance s.isFuncOwner instanceID
  let (q, err) := delByID isSelf (s.queue isSelf) instanceID
  (s.setQueue isSelf q, err)

def popInstance (force : Bool) (pick : Nat) : Queues :=
  { s with selfInstanceQueue := s.selfInstanceQueue.popInstanceElement kind force pick }

def reassigned (isFuncOwner toSelf : Bool) (el : InstanceElement) : Bool :=
  decide (el.ins.statusCode ≠ kernelInstanceStatusEvicting) &&
    m.checkSelfInstance isFuncOwner el.ins.instanceID == toSelf

def pushReassigned (isFuncOwner toSelf : Bool) (els : List InstanceElement) (dst : InstanceQueue) :
    InstanceQueue :=
  els.foldl (fun dst el =>
    if el.ins.statusCode = kernelInstanceStatusEvicting ∨ reassigned m isFuncOwner toSelf el = true then
      (dst.pushBack kind updating el).1
    else
      dst) dst

def delAll (isSelf : Bool) (ids : List String) (src : InstanceQueue) : InstanceQueue :=
  ids.foldl (fun src objID => (delByID isSelf src objID).1) src

/-- On becoming the owner instances move to the own queue, on resigning to the other one. -/
def handleFuncOwnerUpdate (isFuncOwner : Bool) : Queues :=
  if s.isFuncOwner = isFuncOwner then
    s
  else
    let toSelf := isFuncOwner
    let els := (s.queue (!toSelf)).instances
    let dst := pushReassigned m kind updating isFuncOwner toSelf els (s.queue toSelf)
    let reassignList := (els.filter (reassigned m isFuncOwner toSelf)).map fun el => el.ins.instanceID
    let src := delAll (!toSelf) reassignList (s.queue (!toSelf))
    ({ s with isFuncOwner }.setQueue toSelf dst).setQueue (!toSelf) src

/-- In which queue a request for a designated instance looks for it. -/
def routeDesignateInstance (designateInstanceID : String) (useSelfInstance : Bool) : Bool :=
  if designateInstanceID = "" then useSelfInstance
  else if (s.selfInstanceQueue.getByID designateInstanceID).isSome then true
  else if (s.otherInstanceQueue.getByID designateInstanceID).isSome then false
  else useSelfInstance

end Queues

inductive PlacementOperation
  | addInstance (ins : Instance) (isNewInstance isPriorityAZ : Bool)
  | handleInstanceUpdate (ownerSeen : Bool) (ins : Instance) (isNewInstance isPriorityAZ : Bool)
  | delInstance (instanceID : String)
  | popInstance (force : Bool) (pick : Nat)
  | handleFuncOwnerUpdate (isFuncOwner : Bool)
deriving DecidableEq

structure PlacementEvent where
  operation : PlacementOperation
  updating : Bool := false
deriving DecidableEq

def Queues.perform (m : Membership) (kind : SchedulerKind) (s : Queues) (e : PlacementEvent) :
    Queues × Option SchedulerError :=
  match e.operation with
  | .addInstance ins isNewInstance isPriorityAZ =>
    s.addInstance m kind e.updating ins isNewInstance isPriorityAZ
  | .handleInstanceUpdate ownerSeen ins isNewInstance isPriorityAZ =>
    s.handleInstanceUpdate m kind e.updating ownerSeen ins isNewInstance isPriorityAZ
  | .delInstance instanceID => s.delInstance m instanceID
  | .popInstance force pick => (s.popInstance kind force pick, none)
  | .handleFuncOwnerUpdate isFuncOwner =>
    (s.handleFuncOwnerUpdate m kind e.updating isFuncOwner, none)

def placement (m : Membership) (kind : SchedulerKind) :
    StepSystem Queues PlacementEvent (Option SchedulerError) where
  init s := ∃ isFuncOwner, s = { isFuncOwner := isFuncOwner }
  step s e := some (s.perform m kind e)

end Yuanrong.Concurrency.Ordered
