import Yuanrong.ConcurrencyScheduler.Session

/-!
# The basic concurrency scheduler

What the scheduler does while it holds its lock. Elements and records are shared by address, so they
are kept apart from the queues and the session map. The order of the queues, the choice of a thread
from a map and whether a lease can be created are inputs.
-/

namespace Yuanrong.Concurrency

/-- The parts of the function's specification that the scheduler reads, and the name of this
scheduler. -/
structure Config where
  enableSessionCtx : Bool
  enableAgentSession : Bool
  concurrentNum : Int
  schedulerName : String

structure InstanceAcquireRequest where
  instanceSession : InstanceSessionConfig := {}
  designateInstanceID : String := ""
  designateThreadID : String := ""
  trafficLimited : Bool := false
  sessionCtxID : String := ""
deriving DecidableEq

/-- `sessionCtx` is the record of the context. `agentOverAcq` is history: the thread was made up. -/
structure InstanceAllocation where
  ins : Instance
  allocationID : String
  sessionID : String := ""
  sessionCtx : Option Nat := none
  agentOverAcq : Bool := false
deriving DecidableEq

/-- What the surroundings decide: orders, threads, clocks, the store's record, the lease's
failure. -/
structure Choice where
  order : List String := []
  bindPicks : List Nat := []
  pick : Nat := 0
  unixNano : Nat := 0
  storeRecord : Option (String × Int) := none
  leaseFails : Bool := false
deriving DecidableEq

/-- The scheduler with everything its addresses lead to, and the goroutines that expire its
sessions. -/
structure BasicConcurrencyScheduler where
  selfInstanceQueue : InstanceQueue
  otherInstanceQueue : InstanceQueue
  sessionMap : FinMap String Nat
  isFuncOwner : Bool
  elems : FinMap Nat InstanceElement
  records : FinMap Nat SessionRecord
  unbinds : FinMap Nat Unbind
  nextRef : Nat

namespace BasicConcurrencyScheduler

variable (cfg : Config) (bcs : BasicConcurrencyScheduler)

def queue : QueueName → InstanceQueue
  | .self => bcs.selfInstanceQueue
  | .other => bcs.otherInstanceQueue

def setQueue (name : QueueName) (q : InstanceQueue) : BasicConcurrencyScheduler :=
  match name with
  | .self => { bcs with selfInstanceQueue := q }
  | .other => { bcs with otherInstanceQueue := q }

def setElem (ref : Nat) (el : InstanceElement) : BasicConcurrencyScheduler :=
  { bcs with elems := bcs.elems.insert ref el }

def setRecord (ref : Nat) (r : SessionRecord) : BasicConcurrencyScheduler :=
  { bcs with records := bcs.records.insert ref r }

def getByID (name : QueueName) (objID : String) : Option (Nat × InstanceElement) :=
  ((bcs.queue name).getByID objID).bind fun ref => (bcs.elems.lookup ref).map fun el => (ref, el)

def updateObjByID (name : QueueName) (objID : String) (ref : Nat) (el : InstanceElement) :
    BasicConcurrencyScheduler × Option SchedulerError :=
  let (q, err) := (bcs.queue name).updateObjByID objID ref el
  (bcs.setQueue name q, err)

def getSessionCacheKey (sessionID sessionCtxID : String) : String :=
  if cfg.enableSessionCtx then joinKey [sessionID, sessionCtxID] else sessionID

def getRecordCacheKey (r : SessionRecord) : String := getSessionCacheKey cfg r.sessionID r.sessionCtxID

def getSession (cacheKey : String) : Option (Nat × SessionRecord) :=
  (bcs.sessionMap.lookup cacheKey).bind fun ref => (bcs.records.lookup ref).map fun r => (ref, r)

def addSession (cacheKey : String) (ref : Nat) : BasicConcurrencyScheduler :=
  { bcs with sessionMap := bcs.sessionMap.insert cacheKey ref }

def delSession (cacheKey : String) : BasicConcurrencyScheduler :=
  { bcs with sessionMap := bcs.sessionMap.erase cacheKey }

def isAgentSession (req : InstanceAcquireRequest) : Bool :=
  cfg.enableAgentSession && req.instanceSession.sessionID ≠ ""

def acquireInstanceThread (designateThreadID : String) (insQue : QueueName) (ref : Nat) (pick : Nat) :
    BasicConcurrencyScheduler × Except SchedulerError InstanceAllocation :=
  match bcs.elems.lookup ref with
  | none => (bcs, .error .internal)
  | some el =>
    if el.threadMap.len = 0 ∧ designateThreadID = "" then
      (bcs, .error .noInsAvailable)
    else
      -- a designated thread may be issued beyond the instance's own
      let (threadID, taken) := el.getThreadFromThreadMap pick
      let taken :=
        if el.threadMap.len = 0 then { taken with overIssued := taken.overIssued + 1 } else taken
      match (bcs.setElem ref taken).updateObjByID insQue el.ins.instanceID ref taken with
      | (bcs, some err) => (bcs, .error err)
      | (bcs, none) =>
        (bcs, .ok
          { ins := el.ins
            allocationID := if designateThreadID ≠ "" then designateThreadID else threadID })

def takeThreads (el : InstanceElement) (taken : ThreadMap) : Nat → List Nat → InstanceElement × ThreadMap
  | 0, _ => (el, taken)
  | n + 1, picks =>
    let (threadID, el) := el.getThreadFromThreadMap (picks.headD 0)
    takeThreads el (taken.insert threadID ()) n picks.tail

def bindThdWithSession (insQue : QueueName) (ref : Nat) (session : InstanceSessionConfig)
    (picks : List Nat) : BasicConcurrencyScheduler × Except SchedulerError Nat :=
  match bcs.elems.lookup ref with
  | none => (bcs, .error .internal)
  | some el =>
    if session.concurrency = -1 ∧ el.threadMap.len ≠ el.ins.concurrentNum then
      (bcs, .error .noInsAvailable)
    else
      let concurrency :=
        if session.concurrency = -1 then el.ins.concurrentNum else session.concurrency
      if el.threadMap.len < concurrency then
        (bcs, .error .noInsAvailable)
      else
        let (bound, threads) := takeThreads el ∅ concurrency.toNat picks
        let record : SessionRecord :=
          { availThdMap := threads
            allocThdMap := threads
            overAcqThdMap := ∅
            expiring := false
            concurrency
            sessionID := session.sessionID
            sessionCtxID := if cfg.enableSessionCtx then el.ins.sessionCtxID.getD "" else ""
            expireCancelCh := false
            insElem := ref }
        match (bcs.setElem ref bound).updateObjByID insQue el.ins.instanceID ref bound with
        | (bcs, some err) => (bcs, .error err)
        | (bcs, none) =>
          ({ bcs.setRecord bcs.nextRef record with nextRef := bcs.nextRef + 1 }, .ok bcs.nextRef)

def acquireSessionThread (designateThreadID : String) (session : InstanceSessionConfig)
    (sessionCtxID : String) (pick : Nat) :
    BasicConcurrencyScheduler × Except SchedulerError InstanceAllocation :=
  match bcs.getSession (getSessionCacheKey cfg session.sessionID sessionCtxID) with
  | none => (bcs, .error .internal)
  | some (ref, r) =>
    -- the send does not block: a token that is there already stays
    let r := { r with expireCancelCh := r.expireCancelCh || r.expiring }
    let bcs := bcs.setRecord ref r
    if r.availThdMap.len = 0 then
      (bcs, .error .noInsThdAvail)
    else
      match r.getOrReplaceDesignateThreadFromAvailThdMap designateThreadID pick,
        bcs.elems.lookup r.insElem with
      | some (threadID, r), some el =>
        (bcs.setRecord ref r, .ok
          { ins := el.ins, allocationID := threadID, sessionID := session.sessionID,
            sessionCtx := some ref })
      | _, _ => (bcs, .error .internal)

def createOverAcqThread (ref : Nat) (r : SessionRecord) (el : InstanceElement) (sessionID : String)
    (unixNano : Nat) : BasicConcurrencyScheduler × InstanceAllocation :=
  let threadID := "overacq-" ++ r.sessionID ++ "-" ++ GoString.itoa unixNano
  (bcs.setRecord ref { r with overAcqThdMap := r.overAcqThdMap.insert threadID () },
    { ins := el.ins, allocationID := threadID, sessionID, sessionCtx := some ref,
      agentOverAcq := true })

def acquireInstanceWithOverAcqSession (insQue : QueueName) (ref : Nat)
    (req : InstanceAcquireRequest) (choice : Choice) :
    BasicConcurrencyScheduler × Except SchedulerError InstanceAllocation :=
  match bcs.records.lookup ref with
  | none => (bcs, .error .internal)
  | some r =>
    if isAgentSession cfg req then
      if r.overAcqThdMap.len ≥ 1 then
        (bcs, .error .overAcqLimitExceeded)
      else
        match bcs.elems.lookup r.insElem with
        | none => (bcs, .error .internal)
        | some el =>
          let (bcs, alloc) :=
            bcs.createOverAcqThread ref r el req.instanceSession.sessionID choice.unixNano
          (bcs, .ok alloc)
    else
      match bcs.acquireInstanceThread req.designateThreadID insQue r.insElem choice.pick with
      | (bcs, .error err) => (bcs, .error err)
      | (bcs, .ok alloc) =>
        (bcs.setRecord ref { r with overAcqThdMap := r.overAcqThdMap.insert alloc.allocationID () },
          .ok { alloc with
            sessionID := req.instanceSession.sessionID
            sessionCtx := some ref })

def acquireDefaultInstance (insQue : QueueName) (req : InstanceAcquireRequest) (choice : Choice) :
    BasicConcurrencyScheduler × Except SchedulerError InstanceAllocation :=
  match (bcs.queue insQue).front choice.order with
  | none => (bcs, .error .noInsAvailable)
  | some ref => bcs.acquireInstanceThread req.designateThreadID insQue ref choice.pick

def sameContext (req : InstanceAcquireRequest) (ins : Instance) : Bool :=
  !(cfg.enableSessionCtx && req.sessionCtxID ≠ "") || ins.sessionCtxID.getD "" = req.sessionCtxID

def eligible (req : InstanceAcquireRequest) (el : InstanceElement) : Bool :=
  el.ins.statusCode = kernelInstanceStatusRunning && sameContext cfg req el.ins &&
    if req.instanceSession.concurrency = -1 then el.threadMap.len = el.ins.concurrentNum
    else el.threadMap.len ≥ req.instanceSession.concurrency

/-- `isSessionExist`: a record whose instance is not in the queue is dropped. -/
def isSessionExist (insQue : QueueName) (req : InstanceAcquireRequest) :
    BasicConcurrencyScheduler × Bool :=
  let cacheKey := getSessionCacheKey cfg req.instanceSession.sessionID req.sessionCtxID
  match bcs.getSession cacheKey with
  | none => (bcs, false)
  | some (_, r) =>
    let found := (bcs.elems.lookup r.insElem).bind fun el => bcs.getByID insQue el.ins.instanceID
    if found.isNone then (bcs.delSession cacheKey, false) else (bcs, true)

/-- The end of both session paths: a thread of the session, or one beyond them from the same
instance. -/
def acquireThreadOrOverAcquire (insQue : QueueName) (req : InstanceAcquireRequest)
    (overAcq : Option Nat) (choice : Choice) :
    BasicConcurrencyScheduler × Except SchedulerError InstanceAllocation :=
  match bcs.acquireSessionThread cfg req.designateThreadID req.instanceSession req.sessionCtxID
      choice.pick with
  | (bcs, .error .noInsThdAvail) =>
    match overAcq with
    | none => (bcs, .error .noInsThdAvail)
    | some ref => bcs.acquireInstanceWithOverAcqSession cfg insQue ref req choice
  | result => result

def acquireSessionInstance (insQue : QueueName) (req : InstanceAcquireRequest) (choice : Choice) :
    BasicConcurrencyScheduler × Except SchedulerError InstanceAllocation :=
  let req :=
    if isAgentSession cfg req then
      { req with instanceSession := { req.instanceSession with concurrency := 1 } }
    else
      req
  let cacheKey := getSessionCacheKey cfg req.instanceSession.sessionID req.sessionCtxID
  if req.instanceSession.concurrency > cfg.concurrentNum then
    (bcs, .error .invalidSession)
  else
    match bcs.isSessionExist cfg insQue req with
    | (bcs, true) =>
      bcs.acquireThreadOrOverAcquire cfg insQue req
        ((bcs.getSession cacheKey).map Prod.fst) choice
    | (bcs, false) =>
      match ((bcs.queue insQue).sortedRange choice.order).findSome? fun objID =>
          (bcs.getByID insQue objID).filter fun entry => eligible cfg req entry.2 with
      | none => (bcs, .error .noInsAvailable)
      | some (ref, _) =>
        match bcs.bindThdWithSession cfg insQue ref req.instanceSession choice.bindPicks with
        | (bcs, .error err) => (bcs, .error err)
        | (bcs, .ok record) =>
          let bcs :=
            match bcs.records.lookup record with
            | none => bcs
            | some r => bcs.addSession (getRecordCacheKey cfg r) record
          bcs.acquireThreadOrOverAcquire cfg insQue req
            ((bcs.getSession cacheKey).map Prod.fst) choice

/-- The request as `acquireDesignateInstance` leaves it: a session bound elsewhere is taken out. -/
def acquireDesignateInstance (insQue : QueueName) (req : InstanceAcquireRequest) (choice : Choice) :
    BasicConcurrencyScheduler × InstanceAcquireRequest × Except SchedulerError InstanceAllocation :=
  let cacheKey := getSessionCacheKey cfg req.instanceSession.sessionID req.sessionCtxID
  match bcs.getByID insQue req.designateInstanceID with
  | none => (bcs, req, .error .insNotExist)
  | some (ref, el) =>
    if el.ins.statusCode = kernelInstanceStatusSubHealth then
      (bcs, req, .error .insSubHealthy)
    else if req.instanceSession.sessionID ≠ "" then
      if sameContext cfg req el.ins = false then
        (bcs.delSession cacheKey, req, .error .insNotExist)
      else
        match bcs.getSession cacheKey with
        | some (record, r) =>
          let boundID := (bcs.elems.lookup r.insElem).map fun el => el.ins.instanceID
          let req :=
            if boundID ≠ some req.designateInstanceID then
              { req with instanceSession := { req.instanceSession with sessionID := "" } }
            else
              req
          let (bcs, result) := bcs.acquireThreadOrOverAcquire cfg insQue req (some record) choice
          (bcs, req, result)
        | none =>
          match bcs.bindThdWithSession cfg insQue ref req.instanceSession choice.bindPicks with
          | (bcs, .error _) => (bcs, req, .error .internal)
          | (bcs, .ok record) =>
            let bcs :=
              match bcs.records.lookup record with
              | none => bcs
              | some r => bcs.addSession (getRecordCacheKey cfg r) record
            let (bcs, result) :=
              bcs.acquireThreadOrOverAcquire cfg insQue req (some record) choice
            (bcs, req, result)
    else if el.ins.statusCode ≠ kernelInstanceStatusRunning then
      (bcs, req, .error .designateInsNotAvailable)
    else
      let (bcs, result) := bcs.acquireInstanceThread req.designateThreadID insQue ref choice.pick
      (bcs, req, result)

def startUnbindInstanceSession (insQue : QueueName) (ref : Nat) (r : SessionRecord) :
    BasicConcurrencyScheduler :=
  let r := { r with released := true }
  if r.idle && !r.expiring then
    { bcs.setRecord ref { r with expiring := true } with
      unbinds := bcs.unbinds.insert bcs.nextRef { insQue, record := ref }
      nextRef := bcs.nextRef + 1 }
  else
    bcs.setRecord ref r

def releaseInstanceThreadWithSession (insQue : QueueName) (alloc : InstanceAllocation) :
    BasicConcurrencyScheduler × Option SchedulerError :=
  let sessionCtxID := if cfg.enableSessionCtx then alloc.ins.sessionCtxID.getD "" else ""
  match bcs.getSession (getSessionCacheKey cfg alloc.sessionID sessionCtxID) with
  | none => (bcs, some .internal)
  | some (ref, r) =>
    if (r.overAcqThdMap.lookup alloc.allocationID).isSome then
      -- a thread beyond the session's own goes back to the instance, except for agent sessions
      let r := { r with overAcqThdMap := r.overAcqThdMap.erase alloc.allocationID }
      (bcs.startUnbindInstanceSession insQue ref r,
        if cfg.enableAgentSession then none else some .insThdNotExist)
    else
      match r.markThreadAsAvailable alloc.allocationID with
      | none => (bcs, some .insThdNotExist)
      | some r => (bcs.startUnbindInstanceSession insQue ref r, none)

def releaseInstanceInternal (insQue : QueueName) (alloc : InstanceAllocation) :
    BasicConcurrencyScheduler × Option SchedulerError :=
  match bcs.getByID insQue alloc.ins.instanceID with
  | none => (bcs, some .insNotExist)
  | some (ref, el) =>
    let (bcs, inSession) :=
      if alloc.sessionID ≠ "" then bcs.releaseInstanceThreadWithSession cfg insQue alloc
      else (bcs, some .insThdNotExist)
    match inSession with
    | none => bcs.updateObjByID insQue alloc.ins.instanceID ref el
    | some .insThdNotExist =>
      let el := el.putThreadToThreadMap alloc.allocationID
      (bcs.setElem ref el).updateObjByID insQue alloc.ins.instanceID ref el
    | some err => (bcs, some err)

/-- `acquireInstanceInternal`. When the lease cannot be created the thread is given back. -/
def acquireInstanceInternal (insQue : QueueName) (req : InstanceAcquireRequest) (choice : Choice) :
    BasicConcurrencyScheduler × Except SchedulerError InstanceAllocation :=
  let (bcs, result) :=
    if req.designateInstanceID ≠ "" then
      match bcs.acquireDesignateInstance cfg insQue req choice with
      | (bcs, req, .error .insNotExist) =>
        if req.instanceSession.sessionID ≠ "" then
          bcs.acquireSessionInstance cfg insQue { req with designateInstanceID := "" } choice
        else
          (bcs, .error .insNotExist)
      | (bcs, _, result) => (bcs, result)
    else if req.instanceSession.sessionID ≠ "" then
      bcs.acquireSessionInstance cfg insQue req choice
    else
      bcs.acquireDefaultInstance insQue req choice
  match result with
  | .error err => (bcs, .error err)
  | .ok alloc =>
    if choice.leaseFails then
      ((bcs.releaseInstanceInternal cfg insQue alloc).1, .error .leaseNotCreated)
    else
      (bcs, .ok alloc)

/-- The first lookup: the request, with its session's instance, and whether it was bound. -/
def peekLocalSession (cacheKey : String) (req : InstanceAcquireRequest) :
    Option InstanceAcquireRequest :=
  (bcs.getSession cacheKey).bind fun entry =>
    (bcs.elems.lookup entry.2.insElem).map fun el =>
      { req with designateInstanceID := el.ins.instanceID }

def noNeedQuerySession (req : InstanceAcquireRequest) : Bool :=
  req.designateInstanceID ≠ "" || req.instanceSession.sessionID = ""

/-- Looks again, as the session may have been bound meanwhile, and then goes by the store. -/
def applyStoreDesignate (req : InstanceAcquireRequest) (storeRecord : Option (String × Int)) :
    InstanceAcquireRequest :=
  let cacheKey := getSessionCacheKey cfg req.instanceSession.sessionID req.sessionCtxID
  match bcs.peekLocalSession cacheKey req with
  | some req => req
  | none =>
    match storeRecord with
    | none => req
    | some (instanceID, concurrency) =>
      { req with
        designateInstanceID := instanceID
        instanceSession := { req.instanceSession with concurrency } }

def routeDesignateInstance (req : InstanceAcquireRequest) (useSelfInstance : Bool) : Bool :=
  if req.designateInstanceID = "" then useSelfInstance
  else if (bcs.getByID .self req.designateInstanceID).isSome then true
  else if (bcs.getByID .other req.designateInstanceID).isSome then false
  else useSelfInstance

/-- The last section of the acquire; `resolved` says that no further lookup is needed. -/
def acquireResolved (req : InstanceAcquireRequest) (resolved : Bool) (choice : Choice) :
    BasicConcurrencyScheduler × Except SchedulerError InstanceAllocation :=
  let req := if resolved then req else bcs.applyStoreDesignate cfg req choice.storeRecord
  let useSelfInstance := bcs.routeDesignateInstance req (bcs.isFuncOwner || req.trafficLimited)
  bcs.acquireInstanceInternal cfg (if useSelfInstance then .self else .other) req choice

def returnThreads (el : InstanceElement) (threads : ThreadMap) (order : List String) :
    InstanceElement :=
  ((order.dedup.filter fun threadID => (threads.lookup threadID).isSome) ++
    threads.keys.filter fun threadID => threadID ∉ order).foldl
    InstanceElement.putThreadToThreadMap el

def unbindExpired (ref : Nat) (u : Unbind) (order : List String) : BasicConcurrencyScheduler :=
  match bcs.records.lookup u.record with
  | none => bcs
  | some r =>
    if r.idle = false then
      if r.expireCancelCh then
        { bcs.setRecord u.record { r with expireCancelCh := false, expiring := false } with
          unbinds := bcs.unbinds.erase ref }
      else
        { bcs with unbinds := bcs.unbinds.insert ref { u with pc := .blocked } }
    else
      match bcs.elems.lookup r.insElem with
      | none => bcs
      | some el =>
        let el :=
          if (bcs.getByID u.insQue el.ins.instanceID).isSome then
            returnThreads el r.allocThdMap order
          else
            el
        -- nothing leads to the record any more
        let bcs :=
          { (bcs.setElem r.insElem el).delSession (getRecordCacheKey cfg r) with
            records := bcs.records.erase u.record
            unbinds := bcs.unbinds.erase ref }
        (bcs.updateObjByID u.insQue el.ins.instanceID r.insElem el).1

/-- `checkSelfInstance`; `ring` are the schedulers that are known. -/
def checkSelfInstance (ring : List String) (ins : Instance) : Bool :=
  if ins.permanent then
    ins.createSchedulerID = cfg.schedulerName ||
      (!ring.contains ins.createSchedulerID && bcs.isFuncOwner)
  else
    bcs.isFuncOwner

def queueOf (ring : List String) (ins : Instance) : QueueName :=
  if bcs.checkSelfInstance cfg ring ins then .self else .other

def pushNew (insQue : QueueName) (ins : Instance) (threadIDPrefix : String) :
    BasicConcurrencyScheduler :=
  let el := newInstanceElement ins threadIDPrefix
  match (bcs.queue insQue).pushBack bcs.nextRef el with
  | (_, some _) => bcs
  | (q, none) => { (bcs.setElem bcs.nextRef el).setQueue insQue q with nextRef := bcs.nextRef + 1 }

def addInstance (ring : List String) (ins : Instance) (threadIDPrefix : String) :
    BasicConcurrencyScheduler :=
  bcs.pushNew (bcs.queueOf cfg ring ins) ins threadIDPrefix

def delInstance (ring : List String) (ins : Instance) : BasicConcurrencyScheduler :=
  let insQue := bcs.queueOf cfg ring ins
  bcs.setQueue insQue ((bcs.queue insQue).delByID ins.instanceID).1

/-- `HandleInstanceUpdate`, which chooses the queue before it takes the lock. -/
def handleInstanceUpdate (insQue : QueueName) (ins : Instance) (threadIDPrefix : String) :
    BasicConcurrencyScheduler :=
  match bcs.getByID insQue ins.instanceID with
  | none => bcs.pushNew insQue ins threadIDPrefix
  | some (ref, el) =>
    let el := { el with ins }
    ((bcs.setElem ref el).updateObjByID insQue ins.instanceID ref el).1

/-- One round of the loop of `reassignQueues`: the target queue, and whether the instance leaves its
own. -/
def reassignOne (ring : List String) (becomeOwner : Bool) (src : InstanceQueue)
    (acc : InstanceQueue × List String) (objID : String) : InstanceQueue × List String :=
  match (src.getByID objID).bind fun ref => (bcs.elems.lookup ref).map fun el => (ref, el) with
  | none => acc
  | some (ref, el) =>
    if el.ins.statusCode = kernelInstanceStatusEvicting then
      ((acc.1.pushBack ref el).1, acc.2)
    else if bcs.checkSelfInstance cfg ring el.ins ≠ becomeOwner then
      acc
    else
      ((acc.1.pushBack ref el).1, objID :: acc.2)

def reassignQueues (ring : List String) (becomeOwner : Bool) : BasicConcurrencyScheduler :=
  let (src, dst) := if becomeOwner then (QueueName.other, QueueName.self) else (.self, .other)
  let (target, leaving) :=
    (bcs.queue src).ids.foldl (bcs.reassignOne cfg ring becomeOwner (bcs.queue src))
      (bcs.queue dst, [])
  let source := leaving.foldl (fun q objID => (q.delByID objID).1) (bcs.queue src)
  (bcs.setQueue dst target).setQueue src source

def handleFuncOwnerUpdate (ring : List String) (isFuncOwner : Bool) : BasicConcurrencyScheduler :=
  if bcs.isFuncOwner = isFuncOwner then bcs
  else { bcs with isFuncOwner }.reassignQueues cfg ring isFuncOwner

end BasicConcurrencyScheduler

end Yuanrong.Concurrency
