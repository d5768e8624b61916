import Yuanrong.LiteScheduler.Pool
import Yuanrong.TimeWheel

/-!
# Requests of the lite scheduler

Acquire, release and retain, cut where the source gives up a lock: every definition is one critical
section, and `Pc` says which one a goroutine runs next and with what data. What a section reads from
outside (the order of a map, the session store, the answer to a scale hint) is its `Choice`.
-/

namespace Yuanrong.Lite

open TimeWheel

def millisecond : Nat := 1000000

def minLeaseInterval : Nat := 500 * millisecond

def liteExpiryScanPace : Nat := 5 * millisecond

def liteExpiryScanSlots : Nat := 100

def minConcurrency : Int := 1

structure Config where
  hash : SessionHash
  leaseSpan : Int
  acquireWaitTimeoutMs : Int
  enable : Bool
  enableAllTenants : Bool
  enabledTenants : List String
  enabledFunctions : List String

def liteTTL (cfg : Config) : Nat := max (cfg.leaseSpan.toNat * millisecond) minLeaseInterval

def isFuncEnabled (cfg : Config) (funcKey : String) : Bool :=
  cfg.enable && (cfg.enableAllTenants || cfg.enabledTenants.contains (splitFuncKey funcKey).tenantID ||
    cfg.enabledFunctions.contains funcKey)

structure InstanceResponse where
  errorCode : Int
  errorMessage : String
  threadID : String := ""
  leaseInterval : Nat := 0
  funcKey : String := ""
  instanceID : String := ""
  route : InstanceRoute := {}
deriving DecidableEq

def liteSuccessResp (cfg : Config) (slot : Option LiteInstance) (allocID funcKey : String) :
    InstanceResponse :=
  let resp : InstanceResponse :=
    { errorCode := 6030, errorMessage := "instance request successfully", threadID := allocID,
      leaseInterval := liteTTL cfg / millisecond }
  match slot with
  | none => resp
  | some slot => { resp with funcKey, instanceID := slot.instanceID, route := slot.route }

def liteErrResp (errorCode : Int) (errorMessage : String) : InstanceResponse :=
  { errorCode, errorMessage }

def sessionTTLNegative : InstanceResponse := liteErrResp 4037 "sessionTTL must not be negative"

def concurrencyExceeded : InstanceResponse :=
  liteErrResp 4037 "concurrency exceeds function concurrentNum"

def concurrencyTooSmall : InstanceResponse := liteErrResp 4037 "concurrency less than minimum value"

def sessionConfigInvalid : InstanceResponse := liteErrResp 4037 "session config invalid"

def sessionBoundElsewhere : InstanceResponse :=
  liteErrResp 4037 "session is bound to a different instance"

def funcMetaNotFound : InstanceResponse := liteErrResp 150424 "function metadata not found"

def instanceNotFound : InstanceResponse := liteErrResp 150425 "instance not exist"

def instanceStatusAbnormal : InstanceResponse :=
  liteErrResp 150427 "lease op failed, instance is abnormal"

def noInstanceAvailable : InstanceResponse := liteErrResp 150431 "no available instance"

def leaseIDIllegal : InstanceResponse := liteErrResp 150462 "lease id is illegal"

def leaseIDNotFound : InstanceResponse := liteErrResp 150463 "lease id is not found"

def leaseExpireOrDeleted : InstanceResponse := liteErrResp 6036 "lease expires or deleted"

def nonOwnerScheduler (ownerID : String) : InstanceResponse := liteErrResp 150464 ownerID

structure LiteRequest where
  funcKey : String
  tenantID : String
  sessionID : String
  sessionCtxID : String
  sessionTTL : Int
  concurrency : Int
  bindingKey : String := ""
deriving DecidableEq

/-- The session fields of `ReacquireData`, and the function the client says it belongs to. -/
structure ReacquireData where
  functionKey : String
  sessionID : String
  sessionCtxID : String
  sessionTTL : Int
  concurrency : Int
deriving DecidableEq

structure ReacquireParams where
  allocID : String
  sessionID : String
  sessionCtxID : String
  sessionTTL : Int
  concurrency : Int
  funcKey : String
  tenantID : String
  instanceID : String
deriving DecidableEq

/-- The scheduler, its wheel and ticker, and expired lists. `ready` ends with the one that
blocks. -/
structure LiteScheduler where
  pools : FinMap String LiteFunctionPool
  allocations : FinMap String Allocation
  expiryWheel : SimpleTimeWheel
  tickPending : Bool
  ready : List (List String)
  batch : List String
  reports : List IdleInstance
  now : Nat

inductive Pc
  | sticky (req : LiteRequest)
  | dispatch (req : LiteRequest)
  | coldStart (req : LiteRequest)
  | poll (req : LiteRequest) (deadline : Nat)
  | removeTask (alloc : Allocation)
  | releaseSlot (alloc : Allocation)
  | snapshotSlot (alloc : Allocation) (unbind : Option String)
  | reapSlot (alloc : Allocation)
  | startTimer (funcKey sessionKey : String) (sessionTTL : Int) (reply : Option InstanceResponse)
  | validateRetain (allocID funcKey instanceID : String)
  | dropAlloc (allocID : String) (reply : InstanceResponse)
  | dropTask (allocID : String) (reply : InstanceResponse)
  | refresh (allocID : String) (slot : LiteInstance)
  | updateTask (allocID : String) (reply : InstanceResponse)
  | reacquire (params : ReacquireParams)
deriving DecidableEq

structure Choice where
  order : List String := []
  storeRec : Option String := none
  hint : Option (Int × String) := none
  stopping : Bool := false
deriving DecidableEq

structure Outcome where
  ls : LiteScheduler
  next : Option Pc := none
  granted : Option Allocation := none
  reply : Option InstanceResponse := none

def Outcome.goto (ls : LiteScheduler) (pc : Pc) : Outcome := { ls, next := some pc }

def Outcome.answer (ls : LiteScheduler) (reply : InstanceResponse) : Outcome :=
  { ls, reply := some reply }

namespace LiteScheduler

variable (cfg : Config) (ls : LiteScheduler)

def setPool (funcKey : String) (pool : LiteFunctionPool) : LiteScheduler :=
  { ls with pools := ls.pools.insert funcKey pool }

def getPool (funcKey : String) : Option LiteFunctionPool := ls.pools.lookup funcKey

def setWheel (result : Except TaskError SimpleTimeWheel) : LiteScheduler :=
  match result with
  | .ok wheel => { ls with expiryWheel := wheel }
  | .error _ => ls

def registerExpiryTask (allocID : String) : LiteScheduler :=
  ls.setWheel (ls.expiryWheel.addTask allocID (liteTTL cfg) 1)

def updateExpiryTask (allocID : String) : LiteScheduler :=
  ls.setWheel (ls.expiryWheel.updateTask allocID (liteTTL cfg) 1)

def removeExpiryTask (allocID : String) : LiteScheduler :=
  { ls with expiryWheel := ls.expiryWheel.delTask allocID }

def toInt64 (n : Nat) : Int := if n < 2 ^ 63 then n else n - 2 ^ 64

def applySlotBinding (pool : LiteFunctionPool) (req : LiteRequest) (instanceID : String)
    (sticky : Bool) : LiteFunctionPool :=
  if sticky then
    pool.stickyTake req.bindingKey
  else if req.sessionID ≠ "" then
    (pool.addInUse instanceID req.concurrency).bindSessionFreshLocked req.bindingKey instanceID
      req.concurrency
  else
    pool.addInUse instanceID 1

def newAllocation (req : LiteRequest) (allocID instanceID : String) : Allocation where
  allocationID := allocID
  sessionID := req.sessionID
  sessionCtxID := req.sessionCtxID
  sessionTTL := req.sessionTTL
  tenantID := req.tenantID
  instanceID := instanceID
  funcKey := req.funcKey
  expireAt := liteTTL cfg + ls.now

def nextSeq (pool : LiteFunctionPool) : Nat := (pool.seqCounter + 1) % 2 ^ 64

def assignInstance (pool : LiteFunctionPool) (req : LiteRequest) (slot : LiteInstance)
    (sticky : Bool) : Outcome :=
  let allocID := genAllocationID cfg.hash req.bindingKey slot.instanceID (toInt64 (nextSeq pool))
  let alloc := newAllocation cfg ls req allocID slot.instanceID
  let bound := applySlotBinding { pool with seqCounter := nextSeq pool } req slot.instanceID sticky
  let assigned : LiteScheduler :=
    { ls.setPool req.funcKey bound with allocations := ls.allocations.insert allocID alloc }
  { ls := registerExpiryTask cfg assigned allocID
    granted := some alloc
    reply := some (liteSuccessResp cfg (some slot) allocID req.funcKey) }

def checkConcurrencyLimit (pool : LiteFunctionPool) (concurrency : Int) : Option InstanceResponse :=
  if pool.instanceConcurrentNum > 0 ∧ concurrency > pool.instanceConcurrentNum then
    some concurrencyExceeded
  else if concurrency < minConcurrency then
    some concurrencyTooSmall
  else
    none

def handleAcquire (req : LiteRequest) : Outcome :=
  if req.sessionTTL < 0 then
    .answer ls sessionTTLNegative
  else
    match ls.getPool req.funcKey with
    | none => .answer ls funcMetaNotFound
    | some pool =>
      match checkConcurrencyLimit pool req.concurrency with
      | some reply => .answer ls reply
      | none =>
        .goto ls (.sticky
          { req with bindingKey := pool.sessionBindingKey req.sessionID req.sessionCtxID })

def tryLocalSticky (pool : LiteFunctionPool) (req : LiteRequest) : Outcome :=
  match pool.tryLocalStickyLocked req.bindingKey with
  | (pool, .hit slot _) => assignInstance cfg ls pool req slot true
  | (_, .full _ _) => .answer ls noInstanceAvailable
  | (pool, .miss) => .goto (ls.setPool req.funcKey pool) (.dispatch req)

def tryStoreRecoveryLocked (pool : LiteFunctionPool) (req : LiteRequest)
    (storeRec : Option String) : Option LiteInstance :=
  match storeRec with
  | none => none
  | some instanceID =>
    if instanceID = "" then
      none
    else
      (pool.instances.lookup instanceID).filter fun slot =>
        slot.schedulable && slot.fits req.concurrency && slot.sessionCtxID = req.sessionCtxID

/-- `tryDispatchLocked`, and with another section to go to `tryPollDispatch`. -/
def tryDispatch (pool : LiteFunctionPool) (req : LiteRequest) (order : List String)
    (otherwise : LiteScheduler → Outcome) : Outcome :=
  let slots := pool.candidateSlotsLocked order req.sessionCtxID req.concurrency
  match pool.dispatcher.select slots req.concurrency with
  | (some chosen, dispatcher) =>
    assignInstance cfg ls { pool with dispatcher } req chosen false
  | (none, dispatcher) => otherwise (ls.setPool req.funcKey { pool with dispatcher })

def acquireDispatchOrColdStart (pool : LiteFunctionPool) (req : LiteRequest) (choice : Choice) :
    Outcome :=
  match pool.tryLocalStickyLocked req.bindingKey with
  | (pool, .hit slot _) => assignInstance cfg ls pool req slot true
  | (_, .full _ _) => .answer ls noInstanceAvailable
  | (pool, .miss) =>
    match tryStoreRecoveryLocked pool req choice.storeRec with
    | some slot => assignInstance cfg ls pool req slot false
    | none =>
      tryDispatch cfg ls pool req choice.order fun ls => .goto ls (.coldStart req)

def waitForInstance (req : LiteRequest) : Outcome :=
  if cfg.acquireWaitTimeoutMs ≤ 0 then
    .answer ls noInstanceAvailable
  else
    .goto ls (.poll req (cfg.acquireWaitTimeoutMs.toNat * millisecond + ls.now))

def handleColdStart (req : LiteRequest) (choice : Choice) : Outcome :=
  match choice.hint with
  | some (code, message) =>
    if code ≠ 0 then .answer ls (liteErrResp code message) else waitForInstance cfg ls req
  | none => waitForInstance cfg ls req

def tryPollDispatch (pool : LiteFunctionPool) (req : LiteRequest) (deadline : Nat)
    (choice : Choice) : Outcome :=
  tryDispatch cfg ls pool req choice.order fun ls =>
    if ls.now > deadline ∨ choice.stopping then .answer ls noInstanceAvailable
    else .goto ls (.poll req deadline)

def handleRelease (allocID : String) : Outcome :=
  match ls.allocations.lookup allocID with
  | none => .answer ls instanceNotFound
  | some alloc => .goto { ls with allocations := ls.allocations.erase allocID } (.removeTask alloc)

/-- `releaseSlotLocked`: the pool afterwards, and the session whose idle-unbind timer is to
start. -/
def releaseSlotLocked (pool : LiteFunctionPool) (alloc : Allocation) :
    LiteFunctionPool × Option String :=
  match pool.instances.lookup alloc.instanceID with
  | none => (pool, none)
  | some slot =>
    if alloc.sessionID ≠ "" then
      let sessionKey := pool.sessionBindingKey alloc.sessionID alloc.sessionCtxID
      let (pool, needTimer) := pool.unbindSessionOnRelease sessionKey
      (pool, if needTimer then some sessionKey else none)
    else if slot.inUse > 0 then
      (pool.addInUse alloc.instanceID (-1), none)
    else
      (pool, none)

def releaseInPool (alloc : Allocation) : Outcome :=
  match ls.getPool alloc.funcKey with
  | none => .answer ls (liteSuccessResp cfg none alloc.allocationID alloc.funcKey)
  | some pool =>
    let (pool, unbind) := releaseSlotLocked pool alloc
    .goto (ls.setPool alloc.funcKey pool) (.snapshotSlot alloc unbind)

def snapshotSlot (alloc : Allocation) (unbind : Option String) : Outcome :=
  let slot := (ls.getPool alloc.funcKey).bind fun pool => pool.instances.lookup alloc.instanceID
  let reply := liteSuccessResp cfg slot alloc.allocationID alloc.funcKey
  match unbind with
  | none => .answer ls reply
  | some sessionKey => .goto ls (.startTimer alloc.funcKey sessionKey alloc.sessionTTL (some reply))

def startUnbindTimer (funcKey sessionKey : String) (sessionTTL : Int)
    (reply : Option InstanceResponse) : Outcome :=
  match ls.getPool funcKey with
  | none => { ls, reply }
  | some pool =>
    { ls := ls.setPool funcKey (pool.startSessionUnbindTimer sessionKey sessionTTL ls.now), reply }

/-- `reapExpiredAllocation` does not look whether the instance is still there. -/
def reapSlotLocked (pool : LiteFunctionPool) (alloc : Allocation) : LiteFunctionPool × Option String :=
  if alloc.sessionID ≠ "" then
    let bindingKey := pool.sessionBindingKey alloc.sessionID alloc.sessionCtxID
    let (pool, needTimer) := pool.unbindSessionOnRelease bindingKey
    (pool, if needTimer then some bindingKey else none)
  else
    match pool.instances.lookup alloc.instanceID with
    | none => (pool, none)
    | some slot =>
      if slot.inUse > 0 then (pool.addInUse alloc.instanceID (-1), none) else (pool, none)

def reapInPool (alloc : Allocation) : Outcome :=
  match ls.getPool alloc.funcKey with
  | none => { ls }
  | some pool =>
    let (pool, unbind) := reapSlotLocked pool alloc
    { ls := ls.setPool alloc.funcKey pool
      next := unbind.map fun key => .startTimer alloc.funcKey key alloc.sessionTTL none }

/-- `validateSessionAndOwner`. `owner` is the scheduler to reroute to when this one does not own the
session. -/
def validateSessionAndOwner (data : ReacquireData) (expectedHash : String) (owner : Option String) :
    Option InstanceResponse :=
  if (data.sessionID = "" ∧ data.sessionCtxID = "") ∨ data.sessionTTL < 0 then
    some sessionConfigInvalid
  else if cfg.hash.sessionHash (allocationSessionID data.sessionID data.sessionCtxID) ≠
      expectedHash then
    some leaseIDIllegal
  else if data.functionKey = "" ∨ isFuncEnabled cfg data.functionKey = false then
    some funcMetaNotFound
  else
    owner.map nonOwnerScheduler

def validateReacquireRequest (allocID : String) (metrics : Option ReacquireData)
    (owner : Option String) : Except InstanceResponse ReacquireParams :=
  match metrics with
  | none => .error leaseIDNotFound
  | some data =>
    match parseLiteAllocationID allocID with
    | none => .error leaseIDIllegal
    | some id =>
      match validateSessionAndOwner cfg data id.sessHash owner with
      | some reply => .error reply
      | none =>
        .ok
          { allocID
            sessionID := data.sessionID
            sessionCtxID := data.sessionCtxID
            sessionTTL := data.sessionTTL
            concurrency := data.concurrency
            funcKey := data.functionKey
            tenantID := (splitFuncKey data.functionKey).tenantID
            instanceID := id.instanceID }

def reacquireAllocation (allocID : String) (metrics : Option ReacquireData)
    (owner : Option String) : Outcome :=
  match validateReacquireRequest cfg allocID metrics owner with
  | .error reply => .answer ls reply
  | .ok params =>
    match ls.getPool params.funcKey with
    | none => .answer ls funcMetaNotFound
    | some pool =>
      match checkConcurrencyLimit pool params.concurrency with
      | some reply => .answer ls reply
      | none => .goto ls (.reacquire params)

def handleRetain (allocID : String) (metrics : Option ReacquireData) (owner : Option String) :
    Outcome :=
  match ls.allocations.lookup allocID with
  | none => reacquireAllocation cfg ls allocID metrics owner
  | some alloc =>
    if isFuncEnabled cfg alloc.funcKey then
      .goto ls (.validateRetain allocID alloc.funcKey alloc.instanceID)
    else
      .answer ls funcMetaNotFound

def validateRetainTarget (allocID funcKey instanceID : String) : Outcome :=
  match ls.getPool funcKey with
  | none => .goto ls (.dropAlloc allocID leaseExpireOrDeleted)
  | some pool =>
    match pool.instances.lookup instanceID with
    | none => .goto ls (.dropAlloc allocID instanceStatusAbnormal)
    | some slot =>
      if slot.status = .unavailable then .goto ls (.dropAlloc allocID instanceStatusAbnormal)
      else .goto ls (.refresh allocID slot)

def extendLease (alloc : Allocation) : Allocation := { alloc with expireAt := liteTTL cfg + ls.now }

def refreshRetainTTL (allocID : String) (slot : LiteInstance) : Outcome :=
  match ls.allocations.lookup allocID with
  | none => .answer ls leaseIDNotFound
  | some alloc =>
    .goto { ls with allocations := ls.allocations.insert allocID (extendLease cfg ls alloc) }
      (.updateTask allocID (liteSuccessResp cfg (some slot) alloc.allocationID alloc.funcKey))

def checkReacquireSlotLocked (pool : LiteFunctionPool) (params : ReacquireParams) :
    Except InstanceResponse LiteInstance :=
  match pool.instances.lookup params.instanceID with
  | none => .error instanceNotFound
  | some slot =>
    if slot.funcKey ≠ "" ∧ slot.funcKey ≠ params.funcKey then
      .error instanceNotFound
    else if slot.status = .unavailable then
      .error instanceStatusAbnormal
    else
      match pool.sessions.lookup (pool.sessionBindingKey params.sessionID params.sessionCtxID) with
      | none => .ok slot
      | some binding =>
        if params.sessionID ≠ "" ∧ binding.instanceID ≠ params.instanceID then
          .error sessionBoundElsewhere
        else
          .ok slot

def reacquiredAllocation (params : ReacquireParams) : Allocation where
  allocationID := params.allocID
  sessionID := params.sessionID
  sessionCtxID := params.sessionCtxID
  sessionTTL := params.sessionTTL
  tenantID := params.tenantID
  instanceID := params.instanceID
  funcKey := params.funcKey
  expireAt := liteTTL cfg + ls.now

/-- `buildReacquiredAlloc` takes the unit from a binding without cancelling its idle-unbind. -/
def buildReacquiredAlloc (pool : LiteFunctionPool) (params : ReacquireParams) : LiteFunctionPool :=
  let key := pool.sessionBindingKey params.sessionID params.sessionCtxID
  if params.sessionID ≠ "" then
    match pool.sessions.lookup key with
    | some _ => pool.stickyTake key
    | none =>
      (pool.addInUse params.instanceID params.concurrency).bindSessionFreshLocked key
        params.instanceID params.concurrency
  else
    pool.addInUse params.instanceID 1

def reacquireLocked (pool : LiteFunctionPool) (params : ReacquireParams) : Outcome :=
  match checkReacquireSlotLocked pool params with
  | .error reply => .answer ls reply
  | .ok slot =>
    let reply := liteSuccessResp cfg (some slot) params.allocID params.funcKey
    match ls.allocations.lookup params.allocID with
    | some alloc =>
      .goto
        { ls with
          allocations := ls.allocations.insert params.allocID (extendLease cfg ls alloc) }
        (.updateTask params.allocID (liteSuccessResp cfg (some slot) alloc.allocationID alloc.funcKey))
    | none =>
      let alloc := reacquiredAllocation cfg ls params
      { ls :=
          { ls.setPool params.funcKey (buildReacquiredAlloc pool params) with
            allocations := ls.allocations.insert params.allocID alloc }
        next := some (.updateTask params.allocID reply)
        granted := some alloc }

/-- `removeInstanceLocked`: the instance, the sessions bound to it and the allocations on it. -/
def removeInstanceLocked (funcKey : String) (pool : LiteFunctionPool) (instanceID : String) :
    LiteScheduler :=
  let gone := fun (_ : String) (alloc : Allocation) =>
    decide (alloc.instanceID = instanceID ∧ alloc.funcKey = pool.funcKey)
  { ls.setPool funcKey (pool.removeInstance instanceID) with
    allocations := ls.allocations.filter fun id alloc => !gone id alloc
    expiryWheel := (ls.allocations.filter gone).keys.foldl SimpleTimeWheel.delTask ls.expiryWheel }

def handleInstanceUpdate (funcKey : String) (pool : LiteFunctionPool) (ins : Instance) :
    LiteScheduler :=
  match mapStatus ins.statusCode with
  | .unavailable => removeInstanceLocked ls funcKey pool ins.instanceID
  | _ => ls.setPool funcKey (pool.upsertInstance ins)

end LiteScheduler

end Yuanrong.Lite
