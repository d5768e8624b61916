import Yuanrong.Lib.FinMap
import Yuanrong.LiteScheduler.Allocation
import Yuanrong.LiteScheduler.Dispatcher

/-!
# The function pool

The instances and session bindings of one function, and the operations of the pool under its lock. A
bound session reserves capacity on its instance: units move between `reserved` and `activeAllocs` of
the binding, and only their sum is accounted on the instance.

The idle-unbind callback compares the identity of bindings and timers, so both carry a reference
from a counter of the pool, and the timers that may still run their callback are kept in a table.
`Stop` takes a timer out of the table unless its callback has been launched already.
-/

namespace Yuanrong.Lite

structure FunctionSpecification where
  enableSessionCtx : Bool
  concurrentNum : Int
  schedulePolicy : String
deriving DecidableEq

structure SessionBinding where
  ref : Nat
  instanceID : String
  reserved : Int
  activeAllocs : Int
  timer : Option Nat
  expiring : Bool
deriving DecidableEq

def SessionBinding.held (b : SessionBinding) : Int := b.reserved + b.activeAllocs

/-- A `time.AfterFunc` timer whose callback has not run, with what the callback captured. -/
structure SessionTimer where
  sessionID : String
  binding : Nat
  deadline : Nat
  launched : Bool
deriving DecidableEq

structure LiteFunctionPool where
  funcKey : String
  funcSpec : Option FunctionSpecification
  instances : FinMap String LiteInstance
  sessions : FinMap String SessionBinding
  dispatcher : Dispatcher
  seqCounter : Nat
  timers : FinMap Nat SessionTimer
  nextRef : Nat

def newPool (funcKey : String) (funcSpec : FunctionSpecification) : LiteFunctionPool where
  funcKey
  funcSpec := some funcSpec
  instances := ∅
  sessions := ∅
  dispatcher := newDispatcher funcSpec.schedulePolicy
  seqCounter := 0
  timers := ∅
  nextRef := 0

def second : Nat := 1000000000

/-- A duration has 64 bits, and the timer of one that is not positive fires at once. -/
def sessionTTLFor (reqTTL : Int) : Nat := (BitVec.ofNat 64 (reqTTL.toNat * second)).toInt.toNat

/-- What `time.Timer.Stop` leaves of the timers: a launched callback cannot be called back. -/
def stopTimer (timers : FinMap Nat SessionTimer) (b : SessionBinding) : FinMap Nat SessionTimer :=
  match b.timer with
  | none => timers
  | some t => timers.filter fun t' timer => t' ≠ t || timer.launched

/-- Takes one unit of a session for an allocation, and says how many of it the instance has to
provide. -/
def bindSessionStickyTakeLocked (binding : SessionBinding) : SessionBinding × Int :=
  if binding.reserved > 0 then
    ({ binding with reserved := binding.reserved - 1, activeAllocs := binding.activeAllocs + 1 }, 0)
  else
    ({ binding with activeAllocs := binding.activeAllocs + 1 }, 1)

inductive StickyResult
  | miss
  | hit (slot : LiteInstance) (binding : SessionBinding)
  | full (slot : LiteInstance) (binding : SessionBinding)
deriving DecidableEq

namespace LiteFunctionPool

variable (p : LiteFunctionPool)

def sessionBindingKey (sessionID sessionCtxID : String) : String :=
  match p.funcSpec with
  | none => sessionID
  | some spec => if spec.enableSessionCtx then joinKey [sessionID, sessionCtxID] else sessionID

def instanceConcurrentNum : Int :=
  match p.funcSpec with
  | none => 0
  | some spec => spec.concurrentNum

def addInUse (instanceID : String) (delta : Int) : LiteFunctionPool :=
  match p.instances.lookup instanceID with
  | none => p
  | some slot =>
    { p with instances := p.instances.insert instanceID { slot with inUse := slot.inUse + delta } }

/-- The schedulable instances with room for `concurrency`, in the order the map is walked in. -/
def candidateSlotsLocked (order : List String) (sessionCtxID : String) (concurrency : Int) :
    List LiteInstance :=
  (order.filterMap p.instances.lookup).filter fun ins =>
    ins.sessionCtxID = sessionCtxID && !ins.reclaiming && ins.schedulable && ins.fits concurrency

def bindSessionFreshLocked (bindingKey instanceID : String) (concurrency : Int) : LiteFunctionPool :=
  let timers :=
    match p.sessions.lookup bindingKey with
    | none => p.timers
    | some old => stopTimer p.timers old
  let binding : SessionBinding :=
    { ref := p.nextRef, instanceID, reserved := concurrency - 1, activeAllocs := 1,
      timer := none, expiring := false }
  { p with timers, sessions := p.sessions.insert bindingKey binding, nextRef := p.nextRef + 1 }

/-- The units of a session go back to its instance, clamped as in the source. -/
def processInstanceInUse (binding : SessionBinding) : LiteFunctionPool :=
  match p.instances.lookup binding.instanceID with
  | none => p
  | some slot =>
    if binding.held > 0 then
      let inUse := if slot.inUse ≥ binding.held then slot.inUse - binding.held else 0
      { p with instances := p.instances.insert binding.instanceID { slot with inUse } }
    else
      p

def removeSessionBinding (sessionID : String) : LiteFunctionPool :=
  match p.sessions.lookup sessionID with
  | none => p
  | some binding =>
    { p.processInstanceInUse binding with
      timers := stopTimer p.timers binding
      sessions := p.sessions.erase sessionID }

def cancelSessionUnbind (sessionID : String) : LiteFunctionPool :=
  match p.sessions.lookup sessionID with
  | none => p
  | some binding =>
    if binding.expiring then
      { p with
        timers := stopTimer p.timers binding
        sessions := p.sessions.insert sessionID { binding with timer := none, expiring := false } }
    else
      p

/-- The sticky lookup. A binding whose instance is gone or unhealthy is removed on the way. -/
def tryLocalStickyLocked (bindingKey : String) : LiteFunctionPool × StickyResult :=
  match p.sessions.lookup bindingKey with
  | none => (p, .miss)
  | some binding =>
    match p.instances.lookup binding.instanceID with
    | none => (p.removeSessionBinding bindingKey, .miss)
    | some slot =>
      if !slot.schedulable then
        (p.removeSessionBinding bindingKey, .miss)
      else if binding.reserved > 0 || slot.inUse < slot.capacity then
        (p.cancelSessionUnbind bindingKey, .hit slot binding)
      else
        (p, .full slot binding)

def stickyTake (bindingKey : String) : LiteFunctionPool :=
  match p.sessions.lookup bindingKey with
  | none => p
  | some binding =>
    let taken := bindSessionStickyTakeLocked binding
    { p.addInUse binding.instanceID taken.2 with
      sessions := p.sessions.insert bindingKey taken.1 }

/-- Returns one unit to the session, and says whether its idle-unbind timer has to be started. -/
def unbindSessionOnRelease (sessionID : String) : LiteFunctionPool × Bool :=
  match p.sessions.lookup sessionID with
  | none => (p, false)
  | some binding =>
    let returned :=
      if binding.activeAllocs > 0 then
        { binding with
          activeAllocs := binding.activeAllocs - 1
          reserved := binding.reserved + 1 }
      else
        binding
    if returned.activeAllocs > 0 || returned.expiring then
      ({ p with sessions := p.sessions.insert sessionID returned }, false)
    else
      ({ p with sessions := p.sessions.insert sessionID { returned with expiring := true } }, true)

def startSessionUnbindTimer (sessionID : String) (sessionTTL : Int) (now : Nat) : LiteFunctionPool :=
  match p.sessions.lookup sessionID with
  | none => p
  | some binding =>
    if !binding.expiring || binding.activeAllocs ≠ 0 then
      p
    else
      let timer : SessionTimer :=
        { sessionID, binding := binding.ref, deadline := sessionTTLFor sessionTTL + now,
          launched := false }
      { p with
        timers := (stopTimer p.timers binding).insert p.nextRef timer
        sessions := p.sessions.insert sessionID { binding with timer := some p.nextRef }
        nextRef := p.nextRef + 1 }

def unbindAccepted (ref : Nat) (timer : SessionTimer) : Bool :=
  match p.sessions.lookup timer.sessionID with
  | none => false
  | some current =>
    current.ref = timer.binding && current.timer = some ref && current.expiring &&
      current.activeAllocs = 0

def fireSessionUnbind (ref : Nat) (timer : SessionTimer) : LiteFunctionPool :=
  let fired := { p with timers := p.timers.erase ref }
  if p.unbindAccepted ref timer then fired.removeSessionBinding timer.sessionID else fired

/-- The update of a schedulable instance keeps what the pool accounts on it. -/
def upsertInstance (ins : Instance) : LiteFunctionPool :=
  let built := buildLiteInstanceFromInstance ins
  let next :=
    match p.instances.lookup ins.instanceID with
    | none => built
    | some current =>
      { built with
        inUse := current.inUse
        idleSince := current.idleSince
        reclaiming := current.reclaiming }
  { p with instances := p.instances.insert ins.instanceID next }

/-- The pool's part of `removeInstanceLocked`: the instance, then every session bound to it. -/
def removeInstance (instanceID : String) : LiteFunctionPool :=
  let bound := (p.sessions.entries.filter fun e => e.2.instanceID = instanceID).map Sigma.fst
  bound.foldl removeSessionBinding { p with instances := p.instances.erase instanceID }

end LiteFunctionPool

def defaultSessionContextIdleTTL : Nat := 5 * second

structure FuncKeyParts where
  tenantID : String
  funcName : String
  version : String
deriving DecidableEq

def splitFuncKey (funcKey : String) : FuncKeyParts :=
  match GoString.splitN funcKey '/' 3 with
  | [tenantID] => { tenantID, funcName := "", version := "" }
  | [tenantID, funcName] => { tenantID, funcName, version := "" }
  | tenantID :: funcName :: version :: _ => { tenantID, funcName, version }
  | [] => { tenantID := "", funcName := "", version := "" }

def schedulerOwnerKey (tenantID funcKey sessionID sessionCtxID : String) : String :=
  if sessionCtxID ≠ "" then tenantID ++ "/" ++ funcKey ++ "/" ++ sessionCtxID
  else if sessionID ≠ "" then tenantID ++ "/" ++ sessionID
  else funcKey

def sessionContextRoutingKey (funcKey sessionCtxID : String) : String :=
  schedulerOwnerKey (splitFuncKey funcKey).tenantID funcKey "" sessionCtxID

/-- What the hash ring answers: the routing keys that are owned, and the functions with an owner. -/
structure RingView where
  owned : String → Bool
  funcOwner : String → Bool

def scanInstance (funcKey : String) (ring : RingView) (now : Nat) (ins : LiteInstance) : LiteInstance :=
  if ins.sessionCtxID = "" then
    ins
  else if !ring.owned (sessionContextRoutingKey funcKey ins.sessionCtxID) then
    { ins with idleSince := none }
  else if ins.inUse > 0 then
    { ins with idleSince := none, reclaiming := false }
  else if ins.reclaiming then
    ins
  else
    match ins.idleSince with
    | none => { ins with idleSince := some now }
    | some since =>
      if now - since < defaultSessionContextIdleTTL then ins
      else if !ring.funcOwner funcKey then ins
      else { ins with reclaiming := true }

def ringChangeInstance (funcKey : String) (ring : RingView) (ins : LiteInstance) : LiteInstance :=
  if ins.sessionCtxID = "" then ins
  else if ring.owned (sessionContextRoutingKey funcKey ins.sessionCtxID) then ins
  else { ins with idleSince := none, reclaiming := false }

structure IdleInstance where
  funcKey : String
  sessionCtxID : String
  instanceID : String
  idleSince : Option Nat
deriving DecidableEq

namespace LiteFunctionPool

variable (p : LiteFunctionPool)

def scanIdle (ring : RingView) (now : Nat) : LiteFunctionPool :=
  { p with instances := p.instances.mapVal fun _ => scanInstance p.funcKey ring now }

/-- The instances a scan sets `Reclaiming` on, as it reports them to the function's owner. -/
def idleReport (ring : RingView) (now : Nat) : List IdleInstance :=
  (p.instances.entries.map Sigma.snd).filterMap fun ins =>
    if (scanInstance p.funcKey ring now ins).reclaiming && !ins.reclaiming then
      some { funcKey := p.funcKey, sessionCtxID := ins.sessionCtxID, instanceID := ins.instanceID,
             idleSince := ins.idleSince }
    else
      none

def ringChange (ring : RingView) : LiteFunctionPool :=
  { p with instances := p.instances.mapVal fun _ => ringChangeInstance p.funcKey ring }

def resetReclaiming (instanceID : String) : LiteFunctionPool :=
  match p.instances.lookup instanceID with
  | none => p
  | some ins =>
    { p with instances := p.instances.insert instanceID { ins with reclaiming := false } }

end LiteFunctionPool

end Yuanrong.Lite
