import Yuanrong.Lib.FinMap
import Yuanrong.Lib.StepSystem

/-!
# Counting the requests of an instance

`GetAvailableIns` raises `unfinishReqNum` of the instance it picks, and `HandleInvokeNotify` lowers
that of the instance the request was sent to last, if the request is still in the request manager
and the notify is of its current attempt. The events record what is unanswered: an attempt until its
first notify.
-/

namespace Yuanrong.Libruntime.Inflight

variable {ρ : Type} [DecidableEq ρ]

/-- The concurrency of the resources, which `CheckSpec` keeps at one at least. -/
structure Config (ρ : Type) where
  concurrency : ρ → Nat
  one_le : ∀ resource, 1 ≤ concurrency resource

/-- `oneShot` is a lease without an interval, which is not made available again. -/
structure InstanceInfo where
  unfinishReqNum : Int
  oneShot : Bool
deriving DecidableEq

/-- `attempt` is carried in eight bits. `queued`: the request is in its scheduler's queue. -/
structure Request (ρ : Type) where
  resource : ρ
  invokeInstanceId : String
  attempt : Nat
  queued : Bool
deriving DecidableEq

def seqOf (attempt : Nat) : Nat := attempt % 256

/-- Instances by resource and id, unanswered attempts by request and number, and ids given. -/
structure State (ρ : Type) where
  instanceInfos : FinMap (ρ × String) InstanceInfo
  avaliableInstanceInfos : List (ρ × String)
  requestMap : FinMap String (Request ρ)
  unanswered : FinMap (String × Nat) (ρ × String)
  usedInstances : List (ρ × String)
  usedRequests : List String

def State.init : State ρ :=
  { instanceInfos := ∅, avaliableInstanceInfos := [], requestMap := ∅, unanswered := ∅,
    usedInstances := [], usedRequests := [] }

/-- A notify may come, more than once, for attempts before the current one, and for that unless it
is queued. -/
def State.wasSent (s : State ρ) (requestId : String) (attempt : Nat) : Bool :=
  match s.requestMap.lookup requestId with
  | none => requestId ∈ s.usedRequests
  | some request => attempt < request.attempt || (attempt = request.attempt && !request.queued)

inductive Outcome
  | success
  -- whether the instance is taken for normal, and whether the request is tried again
  | fail (normal retry : Bool)
deriving DecidableEq

def Outcome.normal : Outcome → Bool
  | .success => true
  | .fail normal _ => normal

inductive Event (ρ : Type)
  -- an id is not empty and is given once
  | addInstance (resource : ρ) (id : String) (oneShot : Bool)
  | pushRequest (requestId : String) (resource : ρ)
  | scheduleRequest (requestId instanceId : String)
  | notify (requestId : String) (attempt : Nat) (outcome : Outcome)
  | cancelStatelessRequest (requestId : String) (isForce : Bool)
  -- a queued request is given up: no instance can be created, or its time is over
  | drain (requestId : String)
  | scaleDown (resource : ρ) (id : String)
  | delIns (resource : ρ) (id : String)
deriving DecidableEq

def delInsInfoBare (s : State ρ) (key : ρ × String) : State ρ :=
  { s with
    instanceInfos := s.instanceInfos.erase key
    avaliableInstanceInfos := s.avaliableInstanceInfos.filter (· ≠ key) }

def decreaseUnfinishReqNum (cfg : Config ρ) (s : State ρ) (key : ρ × String)
    (isInstanceNormal : Bool) : State ρ :=
  match s.instanceInfos.lookup key with
  | none => s
  | some info =>
    let info := { info with unfinishReqNum := info.unfinishReqNum - 1 }
    let s := { s with instanceInfos := s.instanceInfos.insert key info }
    if info.oneShot = false ∧ info.unfinishReqNum < (cfg.concurrency key.1 : Int) ∧
        isInstanceNormal = true ∧ key ∉ s.avaliableInstanceInfos then
      { s with avaliableInstanceInfos := key :: s.avaliableInstanceInfos }
    else
      s

/-- `HandleSuccessInvokeNotify` and `HandleFailInvokeNotify`, after the count was lowered. -/
def finishNotify (s : State ρ) (requestId : String) (request : Request ρ) : Outcome → State ρ
  | .success => { s with requestMap := s.requestMap.erase requestId }
  | .fail normal retry =>
    let s := if normal then s else delInsInfoBare s (request.resource, request.invokeInstanceId)
    if retry then
      { s with
        requestMap := s.requestMap.insert requestId
          { request with attempt := request.attempt + 1, queued := true } }
    else
      { s with requestMap := s.requestMap.erase requestId }

def answer (s : State ρ) (requestId : String) (attempt : Nat) : State ρ :=
  { s with unanswered := s.unanswered.erase (requestId, attempt) }

def handleInvokeNotify (cfg : Config ρ) (s : State ρ) (requestId : String) (attempt : Nat)
    (outcome : Outcome) : State ρ :=
  match s.requestMap.lookup requestId with
  | none => s
  | some request =>
    -- `IsStaleDuplicateNotify`
    if seqOf attempt ≠ seqOf request.attempt then s
    else
      finishNotify
        (decreaseUnfinishReqNum cfg s (request.resource, request.invokeInstanceId) outcome.normal)
        requestId request outcome

/-- `CancelStatelessRequest` leaves a request that was sent to an instance which may run others. -/
def cancelIgnored (cfg : Config ρ) (request : Request ρ) (isForce : Bool) : Bool :=
  request.invokeInstanceId ≠ "" && isForce && cfg.concurrency request.resource > 1

def step (cfg : Config ρ) (s : State ρ) : Event ρ → Option (State ρ)
  | .addInstance resource id oneShot =>
    if (resource, id) ∈ s.usedInstances then none
    else some { s with
      instanceInfos := s.instanceInfos.insert (resource, id) { unfinishReqNum := 0, oneShot }
      avaliableInstanceInfos := (resource, id) :: s.avaliableInstanceInfos
      usedInstances := (resource, id) :: s.usedInstances }
  | .pushRequest requestId resource =>
    if requestId ∈ s.usedRequests then none
    else some { s with
      requestMap := s.requestMap.insert requestId
        { resource, invokeInstanceId := "", attempt := 0, queued := true }
      usedRequests := requestId :: s.usedRequests }
  | .scheduleRequest requestId instanceId =>
    match s.requestMap.lookup requestId with
    | none => some s
    | some request =>
      let key := (request.resource, instanceId)
      -- `GetAvailableIns` takes any instance of the map
      if request.queued = true ∧ key ∈ s.avaliableInstanceInfos then
        match s.instanceInfos.lookup key with
        | none => none
        | some info =>
          let num := info.unfinishReqNum + 1
          some { s with
            instanceInfos := s.instanceInfos.insert key { info with unfinishReqNum := num }
            avaliableInstanceInfos :=
              if num ≥ (cfg.concurrency request.resource : Int) then
                s.avaliableInstanceInfos.filter (· ≠ key)
              else s.avaliableInstanceInfos
            requestMap := s.requestMap.insert requestId
              { request with invokeInstanceId := instanceId, queued := false }
            unanswered := s.unanswered.insert (requestId, request.attempt) key }
      else none
  | .notify requestId attempt outcome =>
    if s.wasSent requestId attempt then
      some (handleInvokeNotify cfg (answer s requestId attempt) requestId attempt outcome)
    else none
  | .cancelStatelessRequest requestId isForce =>
    match s.requestMap.lookup requestId with
    | none => some s
    | some request =>
      if cancelIgnored cfg request isForce then some s
      else some { s with requestMap := s.requestMap.erase requestId }
  | .drain requestId =>
    match s.requestMap.lookup requestId with
    | none => some s
    | some request =>
      if request.queued then some { s with requestMap := s.requestMap.erase requestId } else none
  | .scaleDown resource id =>
    -- `ScaleDownHandler`
    match s.instanceInfos.lookup (resource, id) with
    | none => some s
    | some info =>
      if info.unfinishReqNum > 0 then some s else some (delInsInfoBare s (resource, id))
  | .delIns resource id => some (delInsInfoBare s (resource, id))

def system (cfg : Config ρ) : StepSystem (State ρ) (Event ρ) Unit where
  init s := s = .init
  step s e := (step cfg s e).map fun s => (s, ())

end Yuanrong.Libruntime.Inflight
