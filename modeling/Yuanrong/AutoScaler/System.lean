import Yuanrong.AutoScaler.Scaler
import Yuanrong.Lib.StepSystem

/-!
# The running auto scaler

The scaler with its two loops, the goroutines that create and delete instances, and the callers of
`TriggerScale`. An event is one section under the scaler's lock or under that of the create queue,
or one step between two of them. Metrics, results of creations and changes of thread numbers are
inputs.
-/

namespace Yuanrong.Scaling

/-- The concurrency of the function, and how long and how often a failed creation is tried again. -/
structure Config where
  concurrentNum : Int
  initialErrorDelay : Nat := 1
  retryDelayLimit : Nat := 16
  retryDelayFactor : Nat := 2
  reservedInstanceAlwaysRetry : Bool := false

/-- In its `select`, in the demand check, before `pauseScale` or `scaleUpInstances`, in the handler,
before a round of its own, gone. -/
inductive UpLoopPc
  | selecting
  | checking
  | noRequests
  | pausing
  | scaling
  | pushing (left : Nat)
  | triggered
  | ticked
  | done
deriving DecidableEq

/-- Where `scaleDownLoop` is: in its `select`, with its timer set or not; after a round; gone. -/
inductive DownLoopPc
  | selecting (timer : Bool)
  | scaled
  | done
deriving DecidableEq

inductive CreatePc
  | creating (retryDelay : Nat)
  | finished
deriving DecidableEq

/-- Where `scaleDownInstance` is: at its start, in the deletion of an instance, or before its
callback. -/
inductive DownPc
  | started
  | deleting
  | finished
deriving DecidableEq

inductive CreateResult
  | created
  | unrecoverable
  | failed
deriving DecidableEq

/-- The waiting requests whose callers have, and have not, called `TriggerScale`. -/
structure System where
  sc : AutoScaler
  createQueue : InstanceCreateQueue := {}
  creates : FinMap Nat CreatePc := ∅
  downs : FinMap Nat DownPc := ∅
  upLoop : UpLoopPc := .selecting
  scaleUpChan : Bool := false
  ticker : Bool := false
  tick : Bool := false
  downLoop : DownLoopPc := .selecting false
  announced : Nat := 0
  unannounced : Nat := 0
  stopCh : Bool := false
  funcDeleted : Bool := false
  nextRef : Nat := 0

inductive Event
  | addRequest
  | answerRequest (announced : Bool)
  | triggerRequest (waiting : Bool)
  | triggerScale (minConcurrency : Int)
  | receiveRound
  | checkRequests
  | checkDemand
  | pauseScale
  | scaleUpInstances (metrics : Option InvokeMetrics)
  | push
  | receiveTrigger
  | startRound
  | fireTicker
  | receiveTick
  | stopUpLoop
  | receiveScaleDown
  | scaleDownInstances (metrics : Option InvokeMetrics)
  | pauseScaleDown
  | stopDownLoop
  | getForCreate
  | createInstance (request : Nat) (result : CreateResult)
  | createCallback (request : Nat)
  | scaleDownInstance (g : Nat)
  | instanceDeleted (g : Nat)
  | scaleDownCallback (g : Nat)
  | handleInsThdUpdate (inUseInsThdDiff totalInsThdDiff : Int)
  | updateCreateMetrics (coldStartTime : ℚ)
  | handleFuncSpecUpdate (concurrentNum : Int)
  | destroy
  | deleteFunction

namespace System

variable (cfg : Config) (s : System)

def reqNum : Nat := s.announced + s.unannounced

def toPush : Nat :=
  match s.upLoop with
  | .pushing left => left
  | _ => 0

/-- A section under the scaler's lock, which the scale up handler holds while it pushes. -/
def locked (f : AutoScaler → Option System) : Option System :=
  if s.toPush = 0 then f s.sc else none

def up (pc : UpLoopPc) (next : Option System) : Option System := if s.upLoop = pc then next else none

/-- `TriggerScale`, called for a request; `waiting` says that the request is still in the queue. -/
def triggerRequest (waiting : Bool) : Option System :=
  s.locked fun sc =>
    if waiting = true ∧ s.unannounced = 0 then
      none
    else
      (sc.triggerScale 0).map fun sc =>
        if waiting then
          { s with sc, announced := s.announced + 1, unannounced := s.unannounced - 1 }
        else
          { s with sc }

def triggerScale (minConcurrency : Int) : Option System :=
  s.locked fun sc => (sc.triggerScale minConcurrency).map fun sc => { s with sc }

def receiveRound : Option System :=
  s.up .selecting (if s.scaleUpChan then
    some { s with scaleUpChan := false, upLoop := .checking } else none)

def checkRequests : Option System :=
  s.up .checking (some { s with upLoop := if s.reqNum = 0 then .noRequests else .scaling })

def checkDemand : Option System :=
  s.up .noRequests (s.locked fun sc =>
    some { s with upLoop := if sc.minScaleDemand = 0 then .pausing else .scaling })

/-- A ticker that is stopped fires no more. -/
def pauseScale : Option System :=
  s.up .pausing (s.locked fun sc =>
    some { s with
      sc := { sc with autoScaleUpFlag := false }
      ticker := false
      tick := false
      upLoop := .selecting })

def pushes (left : Nat) : UpLoopPc := if left = 0 then .selecting else .pushing left

def scaleUpInstances (metrics : Option InvokeMetrics) : Option System :=
  s.up .scaling (s.locked fun sc =>
    let scaled := sc.scaleUpInstances metrics s.reqNum
    some { s with sc := scaled.1, upLoop := pushes scaled.2.toNat })

def push : Option System :=
  match s.upLoop with
  | .pushing (left + 1) =>
    some { s with
      createQueue := s.createQueue.push s.nextRef
      upLoop := pushes left
      nextRef := s.nextRef + 1 }
  | _ => none

def receiveTrigger : Option System :=
  s.up .selecting (if s.sc.scaleUpTriggerCh then
    some { s with sc := { s.sc with scaleUpTriggerCh := false }, upLoop := .triggered } else none)

def startRound : Option System :=
  if s.scaleUpChan then
    none
  else
    match s.upLoop with
    | .triggered =>
      some { s with scaleUpChan := true, ticker := true, tick := false, upLoop := .selecting }
    | .ticked => some { s with scaleUpChan := true, upLoop := .selecting }
    | _ => none

def receiveTick : Option System :=
  s.up .selecting (if s.tick then some { s with tick := false, upLoop := .ticked } else none)

def spawn (downs : FinMap Nat DownPc) (nextRef : Nat) : Nat → FinMap Nat DownPc
  | 0 => downs
  | n + 1 => (spawn downs nextRef n).insert (nextRef + n) .started

def receiveScaleDown : Option System :=
  match s.downLoop with
  | .selecting _ =>
    s.locked fun sc =>
      if sc.scaleDownTriggerCh then
        some { s with
          sc := { sc with scaleDownTriggerCh := false, autoScaleDownFlag := true }
          downLoop := .selecting true }
      else
        none
  | _ => none

def scaleDownInstances (metrics : Option InvokeMetrics) : Option System :=
  if s.downLoop = .selecting true then
    s.locked fun sc =>
      let scaled := sc.scaleDownInstances metrics
      some { s with
        sc := scaled.1
        downs := spawn s.downs s.nextRef scaled.2.toNat
        downLoop := .scaled
        nextRef := s.nextRef + scaled.2.toNat }
  else
    none

def pauseScaleDown : Option System :=
  if s.downLoop = .scaled then
    s.locked fun sc =>
      some { s with
        sc := { sc with autoScaleDownFlag := false }
        downLoop := .selecting false }
  else
    none

def tryWith (retryDelay : Nat) : CreatePc :=
  if retryDelay ≤ cfg.retryDelayLimit then .creating retryDelay else .finished

def getForCreate : Option System :=
  s.createQueue.getForCreate.map fun (request, createQueue) =>
    { s with
      createQueue
      creates := s.creates.insert request (tryWith cfg cfg.initialErrorDelay) }

def createInstance (request : Nat) (result : CreateResult) : Option System :=
  match s.creates.lookup request with
  | some (.creating retryDelay) =>
    if s.funcDeleted then
      some { s with creates := s.creates.erase request }
    else
      let retried := tryWith cfg (retryDelay * cfg.retryDelayFactor)
      let pc :=
        match result with
        | .created => .finished
        | .unrecoverable => if cfg.reservedInstanceAlwaysRetry then retried else .finished
        | .failed => retried
      some { s with creates := s.creates.insert request pc }
  | _ => none

def createCallback (request : Nat) : Option System :=
  match s.creates.lookup request with
  | some .finished =>
    s.locked fun sc =>
      some { s with
        sc := sc.handlePendingInsNumDecrease 1
        creates := s.creates.erase request }
  | _ => none

/-- `scaleDownInstance` up to the cancellation of a request, or to the deletion of an instance. -/
def scaleDownInstance (g : Nat) : Option System :=
  match s.downs.lookup g with
  | some .started =>
    if s.funcDeleted then
      some { s with downs := s.downs.erase g }
    else
      match s.createQueue.getForCancel with
      | some (_, createQueue) => some { s with createQueue, downs := s.downs.insert g .finished }
      | none => some { s with downs := s.downs.insert g .deleting }
  | _ => none

def instanceDeleted (g : Nat) : Option System :=
  match s.downs.lookup g with
  | some .deleting => some { s with downs := s.downs.insert g .finished }
  | _ => none

def scaleDownCallback (g : Nat) : Option System :=
  match s.downs.lookup g with
  | some .finished =>
    s.locked fun sc =>
      some { s with
        sc := sc.handlePendingInsNumIncrease 1
        downs := s.downs.erase g }
  | _ => none

def step : Event → Option System
  | .addRequest => some { s with unannounced := s.unannounced + 1 }
  | .answerRequest true =>
    if s.announced = 0 then none else some { s with announced := s.announced - 1 }
  | .answerRequest false =>
    if s.unannounced = 0 then none else some { s with unannounced := s.unannounced - 1 }
  | .triggerRequest waiting => s.triggerRequest waiting
  | .triggerScale minConcurrency => s.triggerScale minConcurrency
  | .receiveRound => s.receiveRound
  | .checkRequests => s.checkRequests
  | .checkDemand => s.checkDemand
  | .pauseScale => s.pauseScale
  | .scaleUpInstances metrics => s.scaleUpInstances metrics
  | .push => s.push
  | .receiveTrigger => s.receiveTrigger
  | .startRound => s.startRound
  | .fireTicker => if s.ticker then some { s with tick := true } else none
  | .receiveTick => s.receiveTick
  | .stopUpLoop => s.up .selecting (if s.stopCh then some { s with upLoop := .done } else none)
  | .receiveScaleDown => s.receiveScaleDown
  | .scaleDownInstances metrics => s.scaleDownInstances metrics
  | .pauseScaleDown => s.pauseScaleDown
  | .stopDownLoop => if s.stopCh then some { s with downLoop := .done } else none
  | .getForCreate => s.getForCreate cfg
  | .createInstance request result => s.createInstance cfg request result
  | .createCallback request => s.createCallback request
  | .scaleDownInstance g => s.scaleDownInstance g
  | .instanceDeleted g => s.instanceDeleted g
  | .scaleDownCallback g => s.scaleDownCallback g
  | .handleInsThdUpdate inUseInsThdDiff totalInsThdDiff =>
    s.locked fun sc => some { s with sc := sc.handleInsThdUpdate inUseInsThdDiff totalInsThdDiff }
  | .updateCreateMetrics coldStartTime =>
    s.locked fun sc => some { s with sc := sc.updateCreateMetrics coldStartTime }
  | .handleFuncSpecUpdate concurrentNum =>
    s.locked fun sc =>
      some { s with sc := { sc with concurrentNum := getConcurrentNum concurrentNum } }
  | .destroy => some { s with stopCh := true, createQueue := { s.createQueue with stopped := true } }
  | .deleteFunction => some { s with funcDeleted := true }

structure Init : Prop where
  concurrentNum : s.sc.concurrentNum = getConcurrentNum cfg.concurrentNum
  pendingInsThdNum : s.sc.pendingInsThdNum = 0
  minScaleDemand : s.sc.minScaleDemand = 0
  autoScaleUpFlag : s.sc.autoScaleUpFlag = false
  scaleUpTriggerCh : s.sc.scaleUpTriggerCh = false
  createQueue : s.createQueue = {}
  creates : s.creates = ∅
  downs : s.downs = ∅
  upLoop : s.upLoop = .selecting
  scaleUpChan : s.scaleUpChan = false
  ticker : s.ticker = false
  tick : s.tick = false
  announced : s.announced = 0
  funcDeleted : s.funcDeleted = false

end System

def autoScaler (cfg : Config) : StepSystem System Event Unit where
  init := System.Init cfg
  step s e := (s.step cfg e).map (·, ())

def System.created (cfg : Config) : System where
  sc :=
    { scaleUpWindow := 1
      scaleDownWindow := 1
      concurrentNum := getConcurrentNum cfg.concurrentNum }

theorem System.init_created (cfg : Config) : (System.created cfg).Init cfg := by
  constructor <;> rfl

end Yuanrong.Scaling
