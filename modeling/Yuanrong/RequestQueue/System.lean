import Yuanrong.Lib.FinMap
import Yuanrong.Lib.StepSystem

/-!
# The queue of pending acquire requests

An acquire that finds no instance waits in a queue for the answer on its result channel. Goroutines
of the schedulers take requests out, try to schedule them without the lock and put them back if that
fails. Another goroutine answers the requests that have waited too long, and all that are left when
the queue is stopped. An event is one section under the lock, or one step between two of them.
Readings of the clock are inputs. A result channel has room for one answer, so only a second send
blocks.
-/

namespace Yuanrong.RequestQueue

/-- An error with a code, or one without. -/
inductive GoError
  | plain (msg : String)
  | sn (code : Int) (msg : String)
deriving DecidableEq

namespace GoError

def userErrorMin : Int := 4000
def userErrorMax : Int := 4999
def userFuncEntryNotFoundErrCode : Int := 4001
def kernelEtcdWriteFailedCode : Int := 161913
def wiseCloudNuwaColdStartErrCode : Int := 161915
def gettingPodErrorCode : Int := 150431
def cancelGeneralizePod : Int := 150439
def reachMaxInstancesCode : Int := 150429
def reachMaxOnDemandInstancesPerTenant : Int := 150432

def isUserError (code : Int) : Bool := userErrorMin ≤ code && code ≤ userErrorMax

def isUnrecoverableError : GoError → Bool
  | .plain _ => false
  | .sn code _ =>
    isUserError code || code = userFuncEntryNotFoundErrCode || code = kernelEtcdWriteFailedCode ||
      code = wiseCloudNuwaColdStartErrCode

def needTryError : GoError → Bool
  | .plain _ => false
  | .sn code _ =>
    code = gettingPodErrorCode || code = cancelGeneralizePod || code = reachMaxInstancesCode ||
      code = reachMaxOnDemandInstancesPerTenant

def errInsReqTimeout : GoError := .plain "instance request timeout"
def errInsThdReqReachMaxNum : GoError := .plain "instance thread request reach max number"
def funcMetaNotFound : GoError := .sn 150424 "function metadata not found"

end GoError

structure PendingInsAcqRsp where
  insAlloc : Option String
  error : Option GoError
deriving DecidableEq

/-- `responses` is all that was sent, `cancelled` that a `CancelRequest` found it. -/
structure PendingInsAcqReq where
  createdTime : Int
  responses : List PendingInsAcqRsp := []
  cancelled : Bool := false
deriving DecidableEq

abbrev Requests := FinMap Nat PendingInsAcqReq

namespace Requests

def respond (requests : Requests) (ref : Nat) (rsp : PendingInsAcqRsp) : Requests :=
  match requests.lookup ref with
  | none => requests
  | some p => requests.insert ref { p with responses := p.responses ++ [rsp] }

def cancel (requests : Requests) (ref : Nat) : Requests :=
  match requests.lookup ref with
  | none => requests
  | some p => requests.insert ref { p with cancelled := true }

end Requests

def milliseconds (d : Int) : Int := d.tdiv 1000000

def timeoutAccuracy : Int := 500 * 1000000
def defaultRequestTimeout : Int := 30 * 1000000000
def defaultTriggerChSize : Nat := 10000

/-- Whether the backend is the worker manager. -/
structure Config where
  backendFG : Bool

/-- `triggerCh` counts triggers, and `schFuncMap` has the goroutine registered last. -/
structure InsAcqReqQueue where
  queue : List Nat := []
  maxQueueLen : Int
  insNum : Int := 0
  recoverableError : Option GoError := none
  unrecoverableError : Option GoError := none
  requestTimeout : Int
  triggerCh : Nat := 0
  stopCh : Bool := false
  schFuncMap : FinMap String Nat := ∅

namespace InsAcqReqQueue

variable (iq : InsAcqReqQueue)

def triggerSchedule : InsAcqReqQueue :=
  if iq.triggerCh < defaultTriggerChSize then { iq with triggerCh := iq.triggerCh + 1 } else iq

def addRequest (ref : Nat) : Except GoError InsAcqReqQueue :=
  match iq.unrecoverableError with
  | some err => .error err
  | none =>
    if iq.maxQueueLen ≤ iq.queue.length then
      .error .errInsThdReqReachMaxNum
    else
      let pushed := { iq with queue := iq.queue ++ [ref] }
      .ok (if iq.queue.length = 0 then pushed.triggerSchedule else pushed)

/-- Whether the front of the queue is answered by the timeout loop, that reads `currentTime`. -/
def timedOut (currentTime : Int) (p : PendingInsAcqReq) : Bool :=
  milliseconds iq.requestTimeout ≤
    milliseconds (currentTime - p.createdTime + timeoutAccuracy)

/-- What `TimeoutReqHandleLoop` leaves of the queue, and how long the front may wait. -/
def handleTimeouts (currentTime : Int) : List Nat → Requests → List Nat × Requests × Int
  | [], requests => ([], requests, 0)
  | ref :: rest, requests =>
    match requests.lookup ref with
    | none => handleTimeouts currentTime rest requests
    | some p =>
      if iq.timedOut currentTime p then
        handleTimeouts currentTime rest (requests.respond ref
          { insAlloc := none, error := some (iq.recoverableError.getD .errInsReqTimeout) })
      else
        (ref :: rest, requests, iq.requestTimeout - (currentTime - p.createdTime))

def clearReqQueueWithError (err : GoError) (requests : Requests) : InsAcqReqQueue × Requests :=
  ({ iq with queue := [] }, iq.queue.foldl (fun requests ref =>
    requests.respond ref { insAlloc := none, error := some err }) requests)

def updateRequestTimeout (requestTimeout : Int) : InsAcqReqQueue :=
  if requestTimeout = iq.requestTimeout then
    iq
  else if requestTimeout < defaultRequestTimeout then
    { iq with requestTimeout := defaultRequestTimeout }
  else
    { iq with requestTimeout }

end InsAcqReqQueue

/-- In its `select`, before a pop, in the scheduling of a request, after it, or gone. -/
inductive WorkerPc
  | waiting
  | popping
  | scheduling (ref : Nat)
  | failed (ref : Nat)
  | scheduled (ref : Nat) (insAlloc : String)
  | done
deriving DecidableEq

def WorkerPc.held : WorkerPc → Option Nat
  | .scheduling ref => some ref
  | .failed ref => some ref
  | .scheduled ref _ => some ref
  | _ => none

/-- `scheCh` counts the triggers in its channel. -/
structure Worker where
  scheCh : Nat := 0
  pc : WorkerPc := .waiting
deriving DecidableEq

/-- Where the timeout loop is: in its `select`, after a trigger or the timer, after the stop, or
gone. -/
inductive LoopPc
  | selecting
  | woken (currentTime : Int)
  | stopping
  | done
deriving DecidableEq

/-- What a call of `HandleCreateError` that found the queue running still has to do. -/
inductive HandlerPc
  | checked (createError : Option GoError)
  | clear (createError : GoError)
  | delay (createError : GoError)
deriving DecidableEq

/-- `timer` is the duration that the timeout loop waits for, and `nextRef` is above every request
accepted. -/
structure System where
  iq : InsAcqReqQueue
  requests : Requests := ∅
  workers : FinMap Nat Worker := ∅
  handlers : FinMap Nat HandlerPc := ∅
  loop : LoopPc := .selecting
  timer : Option Int := none
  nextRef : Nat := 0

inductive Event
  | addRequest (createdTime : Int)
  | cancelRequest (ref : Nat)
  | registerSchFunc (schFuncKey : String) (w : Nat)
  | scheduleRequest (schFuncKey : String) (seen : Nat)
  | take (w : Nat)
  | leave (w : Nat)
  | pop (w : Nat)
  | schFunc (w : Nat) (result : Except GoError String)
  | settle (w : Nat)
  | trigger (currentTime : Int)
  | timeout (currentTime : Int)
  | receiveStop
  | sweep
  | handleCreateError (h : Nat) (createError : Option GoError)
  | handle (h : Nat)
  | handleInsNumUpdate (insNumDiff : Int)
  | updateRequestTimeout (requestTimeout : Int)
  | stop

namespace System

variable (cfg : Config) (s : System)

def addRequest (createdTime : Int) : System :=
  match s.iq.addRequest s.nextRef with
  | .error _ => s
  | .ok iq =>
    { s with
      iq
      requests := s.requests.insert s.nextRef { createdTime }
      nextRef := s.nextRef + 1 }

def cancelRequest (ref : Nat) : System :=
  if ref ∈ s.iq.queue then
    { s with
      iq := { s.iq with queue := s.iq.queue.erase ref }
      requests := s.requests.cancel ref }
  else
    s

def registerSchFunc (schFuncKey : String) (w : Nat) : System :=
  { s with
    iq := { s.iq with schFuncMap := s.iq.schFuncMap.insert schFuncKey w }
    workers := s.workers.insert w {} }

/-- `ScheduleRequest`. The length of the channel is read before the send, so `seen` may be out of
date. -/
def scheduleRequest (schFuncKey : String) (seen : Nat) : System :=
  match s.iq.schFuncMap.lookup schFuncKey with
  | none => s
  | some w =>
    match s.workers.lookup w with
    | none => s
    | some worker =>
      if seen = 0 then
        { s with workers := s.workers.insert w { worker with scheCh := worker.scheCh + 1 } }
      else
        s

def work (w : Nat) (f : Worker → Option System) : Option System :=
  (s.workers.lookup w).bind f

def setWorker (w : Nat) (worker : Worker) : System :=
  { s with workers := s.workers.insert w worker }

def take (w : Nat) : Option System :=
  s.work w fun worker =>
    if worker.pc = .waiting ∧ worker.scheCh ≠ 0 then
      some (s.setWorker w { scheCh := worker.scheCh - 1, pc := .popping })
    else
      none

def leave (w : Nat) : Option System :=
  s.work w fun worker =>
    if worker.pc = .waiting ∧ s.iq.stopCh = true then
      some (s.setWorker w { worker with pc := .done })
    else
      none

def pop (w : Nat) : Option System :=
  s.work w fun worker =>
    if worker.pc = .popping then
      match s.iq.queue with
      | [] => some (s.setWorker w { worker with pc := .waiting })
      | ref :: rest =>
        some { s.setWorker w { worker with pc := .scheduling ref } with
          iq := { s.iq with queue := rest } }
    else
      none

def schFunc (w : Nat) (result : Except GoError String) : Option System :=
  s.work w fun worker =>
    match worker.pc, result with
    | .scheduling ref, .ok insAlloc =>
      some (s.setWorker w { worker with pc := .scheduled ref insAlloc })
    | .scheduling ref, .error _ => some (s.setWorker w { worker with pc := .failed ref })
    | _, _ => none

/-- A request that was scheduled is answered and the next one is popped; one that was not is put
back. -/
def settle (w : Nat) : Option System :=
  s.work w fun worker =>
    match worker.pc with
    | .scheduled ref insAlloc =>
      some { s.setWorker w { worker with pc := .popping } with
        requests := s.requests.respond ref { insAlloc := some insAlloc, error := none } }
    | .failed ref =>
      some { s.setWorker w { worker with pc := .waiting } with
        iq := { s.iq with queue := s.iq.queue ++ [ref] } }
    | _ => none

def clearReqQueueWithError (err : GoError) : System :=
  let cleared := s.iq.clearReqQueueWithError err s.requests
  { s with iq := cleared.1, requests := cleared.2 }

def sweep : Option System :=
  match s.loop with
  | .woken currentTime =>
    let (queue, requests, nextReqTimeout) :=
      s.iq.handleTimeouts currentTime s.iq.queue s.requests
    some { s with
      iq := { s.iq with queue }
      requests
      loop := .selecting
      timer := if queue.length = 0 then s.timer else some nextReqTimeout }
  | .stopping => some { s.clearReqQueueWithError .funcMetaNotFound with loop := .done }
  | _ => none

/-- The sections of `HandleCreateError` and `handlerWorkMangerError` after the look at `stopCh`. -/
def handle (h : Nat) : Option System :=
  match s.handlers.lookup h with
  | none => none
  | some (.clear err) =>
    some { s.clearReqQueueWithError err with handlers := s.handlers.erase h }
  | some (.delay err) =>
    some { s with
      iq := { s.iq with recoverableError := some err }
      handlers := s.handlers.erase h }
  | some (.checked none) =>
    some { s with
      iq := { s.iq with unrecoverableError := none, recoverableError := none }
      handlers := s.handlers.erase h }
  | some (.checked (some err)) =>
    if cfg.backendFG then
      let pc := if s.iq.insNum = 0 ∧ err.needTryError = false then .clear err else .delay err
      some { s with handlers := s.handlers.insert h pc }
    else if err.isUnrecoverableError then
      let failed := { s with iq := { s.iq with unrecoverableError := some err } }
      some { (if s.iq.insNum = 0 then failed.clearReqQueueWithError err else failed) with
        handlers := s.handlers.erase h }
    else
      some { s with
        iq := { s.iq with recoverableError := some err }
        handlers := s.handlers.erase h }

def step : Event → Option System
  | .addRequest createdTime => some (s.addRequest createdTime)
  | .cancelRequest ref => some (s.cancelRequest ref)
  | .registerSchFunc schFuncKey w =>
    if s.workers.lookup w = none then some (s.registerSchFunc schFuncKey w) else none
  | .scheduleRequest schFuncKey seen => some (s.scheduleRequest schFuncKey seen)
  | .take w => s.take w
  | .leave w => s.leave w
  | .pop w => s.pop w
  | .schFunc w result => s.schFunc w result
  | .settle w => s.settle w
  | .trigger currentTime =>
    if s.loop = .selecting ∧ s.iq.triggerCh ≠ 0 then
      some { s with
        iq := { s.iq with triggerCh := s.iq.triggerCh - 1 }
        loop := .woken currentTime }
    else
      none
  | .timeout currentTime =>
    if s.loop = .selecting ∧ s.timer.isSome = true then
      some { s with timer := none, loop := .woken currentTime }
    else
      none
  | .receiveStop =>
    if s.loop = .selecting ∧ s.iq.stopCh = true then some { s with loop := .stopping } else none
  | .sweep => s.sweep
  | .handleCreateError h createError =>
    if s.iq.stopCh = true then
      some s
    else if s.handlers.lookup h = none then
      some { s with handlers := s.handlers.insert h (.checked createError) }
    else
      none
  | .handle h => s.handle cfg h
  | .handleInsNumUpdate insNumDiff =>
    some { s with iq := { s.iq with insNum := s.iq.insNum + insNumDiff } }
  | .updateRequestTimeout requestTimeout =>
    some { s with iq := s.iq.updateRequestTimeout requestTimeout }
  | .stop => some { s with iq := { s.iq with stopCh := true } }

structure Init : Prop where
  queue : s.iq.queue = []
  requests : s.requests = ∅
  workers : s.workers = ∅
  loop : s.loop = .selecting

end System

def requestQueue (cfg : Config) : StepSystem System Event Unit where
  init := System.Init
  step s e := (s.step cfg e).map (·, ())

def System.created (maxQueueLen requestTimeout : Int) : System where
  iq :=
    { maxQueueLen
      requestTimeout :=
        if requestTimeout < defaultRequestTimeout then defaultRequestTimeout else requestTimeout }

theorem System.init_created (maxQueueLen requestTimeout : Int) :
    (System.created maxQueueLen requestTimeout).Init := by
  constructor <;> rfl

end Yuanrong.RequestQueue
