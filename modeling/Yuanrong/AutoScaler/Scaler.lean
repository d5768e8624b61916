import Mathlib.Data.Rat.Floor
import Yuanrong.Lib.FinMap

/-!
# The auto scaler and the queue of instance creations

The scaler decides from the waiting requests, the threads in use and the metrics of earlier calls
how many instances to create or delete, and counts what has not happened yet in `pendingInsThdNum`,
in threads. Creations wait in a queue, whose front is created next and whose back is cancelled
first. Durations are in seconds, and floating point is replaced by rational numbers.
-/

namespace Yuanrong.Scaling

structure InvokeMetrics where
  avgProcTime : ℚ
  insThdProcNumPS : ℚ
  insThdReqNumPS : ℚ

/-- The two channels have room for one trigger each. -/
structure AutoScaler where
  scaleUpWindow : ℚ
  scaleDownWindow : ℚ
  coldStartTime : ℚ := 0
  concurrentNum : Int
  pendingInsThdNum : Int := 0
  inUseInsThdNum : Int := 0
  totalInsThdNum : Int := 0
  remainedInsThdReqNum : Int := 0
  minScaleDemand : Int := 0
  autoScaleUpFlag : Bool := false
  autoScaleDownFlag : Bool := false
  scaleUpTriggerCh : Bool := false
  scaleDownTriggerCh : Bool := false

def getConcurrentNum (concurrentNum : Int) : Int := if concurrentNum = 0 then 1 else concurrentNum

namespace AutoScaler

variable (sc : AutoScaler)

/-- `TriggerScale`; the send would wait with the lock held if the channel were full. -/
def triggerScale (minConcurrency : Int) : Option AutoScaler :=
  let sc :=
    if sc.minScaleDemand < minConcurrency then { sc with minScaleDemand := minConcurrency } else sc
  if sc.autoScaleUpFlag then
    some sc
  else if sc.scaleUpTriggerCh then
    none
  else
    some { sc with autoScaleUpFlag := true, scaleUpTriggerCh := true }

def updateCreateMetrics (coldStartTime : ℚ) : AutoScaler :=
  if sc.coldStartTime < coldStartTime then { sc with coldStartTime } else sc

def handleInsThdUpdate (inUseInsThdDiff totalInsThdDiff : Int) : AutoScaler :=
  let sc :=
    { sc with
      inUseInsThdNum := sc.inUseInsThdNum + inUseInsThdDiff
      totalInsThdNum := sc.totalInsThdNum + totalInsThdDiff }
  if sc.concurrentNum ≤ sc.totalInsThdNum - sc.inUseInsThdNum then
    { sc with scaleDownTriggerCh := true }
  else
    sc

def handlePendingInsNumIncrease (insDiff : Int) : AutoScaler :=
  { sc with pendingInsThdNum := sc.pendingInsThdNum + insDiff * sc.concurrentNum }

def handlePendingInsNumDecrease (insDiff : Int) : AutoScaler :=
  { sc with pendingInsThdNum := sc.pendingInsThdNum - insDiff * sc.concurrentNum }

/-- The threads that a scale up with metrics asks for, before those that are pending are taken
off. -/
def scaleUpThreads (m : InvokeMetrics) (pendingInsThdReqNum : ℚ) : ℚ :=
  let procCapAvail :=
    m.insThdProcNumPS * sc.inUseInsThdNum * max (sc.scaleUpWindow - m.avgProcTime) 0
  let procNumToDo :=
    max (pendingInsThdReqNum + m.insThdReqNumPS * sc.scaleUpWindow - procCapAvail) 0
  let procWindow := sc.scaleUpWindow - sc.coldStartTime
  let scaleInsThdNum : ℚ :=
    if 0 < procWindow then
      max (⌈procNumToDo / m.insThdProcNumPS / procWindow⌉ : ℚ) 0
    else
      max (⌈procNumToDo⌉ : ℚ) 0
  let scaleInsThdNum := min scaleInsThdNum pendingInsThdReqNum
  if sc.remainedInsThdReqNum < pendingInsThdReqNum then
    max scaleInsThdNum sc.remainedInsThdReqNum
  else
    scaleInsThdNum

def scaleUpInstances (metrics : Option InvokeMetrics) (reqNum : Nat) : AutoScaler × Int :=
  let pendingInsThdReqNum : ℚ := max (reqNum : ℚ) sc.minScaleDemand
  let sc := { sc with minScaleDemand := 0 }
  match metrics with
  | none =>
    let scaleInsThdNum := max (pendingInsThdReqNum - sc.pendingInsThdNum) 0
    let scaleInsNum := ⌈scaleInsThdNum / sc.concurrentNum⌉
    (sc.handlePendingInsNumIncrease scaleInsNum, scaleInsNum)
  | some m =>
    if m.insThdProcNumPS = 0 then
      (sc, 0)
    else
      let scaleInsThdNum :=
        max (sc.scaleUpThreads m pendingInsThdReqNum - sc.pendingInsThdNum) 0
      let sc :=
        { sc with remainedInsThdReqNum := ⌊max (pendingInsThdReqNum - scaleInsThdNum) 0⌋ }
      let scaleInsNum := ⌈scaleInsThdNum / sc.concurrentNum⌉
      if 0 < scaleInsNum then (sc.handlePendingInsNumIncrease scaleInsNum, scaleInsNum)
      else (sc, 0)

def scaleDownInstances (metrics : Option InvokeMetrics) : AutoScaler × Int :=
  match metrics with
  | none =>
    let scaleInsThdNum : ℚ := max (sc.totalInsThdNum - sc.inUseInsThdNum : Int) 0
    let scaleInsThdNum := -min (-scaleInsThdNum - sc.pendingInsThdNum) 0
    let scaleInsNum := ⌊scaleInsThdNum / sc.concurrentNum⌋
    (sc.handlePendingInsNumDecrease scaleInsNum, scaleInsNum)
  | some m =>
    if m.insThdProcNumPS = 0 then
      (sc, 0)
    else
      let procNumToDo := m.insThdReqNumPS * sc.scaleDownWindow
      let procCapAvail :=
        m.insThdProcNumPS *
          (max (sc.totalInsThdNum - sc.inUseInsThdNum : ℚ) 0 * sc.scaleDownWindow +
            sc.inUseInsThdNum * max (sc.scaleUpWindow - m.avgProcTime) 0)
      let procCapExcess := max (procCapAvail - procNumToDo) 0
      let scaleInsThdNum : ℚ := ⌈procCapExcess / m.insThdProcNumPS / sc.scaleDownWindow⌉
      let scaleInsThdNum := -min (-scaleInsThdNum - sc.pendingInsThdNum) 0
      let scaleInsNum := ⌊scaleInsThdNum / sc.concurrentNum⌋
      if 0 < scaleInsNum then (sc.handlePendingInsNumDecrease scaleInsNum, scaleInsNum)
      else (sc, 0)

end AutoScaler

structure InstanceCreateQueue where
  queue : List Nat := []
  createHead : Option Nat := none
  cancelHead : Option Nat := none
  stopped : Bool := false

namespace InstanceCreateQueue

variable (iq : InstanceCreateQueue)

def next (request : Nat) : Option Nat := (iq.queue.dropWhile (· ≠ request)).tail.head?

def prev (request : Nat) : Option Nat := (iq.queue.takeWhile (· ≠ request)).getLast?

def push (request : Nat) : InstanceCreateQueue :=
  { iq with
    queue := iq.queue ++ [request]
    createHead := if iq.createHead = none then some request else iq.createHead
    cancelHead := some request }

/-- The request leaves the list, and the heads move off it. -/
def remove (request : Nat) : InstanceCreateQueue :=
  { iq with
    queue := iq.queue.erase request
    createHead := if iq.createHead = some request then iq.next request else iq.createHead
    cancelHead := if iq.cancelHead = some request then iq.prev request else iq.cancelHead }

def getForCreate : Option (Nat × InstanceCreateQueue) :=
  if iq.stopped then none else iq.createHead.map fun request => (request, iq.remove request)

def getForCancel : Option (Nat × InstanceCreateQueue) :=
  if iq.stopped then none else iq.cancelHead.map fun request => (request, iq.remove request)

end InstanceCreateQueue

end Yuanrong.Scaling
