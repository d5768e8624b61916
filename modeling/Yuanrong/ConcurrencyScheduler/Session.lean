import Yuanrong.ConcurrencyScheduler.Queue
import Yuanrong.SessionContext

/-!
# Session records

A session takes threads of one instance for itself. `allocThdMap` has all of them, `availThdMap`
those that no allocation uses, and `overAcqThdMap` the threads its clients were given beyond them.
-/

namespace Yuanrong.Concurrency

structure InstanceSessionConfig where
  sessionID : String := ""
  concurrency : Int := 0
deriving DecidableEq

/-- `expireCancelCh` says whether a token is there. `released` is history: a thread came back. -/
structure SessionRecord where
  availThdMap : ThreadMap
  allocThdMap : ThreadMap
  overAcqThdMap : ThreadMap
  expiring : Bool
  concurrency : Int
  sessionID : String
  sessionCtxID : String
  expireCancelCh : Bool
  insElem : Nat
  released : Bool := false

namespace SessionRecord

variable (r : SessionRecord)

def markThreadAsAvailable (threadID : String) : Option SessionRecord :=
  if (r.allocThdMap.lookup threadID).isNone then none
  else some { r with availThdMap := r.availThdMap.insert threadID () }

def getThreadFromAvailThdMap (pick : Nat) : String × SessionRecord :=
  match r.availThdMap.pick pick with
  | none => ("", r)
  | some threadID => (threadID, { r with availThdMap := r.availThdMap.erase threadID })

def getOrReplaceDesignateThreadFromAvailThdMap (designateThreadID : String) (pick : Nat) :
    Option (String × SessionRecord) :=
  if designateThreadID = "" then
    some (r.getThreadFromAvailThdMap pick)
  else if (r.availThdMap.lookup designateThreadID).isSome then
    some (designateThreadID, { r with availThdMap := r.availThdMap.erase designateThreadID })
  else if (r.allocThdMap.lookup designateThreadID).isSome then
    none
  else
    let (threadID, r) := r.getThreadFromAvailThdMap pick
    some (designateThreadID, { r with
        allocThdMap := (r.allocThdMap.erase threadID).insert designateThreadID () })

def idle : Bool := r.overAcqThdMap.len = 0 && r.availThdMap.len = r.allocThdMap.len

end SessionRecord

inductive QueueName
  | self
  | other
deriving DecidableEq

/-- Before its `select`, past the timer, about to store `expiring`, or blocked with the lock
held. -/
inductive UnbindPc
  | selecting
  | timerFired
  | cancelled
  | blocked
deriving DecidableEq

/-- A goroutine of `unbindInstanceSession`: its queue and record are fixed when it is started. -/
structure Unbind where
  insQue : QueueName
  record : Nat
  pc : UnbindPc := .selecting
deriving DecidableEq

end Yuanrong.Concurrency
