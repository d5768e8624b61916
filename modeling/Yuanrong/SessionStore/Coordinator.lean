import Yuanrong.Lib.FinMap
import Yuanrong.Lib.StepSystem

/-!
# The coordinator of the session store

Saves and deletes of session records go through a bounded queue to one worker, which is started by
the first of them. `Stop` cancels a context, under the mutex that also guards the check of the
context and the send, and waits for the worker, which works through the queue before it leaves. An
event is one section under the mutex, or one step outside of it. Whether an operation has its effect
is an input.
-/

namespace Yuanrong.SessionStore

def asyncQueueSize : Nat := 1024

structure AsyncStoreOp (ρ : Type) where
  isDelete : Bool
  key : String
  record : Option ρ
deriving DecidableEq

/-- A caller of `enqueue`: before the worker is started, or before the mutex. -/
inductive CallerPc (ρ : Type)
  | starting (op : AsyncStoreOp ρ)
  | sending (op : AsyncStoreOp ρ)
deriving DecidableEq

/-- Not started, in its `select`, in the drain, with an operation in one of the two, or gone. -/
inductive WorkerPc (ρ : Type)
  | notStarted
  | selecting
  | draining
  | processing (op : AsyncStoreOp ρ) (inDrain : Bool)
  | done
deriving DecidableEq

/-- A caller of `stop`: before the look at `started`, in the wait for the worker, or back. -/
inductive StopPc
  | cancelled
  | waiting
  | returned
deriving DecidableEq

/-- `failed` says that a delete had no effect, `afterStop` that a `Stop` had returned before. -/
structure Cleaner where
  keys : List String
  left : List String
  failed : Bool := false
  afterStop : Bool
deriving DecidableEq

/-- `accepted` are the operations put into the queue, `applied` those carried out. -/
structure System (ρ : Type) where
  store : FinMap String ρ := ∅
  queue : List (AsyncStoreOp ρ) := []
  ctxDone : Bool := false
  started : Bool := false
  worker : WorkerPc ρ := .notStarted
  enqueued : Nat := 0
  processed : Nat := 0
  callers : FinMap Nat (CallerPc ρ) := ∅
  stops : FinMap Nat StopPc := ∅
  cleaners : FinMap Nat Cleaner := ∅
  accepted : List (AsyncStoreOp ρ) := []
  applied : List (AsyncStoreOp ρ) := []

inductive Event (ρ : Type)
  | saveRecord (c : Nat) (key : String) (record : ρ)
  | deleteRecord (c : Nat) (key : String)
  | startWorker (c : Nat)
  | send (c : Nat)
  | receive
  | receiveCtxDone
  | process (effect : Bool)
  | drained
  | cancel (c : Nat)
  | loadStarted (c : Nat)
  | receiveDone (c : Nat)
  | cleanRecords (c : Nat) (keys : List String)
  | cleanNext (c : Nat) (effect : Bool)

namespace System

variable {ρ : Type} (s : System ρ)

def stopReturned : Bool := s.stops.entries.any fun entry => entry.2 = .returned

def enqueue (c : Nat) (op : AsyncStoreOp ρ) : Option (System ρ) :=
  if s.callers.lookup c = none then
    if op.key = "" then some s
    else some { s with callers := s.callers.insert c (.starting op) }
  else
    none

def startWorker (c : Nat) : Option (System ρ) :=
  match s.callers.lookup c with
  | some (.starting op) =>
    some { s with
      started := true
      worker := if s.started then s.worker else .selecting
      callers := s.callers.insert c (.sending op) }
  | _ => none

def send (c : Nat) : Option (System ρ) :=
  match s.callers.lookup c with
  | some (.sending op) =>
    if s.ctxDone = false ∧ s.queue.length < asyncQueueSize then
      some { s with
        queue := s.queue ++ [op]
        enqueued := s.enqueued + 1
        accepted := s.accepted ++ [op]
        callers := s.callers.erase c }
    else
      some { s with callers := s.callers.erase c }
  | _ => none

def receive : Option (System ρ) :=
  match s.worker, s.queue with
  | .selecting, op :: rest => some { s with queue := rest, worker := .processing op false }
  | .draining, op :: rest => some { s with queue := rest, worker := .processing op true }
  | _, _ => none

def receiveCtxDone : Option (System ρ) :=
  match s.worker with
  | .selecting => if s.ctxDone then some { s with worker := .draining } else none
  | _ => none

def perform (op : AsyncStoreOp ρ) (store : FinMap String ρ) : FinMap String ρ :=
  if op.isDelete then
    store.erase op.key
  else
    match op.record with
    | none => store
    | some record => store.insert op.key record

def process (effect : Bool) : Option (System ρ) :=
  match s.worker with
  | .processing op inDrain =>
    some { s with
      store := if effect then perform op s.store else s.store
      worker := if inDrain then .draining else .selecting
      processed := s.processed + 1
      applied := s.applied ++ [op] }
  | _ => none

def drained : Option (System ρ) :=
  match s.worker, s.queue with
  | .draining, [] => some { s with worker := .done }
  | _, _ => none

def cancel (c : Nat) : Option (System ρ) :=
  if s.stops.lookup c = none then
    some { s with ctxDone := true, stops := s.stops.insert c .cancelled }
  else
    none

def loadStarted (c : Nat) : Option (System ρ) :=
  if s.stops.lookup c = some .cancelled then
    some { s with stops := s.stops.insert c (if s.started then .waiting else .returned) }
  else
    none

def receiveDone (c : Nat) : Option (System ρ) :=
  match s.stops.lookup c, s.worker with
  | some .waiting, .done => some { s with stops := s.stops.insert c .returned }
  | _, _ => none

def cleanRecords (c : Nat) (keys : List String) : Option (System ρ) :=
  if s.cleaners.lookup c = none then
    some { s with
      cleaners := s.cleaners.insert c { keys, left := keys, afterStop := s.stopReturned } }
  else
    none

def cleanNext (c : Nat) (effect : Bool) : Option (System ρ) :=
  match s.cleaners.lookup c with
  | none => none
  | some cleaner =>
    match cleaner.left with
    | [] => none
    | key :: left =>
      some { s with
        store := if effect then s.store.erase key else s.store
        cleaners := s.cleaners.insert c
          { cleaner with left, failed := cleaner.failed || !effect } }

def step : Event ρ → Option (System ρ)
  | .saveRecord c key record => s.enqueue c { isDelete := false, key, record := some record }
  | .deleteRecord c key => s.enqueue c { isDelete := true, key, record := none }
  | .startWorker c => s.startWorker c
  | .send c => s.send c
  | .receive => s.receive
  | .receiveCtxDone => s.receiveCtxDone
  | .process effect => s.process effect
  | .drained => s.drained
  | .cancel c => s.cancel c
  | .loadStarted c => s.loadStarted c
  | .receiveDone c => s.receiveDone c
  | .cleanRecords c keys => s.cleanRecords c keys
  | .cleanNext c effect => s.cleanNext c effect

structure Init : Prop where
  queue : s.queue = []
  ctxDone : s.ctxDone = false
  started : s.started = false
  worker : s.worker = .notStarted
  callers : s.callers = ∅
  stops : s.stops = ∅
  cleaners : s.cleaners = ∅
  accepted : s.accepted = []
  applied : s.applied = []

end System

def coordinator (ρ : Type) : StepSystem (System ρ) (Event ρ) Unit where
  init := System.Init
  step s e := (s.step e).map (·, ())

end Yuanrong.SessionStore
