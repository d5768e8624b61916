import Yuanrong.Lib.StepSystem
import Yuanrong.Libruntime.MemoryStore

/-!
# Waiting for a number of objects

`WaitUntilReady` polls in rounds: a look at every id under the manager's mutex, with reads of the
memory store in between, and then a wait on an entity that completing threads fill. An event is one
such look, a read after the wait, or a section of a completing thread, which first marks the object
in the memory store and later tells the entities. Other waiting calls only drop entries of objects
that they find ready.
-/

namespace Yuanrong.Libruntime

structure InternalWaitResult where
  readyIds : List String := []
  unreadyIds : List String := []
  exceptionIds : FinMap String ErrorInfo := ∅

/-- Before a round, in the scan of `GetWaitResult`, waiting, before the second read, between rounds,
or at its end. -/
inductive WaitPhase
  | round
  | scan (lastWait : Bool) (timeout : Int) (rest readyIds unreadyIds : List String)
  | wait (lastWait : Bool) (timeout : Int) (readyIds unreadyIds : List String) (entity : Nat)
  | read (lastWait : Bool) (readyIds unreadyIds : List String) (entity : Nat)
  | pause
  | returned (enough : Bool)
deriving DecidableEq

/-- `toTell` are completions still to be told of, `setReadyIds` those of the run. -/
structure WaitState where
  idList : List String
  minReadyNum : Nat
  timeoutMs : Int
  remainTimeout : Int
  phase : WaitPhase := .round
  result : InternalWaitResult := {}
  storeMap : FinMap String ObjectDetail
  manager : WaitingObjectManager
  nextEntity : Nat
  toTell : List (String × Option ErrorInfo) := []
  setReadyIds : List String := []

def batchWaitTimeoutMs : Int := 1000

def waitTimeoutMs : Int := 990

namespace WaitState

inductive Event
  | setReady (id : String)
  | setError (id : String) (err : ErrorInfo)
  | tell (i : Nat)
  | dropReady (id : String)
  | wake
  | step
deriving DecidableEq

variable (s : WaitState)

def locked : Bool :=
  match s.phase with
  | .scan _ _ _ _ _ => true
  | _ => false

def complete (id : String) (outcome : Option ErrorInfo) : WaitState :=
  match s.storeMap.lookup id with
  | none => s
  | some d =>
    if d.ready then s
    else
      { s with
        storeMap := s.storeMap.insert id (d.finish outcome)
        toTell := s.toTell ++ [(id, outcome)]
        setReadyIds := if outcome.isNone then id :: s.setReadyIds else s.setReadyIds }

def getLastError (id : String) : ErrorInfo := ((s.storeMap.lookup id).map ObjectDetail.err).getD {}

def isReady (id : String) : Bool := ((s.storeMap.lookup id).map ObjectDetail.ready).getD false

/-- The result with another exception; the first one of an id stays. -/
def addException (result : InternalWaitResult) (id : String) (err : ErrorInfo) : InternalWaitResult :=
  if (result.exceptionIds.lookup id).isSome then result
  else { result with exceptionIds := result.exceptionIds.insert id err }

def look (lastWait : Bool) (timeout : Int) (id : String) (rest readyIds unreadyIds : List String) :
    WaitState :=
  if (s.manager.unreadyObjectMap.lookup id).isSome ∧ s.isReady id = false then
    { s with phase := .scan lastWait timeout rest readyIds (unreadyIds ++ [id]) }
  else
    { s with
      phase := .scan lastWait timeout rest
        (if (s.getLastError id).OK then readyIds ++ [id] else readyIds) unreadyIds
      result := if (s.getLastError id).OK then s.result
        else addException s.result id (s.getLastError id)
      manager := { s.manager with unreadyObjectMap := s.manager.unreadyObjectMap.erase id } }

def register (unreadyObjectMap : FinMap String (List Nat)) (entity : Nat) :
    List String → FinMap String (List Nat)
  | [] => unreadyObjectMap
  | id :: rest =>
    register (unreadyObjectMap.insert id ((unreadyObjectMap.lookup id).getD [] ++ [entity])) entity rest

/-- The end of the scan: enough ids are completed, or a waiting entity is made for the others. -/
def scanned (lastWait : Bool) (timeout : Int) (readyIds unreadyIds : List String) : WaitState :=
  if s.minReadyNum ≤ readyIds.length + s.result.exceptionIds.len then
    { s with phase := .returned true, result := { s.result with readyIds, unreadyIds } }
  else
    { s with
      phase := .wait lastWait timeout readyIds unreadyIds s.nextEntity
      nextEntity := s.nextEntity + 1
      manager := {
        unreadyObjectMap := register s.manager.unreadyObjectMap s.nextEntity unreadyIds
        entities := s.manager.entities.insert s.nextEntity
          { minReadyNum := s.minReadyNum - readyIds.length - s.result.exceptionIds.len } } }

def woken (lastWait : Bool) (readyIds unreadyIds : List String) (entity : Nat) (w : WaitingEntity) :
    WaitState :=
  { s with
    phase := .read lastWait readyIds unreadyIds entity
    result := w.exceptionIds.entries.foldl (fun result e => addException result e.1 e.2) s.result }

def collected (lastWait : Bool) (readyIds : List String) (w : WaitingEntity) : WaitState :=
  let all := readyIds ++ w.readyObjIds
  let needReturn : Bool := s.minReadyNum ≤ all.length + s.result.exceptionIds.len
  if needReturn ∨ lastWait then
    { s with
      phase := .returned needReturn
      result := { s.result with
        readyIds := all
        unreadyIds := s.result.unreadyIds ++ s.idList.filter fun id =>
          !all.contains id && (s.result.exceptionIds.lookup id).isNone } }
  else
    { s with phase := .pause }

def startRound : WaitState :=
  let timeout := if s.timeoutMs = -1 then batchWaitTimeoutMs else min s.remainTimeout batchWaitTimeoutMs
  { s with
    phase := .scan false timeout s.idList [] []
    remainTimeout := if 0 ≤ s.remainTimeout then s.remainTimeout - timeout else s.remainTimeout
    result := {} }

def endRound : WaitState :=
  if s.remainTimeout ≤ 0 ∧ s.timeoutMs ≠ -1 then { s with phase := .scan true 0 s.idList [] [] }
  else { s with phase := .round }

def next : Event → Option WaitState
  | .setReady id => some (s.complete id none)
  | .setError id err => if err.OK then none else some (s.complete id (some err))
  | .tell i =>
    match s.toTell[i]? with
    | some (id, outcome) =>
      if s.locked then none
      else some { s with
        manager := s.manager.complete id outcome, toTell := s.toTell.eraseIdx i }
    | none => none
  | .dropReady id =>
    if s.locked = false ∧ s.isReady id = true then
      some { s with
        manager := { s.manager with unreadyObjectMap := s.manager.unreadyObjectMap.erase id } }
    else none
  | .wake =>
    match s.phase with
    | .wait lastWait timeout readyIds unreadyIds entity =>
      match s.manager.entities.lookup entity with
      | some w =>
        if w.isFinished ∨ 0 ≤ min timeout waitTimeoutMs then
          some (s.woken lastWait readyIds unreadyIds entity w)
        else none
      | none => none
    | _ => none
  | .step =>
    match s.phase with
    | .round => some s.startRound
    | .scan lastWait timeout [] readyIds unreadyIds =>
      some (s.scanned lastWait timeout readyIds unreadyIds)
    | .scan lastWait timeout (id :: rest) readyIds unreadyIds =>
      some (s.look lastWait timeout id rest readyIds unreadyIds)
    | .read lastWait readyIds _ entity =>
      (s.manager.entities.lookup entity).map fun w => s.collected lastWait readyIds w
    | .pause => some s.endRound
    | _ => none

end WaitState

/-- One call of `WaitUntilReady` for different ids none of which is released, with completions under
way. An object in the store that is not ready has an entry; an id need not be in the store. -/
def waitUntilReady : StepSystem WaitState WaitState.Event Unit where
  init s :=
    s = {
      idList := s.idList
      minReadyNum := s.minReadyNum
      timeoutMs := s.timeoutMs
      remainTimeout := s.timeoutMs
      storeMap := s.storeMap
      manager := s.manager
      nextEntity := s.nextEntity
      toTell := s.toTell
      setReadyIds := s.toTell.filterMap fun c => if c.2.isNone then some c.1 else none } ∧
    s.idList.Nodup ∧
    (∀ id ∈ s.idList, ∀ d, s.storeMap.lookup id = some d → d.ready = false →
      (s.manager.unreadyObjectMap.lookup id).isSome) ∧
    (∀ c ∈ s.toTell, ∃ d, s.storeMap.lookup c.1 = some d ∧ d.ready = true ∧
      ∀ err, c.2 = some err → d.err = err ∧ err.OK = false) ∧
    (∀ id es, s.manager.unreadyObjectMap.lookup id = some es → ∀ e ∈ es, e < s.nextEntity)
  step s e := (s.next e).map (·, ())

/-- The same for ids that are all in the store. -/
def waitForStored : StepSystem WaitState WaitState.Event Unit :=
  { waitUntilReady with
    init := fun s => waitUntilReady.init s ∧ ∀ id ∈ s.idList, (s.storeMap.lookup id).isSome }

end Yuanrong.Libruntime
