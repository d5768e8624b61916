import Yuanrong.Lib.FinMap
import Yuanrong.Lib.StepSystem

/-!
# Asynchronous release of references

`AsyncDecreRef` queues the ids to release per tenant, and a thread submits them in batches to
`GDecreaseRef`. An event is one section under the mutex, one read of the thread outside it, or one
call of the client, which answers with the occurrences of its batch that have failed.
-/

namespace Yuanrong.Libruntime

/-- One pushed occurrence of an id; `place` is its place among all that were pushed. -/
structure Occurrence where
  objId : String
  tenantId : String
  place : Nat
deriving DecidableEq

structure Submission where
  tenantId : String
  batch : List Occurrence
  failed : List Occurrence
deriving DecidableEq

inductive ProcessPhase
  | notStarted
  | loop
  | checkEmpty
  | waiting
  | popping
  | submitting (tenantId : String) (objs : List Occurrence)
  | requeuing (tenantId : String) (failedIds : List Occurrence)
  | returned
deriving DecidableEq

def ProcessPhase.taken : ProcessPhase → List Occurrence
  | .submitting _ objs => objs
  | .requeuing _ failedIds => failedIds
  | _ => []

def ProcessPhase.tenant : ProcessPhase → Option String
  | .submitting tenantId _ => some tenantId
  | .requeuing tenantId _ => some tenantId
  | _ => none

/-- The fields from `stoppedWithClient` on record the run. -/
structure AsyncDecreRef where
  objQueue : FinMap String (List Occurrence) := ∅
  running : Bool := false
  nonEmpty : Bool := false
  client : Bool := false
  process : ProcessPhase := .notStarted
  retryTime : Nat := 0
  stoppedWithClient : Bool := false
  pushed : List Occurrence := []
  submissions : List Submission := []
  released : List Occurrence := []
  abandoned : List Occurrence := []
  dropped : List Occurrence := []

def decreRefBatchSize : Nat := 1000

def decreRefMaxRetry : Nat := 2

namespace AsyncDecreRef

inductive Event
  | init (client : Bool)
  | stop
  | join
  | push (objs : List String) (tenantId : String)
  | loopTest
  | isEmpty
  | wake
  | popBatch (order : List String)
  | gDecreaseRef (err : Bool) (failedIds others : List Occurrence)
  | requeue
deriving DecidableEq

variable (s : AsyncDecreRef)

def newOccurrences (objs : List String) (tenantId : String) : List Occurrence :=
  objs.mapIdx fun i objId => { objId, tenantId, place := s.pushed.length + i }

def append (tenantId : String) (objs : List Occurrence) : FinMap String (List Occurrence) :=
  s.objQueue.insert tenantId ((s.objQueue.lookup tenantId).getD [] ++ objs)

def push (objs : List String) (tenantId : String) : AsyncDecreRef :=
  if s.running ∧ objs ≠ [] then
    { s with
      objQueue := s.append tenantId (s.newOccurrences objs tenantId)
      nonEmpty := true
      pushed := s.pushed ++ s.newOccurrences objs tenantId }
  else
    s

/-- Empty queues are dropped, and a batch is cut from the end of the first other one. -/
def popFrom (size : Nat) (objQueue : FinMap String (List Occurrence)) :
    List String → FinMap String (List Occurrence) × Option (String × List Occurrence)
  | [] => (objQueue, none)
  | tenantId :: rest =>
    match objQueue.lookup tenantId with
    | none => popFrom size objQueue rest
    | some [] => popFrom size (objQueue.erase tenantId) rest
    | some objs =>
      if objs.length ≤ size then (objQueue.erase tenantId, some (tenantId, objs))
      else
        (objQueue.insert tenantId (objs.take (objs.length - size)),
          some (tenantId, objs.drop (objs.length - size)))

def popBatch (order : List String) : AsyncDecreRef :=
  { s with
    objQueue := (popFrom decreRefBatchSize s.objQueue order).1
    nonEmpty := !(popFrom decreRefBatchSize s.objQueue order).1.entries.isEmpty
    process := match (popFrom decreRefBatchSize s.objQueue order).2 with
      | some (tenantId, objs) => .submitting tenantId objs
      | none => .loop }

/-- The answer of `GDecreaseRef` for a batch; an error that names no id is one of all. -/
def answered (tenantId : String) (objs failedIds others : List Occurrence) : AsyncDecreRef :=
  let s₁ := { s with
    submissions := { tenantId, batch := objs, failed := failedIds } :: s.submissions
    released := s.released ++ others }
  if failedIds = [] then { s₁ with retryTime := 0, process := .loop }
  else if decreRefMaxRetry ≤ s.retryTime + 1 then
    { s₁ with retryTime := 0, process := .loop, abandoned := s.abandoned ++ failedIds }
  else
    { s₁ with retryTime := s.retryTime + 1, process := .requeuing tenantId failedIds }

def gDecreaseRef (err : Bool) (failedIds others : List Occurrence) : Option AsyncDecreRef :=
  match s.process with
  | .submitting tenantId objs =>
    if s.client then
      if (failedIds ++ others).Perm objs then
        if err ∧ failedIds = [] then some (s.answered tenantId objs objs [])
        else some (s.answered tenantId objs failedIds others)
      else none
    else some { s with process := .returned, dropped := s.dropped ++ objs }
  | _ => none

def requeue : Option AsyncDecreRef :=
  match s.process with
  | .requeuing tenantId failedIds =>
    some { s with objQueue := s.append tenantId failedIds, nonEmpty := true, process := .loop }
  | _ => none

def next : Event → Option AsyncDecreRef
  | .init client =>
    if s.process = .notStarted then
      some { s with
        client, running := true, nonEmpty := false, process := .loop, retryTime := 0
        stoppedWithClient := false }
    else none
  | .stop => some { s with running := false }
  | .join =>
    if s.process = .returned ∧ s.running = false then
      some { s with process := .notStarted, client := false, stoppedWithClient := s.client }
    else none
  | .push objs tenantId => some (s.push objs tenantId)
  | .loopTest =>
    if s.process = .loop then
      some { s with process := if s.running then .waiting else .checkEmpty }
    else none
  | .isEmpty =>
    if s.process = .checkEmpty then
      some { s with process := if s.objQueue.entries.isEmpty then .returned else .waiting }
    else none
  | .wake =>
    if s.process = .waiting ∧ (s.nonEmpty = true ∨ s.running = false) then
      some { s with nonEmpty := false, process := .popping }
    else none
  | .popBatch order =>
    if s.process = .popping ∧ order.Perm s.objQueue.keys then some (s.popBatch order) else none
  | .gDecreaseRef err failedIds others => s.gDecreaseRef err failedIds others
  | .requeue => s.requeue

def failures (x : Occurrence) : Nat := s.submissions.countP fun sub => sub.failed.contains x

end AsyncDecreRef

def asyncDecreRef : StepSystem AsyncDecreRef AsyncDecreRef.Event Unit where
  init s := s = {}
  step s e := (s.next e).map (·, ())

end Yuanrong.Libruntime
