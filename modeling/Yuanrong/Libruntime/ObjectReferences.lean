import Yuanrong.Lib.FinMap
import Yuanrong.Lib.StepSystem

/-!
# References to objects in the data system

The reference counting of `MemoryStore`: an object has a count of local references and at most one
reference in the data system. The operations mark the object's detail under the store's mutex,
release it around the call to the data system, and mark the details again one by one. Details are
known by a reference, as one that has left the map may still be in the hands of an operation. An
event is one section under a mutex, one call to the data system, or the end of a wait.

A section of `Put` and the one of `DoPutToDS` hold the detail's mutex throughout, calls to the data
system included, so each is one event; the nested objects of a `Put` are put by events of their own.
-/

namespace Yuanrong.Libruntime

inductive IncreInDataSystem
  | notIncrease
  | increasing
  | increase
deriving DecidableEq

structure RefDetail where
  localRefCount : Nat := 0
  increInDataSystem : IncreInDataSystem := .notIncrease
  storeInMemory : Bool := false
  storeInDataSystem : Bool := false
  notified : Bool := false
deriving DecidableEq

namespace RefDetail

variable (d : RefDetail)

/-- What the first section of the increasing operations does to a detail. -/
def touched (counts toDataSystem : Bool) : RefDetail :=
  { d with
    localRefCount := d.localRefCount + counts.toNat
    increInDataSystem :=
      if toDataSystem ∧ d.increInDataSystem = .notIncrease then .increasing else d.increInDataSystem }

/-- What they do after the call to the data system; `IncreaseObjRef` leaves the state as it is on
success. -/
def marked (ok marks : Bool) : RefDetail :=
  { d with
    increInDataSystem := if ok then (if marks then .increase else d.increInDataSystem) else .notIncrease
    notified := true }

/-- The end of `DoPutToDS`, with the change of the number of references in the data system. -/
def finishPut (putOk decreOk : Bool) : RefDetail × Int :=
  if putOk then ({ d with storeInDataSystem := true }, 0) else (d, if decreOk then -1 else 0)

/-- The wait in the section of `DoPutToDS` ends at once or by its timeout, as nobody else can
notify. -/
def putToDS (increOk putOk decreOk : Bool) : RefDetail × Int :=
  if d.storeInDataSystem || !d.storeInMemory then (d, 0)
  else
    match d.increInDataSystem with
    | .notIncrease =>
      if increOk then
        ((({ d with increInDataSystem := .increase, notified := true }).finishPut putOk decreOk).1,
          (d.finishPut putOk decreOk).2 + 1)
      else ({ d with notified := true }, 0)
    | .increasing => ({ d with increInDataSystem := .increase }).finishPut putOk decreOk
    | .increase => d.finishPut putOk decreOk

end RefDetail

/-- Before its call, marking the details, or waiting for those that others increase. -/
inductive IncrePhase
  | increase (todo : List (String × Nat)) (waits : List Nat)
  | mark (ok : Bool) (todo waits : List Nat)
  | wait (waits : List Nat)
deriving DecidableEq

/-- `counts`: it raises the local counts; `marks`: it sets the state on success. -/
structure IncreCall where
  ids : List String
  counts : Bool
  marks : Bool
  phase : IncrePhase
deriving DecidableEq

/-- `toDecrease` is to be made in the data system, `toPut` was found by `DoPutToDS`; then four
records. -/
structure ReferenceStore where
  storeMap : FinMap String Nat := ∅
  details : Nat → RefDetail := fun _ => {}
  nextRef : Nat := 0
  calls : FinMap Nat IncreCall := ∅
  toDecrease : FinMap Nat (List (String × Option Nat)) := ∅
  toPut : List (String × Nat) := []
  nextCall : Nat := 0
  balance : String → Int := fun _ => 0
  dsRefs : Nat → Int := fun _ => 0
  held : String → Nat := fun _ => 0
  returned : List (List String × Bool) := []

namespace ReferenceStore

inductive Event
  | increGlobalReference (ids : List String) (toDataSystem : Bool)
  | increDSGlobalReference (ids : List String)
  | increaseObjRef (ids : List String)
  | increase (k : Nat) (ok : Bool)
  | advance (k : Nat) (timeout : Bool)
  | decreGlobalReference (ids : List String)
  | decrease (k : Nat) (ok : Bool)
  | putInMemory (id : String)
  | putInDataSystem (id : String) (ok : Bool)
  | findToPut (id : String)
  | doPutToDS (i : Nat) (increOk putOk decreOk : Bool)
deriving DecidableEq

variable (s : ReferenceStore)

def setDetail (r : Nat) (d : RefDetail) : ReferenceStore :=
  { s with details := Function.update s.details r d }

def emplace (id : String) : ReferenceStore :=
  if (s.storeMap.lookup id).isSome then s
  else
    { s with
      storeMap := s.storeMap.insert id s.nextRef
      details := Function.update s.details s.nextRef {}
      nextRef := s.nextRef + 1 }

/-- One turn of the first section: what to increase in the data system, or to wait for. -/
def touch (counts toDataSystem : Bool) (id : String) :
    ReferenceStore × List (String × Nat) × List Nat :=
  match (s.emplace id).storeMap.lookup id with
  | none => (s.emplace id, [], [])
  | some r =>
    let d := (s.emplace id).details r
    ({ (s.emplace id).setDetail r (d.touched counts toDataSystem) with
        held := Function.update s.held id (s.held id + counts.toNat) },
      if toDataSystem ∧ d.increInDataSystem = .notIncrease then [(id, r)] else [],
      if toDataSystem ∧ d.increInDataSystem = .increasing then [r] else [])

def touchAll (counts toDataSystem : Bool) :
    List String → ReferenceStore → ReferenceStore × List (String × Nat) × List Nat
  | [], s => (s, [], [])
  | id :: rest, s =>
    let first := s.touch counts toDataSystem id
    let last := touchAll counts toDataSystem rest first.1
    (last.1, first.2.1 ++ last.2.1, first.2.2 ++ last.2.2)

def afterTouch (todo : List (String × Nat)) (waits : List Nat) : IncrePhase :=
  if todo = [] then .wait waits else .increase todo waits

def startCall (counts marks toDataSystem : Bool) (ids : List String) : ReferenceStore :=
  let touched := touchAll counts toDataSystem ids s
  { touched.1 with
    calls := s.calls.insert s.nextCall ⟨ids, counts, marks, afterTouch touched.2.1 touched.2.2⟩
    nextCall := s.nextCall + 1 }

def setPhase (k : Nat) (c : IncreCall) (phase : IncrePhase) : ReferenceStore :=
  { s with calls := s.calls.insert k { c with phase } }

def endCall (k : Nat) (c : IncreCall) (ok : Bool) : ReferenceStore :=
  { s with
    calls := s.calls.erase k
    returned := if c.counts then s.returned ++ [(c.ids, ok)] else s.returned }

def increased (todo : List (String × Nat)) : ReferenceStore :=
  { s with
    balance := fun id => s.balance id + todo.countP (·.1 = id)
    dsRefs := fun r => s.dsRefs r + todo.countP (·.2 = r) }

def decreased (batch : List (String × Option Nat)) : ReferenceStore :=
  { s with
    balance := fun id => s.balance id - batch.countP (·.1 = id)
    dsRefs := fun r => s.dsRefs r - batch.countP (·.2 = some r) }

/-- One turn of the loop of `DecreaseGRefInMemory`, with what it adds to the decrements in the data
system. -/
def decre (id : String) : ReferenceStore × List (String × Option Nat) :=
  if id = "" then (s, [])
  else
    match s.storeMap.lookup id with
    | none => (s, [(id, none)])
    | some r =>
      let d := s.details r
      let s₁ : ReferenceStore :=
        { s.setDetail r { d with localRefCount := d.localRefCount - 1 } with
          held := Function.update s.held id (s.held id - 1) }
      if d.localRefCount = 0 then (s, [])
      else if d.localRefCount = 1 then
        ({ s₁ with storeMap := s.storeMap.erase id },
          if d.storeInDataSystem ∨ d.increInDataSystem = .increase then [(id, some r)] else [])
      else (s₁, [])

def decreAll : List String → ReferenceStore → ReferenceStore × List (String × Option Nat)
  | [], s => (s, [])
  | id :: rest, s =>
    let first := s.decre id
    let last := decreAll rest first.1
    (last.1, first.2 ++ last.2)

def decreGlobalReference (ids : List String) : ReferenceStore :=
  let result := decreAll ids s
  if result.2 = [] then result.1
  else
    { result.1 with
      toDecrease := s.toDecrease.insert s.nextCall result.2
      nextCall := s.nextCall + 1 }

/-- A call goes on after the data system has answered: a detail is marked, a wait ends, or the call
returns. -/
def advance (k : Nat) (c : IncreCall) (timeout : Bool) : Option ReferenceStore :=
  match c.phase with
  | .increase _ _ => none
  | .mark ok (r :: rest) waits =>
    some ((s.setDetail r ((s.details r).marked ok c.marks)).setPhase k c (.mark ok rest waits))
  | .mark true [] waits => some (s.setPhase k c (.wait waits))
  | .mark false [] _ => some (s.endCall k c false)
  | .wait (r :: rest) =>
    if (s.details r).notified ∨ timeout then some (s.setPhase k c (.wait rest)) else none
  | .wait [] => some (s.endCall k c true)

/-- A put of an object that is there and stored nowhere yet. -/
def put (id : String) (f : RefDetail → RefDetail) : ReferenceStore :=
  match s.storeMap.lookup id with
  | none => s
  | some r =>
    if (s.details r).storeInMemory || (s.details r).storeInDataSystem then s
    else s.setDetail r (f (s.details r))

def next : Event → Option ReferenceStore
  | .increGlobalReference ids toDataSystem => some (s.startCall true true toDataSystem ids)
  | .increDSGlobalReference ids => some (s.startCall false true true ids)
  | .increaseObjRef ids =>
    if ids.all fun id => (s.storeMap.lookup id).isSome then some (s.startCall true false true ids)
    else some { s with returned := s.returned ++ [(ids, false)] }
  | .increase k ok =>
    match s.calls.lookup k with
    | some c =>
      match c.phase with
      | .increase todo waits =>
        some ((if ok then s.increased todo else s).setPhase k c (.mark ok (todo.map Prod.snd) waits))
      | _ => none
    | none => none
  | .advance k timeout =>
    match s.calls.lookup k with
    | some c => s.advance k c timeout
    | none => none
  | .decreGlobalReference ids =>
    -- no caller gives back more references than it has taken
    if ids.all fun id => ids.count id ≤ s.held id then some (s.decreGlobalReference ids) else none
  | .decrease k ok =>
    match s.toDecrease.lookup k with
    | some batch =>
      some { (if ok then s.decreased batch else s) with toDecrease := s.toDecrease.erase k }
    | none => none
  | .putInMemory id => some (s.put id fun d => { d with storeInMemory := true })
  | .putInDataSystem id ok =>
    some (if ok then s.put id fun d => { d with storeInDataSystem := true } else s)
  | .findToPut id =>
    match s.storeMap.lookup id with
    | none => some s
    | some r => some { s with toPut := s.toPut ++ [(id, r)] }
  | .doPutToDS i increOk putOk decreOk =>
    match s.toPut[i]? with
    | none => none
    | some (id, r) =>
      some { s.setDetail r ((s.details r).putToDS increOk putOk decreOk).1 with
        toPut := s.toPut.eraseIdx i
        balance := Function.update s.balance id
          (s.balance id + ((s.details r).putToDS increOk putOk decreOk).2)
        dsRefs := Function.update s.dsRefs r
          (s.dsRefs r + ((s.details r).putToDS increOk putOk decreOk).2) }

end ReferenceStore

def objectReferences : StepSystem ReferenceStore ReferenceStore.Event Unit where
  init s := s = {}
  step s e := (s.next e).map (·, ())

end Yuanrong.Libruntime
