import Yuanrong.Lib.Attempt
import Yuanrong.Lib.Log

/-!
# What the session context manager works on

The history of a session context is in a key-value store: a record per turn and per event, and a
control record for contexts that are forked or deleted. All contexts here are of one function and
one tenant, so a key is given by the context and the number. The store, the registry of contexts and
the pool of instances are services whose calls may fail.
-/

namespace Yuanrong.SessionContextManager

open Function

def copyBatchSize : Nat := 100

inductive ControlState
  | creating
  | ready
  | deleting
deriving DecidableEq

structure ControlRecord where
  schemaVersion : Nat := 1
  state : ControlState
  forkedFrom : String := ""
  forkTurnID : String := ""
  forkTurnIndex : Nat := 0
  forkSeq : Nat := 0
  copiedTurn : Nat := 0
  copiedSeq : Nat := 0
  deleteTurnUpperBound : Nat := 0
  deleteSeqUpperBound : Nat := 0
  createdAt : String
  updatedAt : String
deriving DecidableEq

structure TurnRecord where
  sessionContextID : String
  turnIndex : Nat
  turnID : String
  startSeq : Nat := 0
  createdAt : String := ""
  schemaVersion : Nat := 1
deriving DecidableEq

structure Event where
  sessionContextID : String
  turnID : String
  seq : Nat
  eventID : String := ""
  source : String := ""
  type : String
  data : String := ""
  schemaVersion : Nat := 1
  createdAt : String := ""
deriving DecidableEq

structure Error where
  code : String
  message : String
deriving DecidableEq

inductive Failure
  | error (e : Error)
  | call
deriving DecidableEq

/-- An instance in the pool, with the context it serves, if it serves one. -/
structure Instance where
  instanceID : String
  sessionCtxID : Option String
deriving DecidableEq

def sameContext (i : Instance) (sessionCtxID : String) : Bool := i.sessionCtxID = some sessionCtxID

/-- What the registry can do; without a registry none of it. -/
structure Registry where
  registers : Bool
  looksUp : Bool
  unregisters : Bool
deriving DecidableEq

/-- `functionKnown` says whether `getFunc` finds the function, and `now` is what the clock shows. -/
structure World where
  functionKnown : Bool
  now : String
  turns : String → Log TurnRecord
  events : String → Log Event
  controls : String → Option ControlRecord
  registered : String → Bool
  instances : List Instance

namespace World

variable (w : World) (ctx : String)

def putTurn (i : Nat) (turn : TurnRecord) : World :=
  { w with turns := update w.turns ctx (update (w.turns ctx) i (some turn)) }

def putEvent (i : Nat) (event : Event) : World :=
  { w with events := update w.events ctx (update (w.events ctx) i (some event)) }

def deleteTurn (i : Nat) : World :=
  { w with turns := update w.turns ctx (update (w.turns ctx) i none) }

def deleteEvent (i : Nat) : World :=
  { w with events := update w.events ctx (update (w.events ctx) i none) }

def writeControl (control : ControlRecord) : World :=
  { w with controls := update w.controls ctx (some control) }

def deleteControl : World := { w with controls := update w.controls ctx none }

def register : World := { w with registered := update w.registered ctx true }

def unregister : World := { w with registered := update w.registered ctx false }

def appendTurn (turn : TurnRecord) : Option World :=
  if (w.turns ctx).isNext turn.turnIndex then some (w.putTurn ctx turn.turnIndex turn) else none

def appendEvent (event : Event) : Option World :=
  if (w.events ctx).isNext event.seq then some (w.putEvent ctx event.seq event) else none

section

variable {w ctx}
  {control : ControlRecord}

@[simp]
theorem putTurn_turns : (w.putTurn ctx i turn).turns ctx = update (w.turns ctx) i (some turn) :=
  update_self ..

theorem putTurn_turns_of_ne (hne : other ≠ ctx) : (w.putTurn ctx i turn).turns other = w.turns other :=
  update_of_ne hne ..

@[simp]
theorem putEvent_events : (w.putEvent ctx i event).events ctx = update (w.events ctx) i (some event) :=
  update_self ..

theorem putEvent_events_of_ne (hne : other ≠ ctx) : (w.putEvent ctx i event).events other = w.events other :=
  update_of_ne hne ..

@[simp]
theorem deleteTurn_turns : (w.deleteTurn ctx i).turns ctx = update (w.turns ctx) i none :=
  update_self ..

@[simp]
theorem deleteEvent_events : (w.deleteEvent ctx i).events ctx = update (w.events ctx) i none :=
  update_self ..

@[simp]
theorem deleteControl_controls : (w.deleteControl ctx).controls ctx = none :=
  update_self ..

@[simp]
theorem writeControl_controls : (w.writeControl ctx control).controls ctx = some control :=
  update_self ..

end

def HasHistory : Prop :=
  (w.turns ctx).Gapless TurnRecord.turnIndex ∧ (w.events ctx).Gapless Event.seq

section

variable {w ctx}

theorem appendTurn_eq_some : w.appendTurn ctx turn = some w' ↔
    (w.turns ctx).isNext turn.turnIndex = true ∧ w.putTurn ctx turn.turnIndex turn = w' := by
  unfold appendTurn
  split <;> simp_all

theorem appendEvent_eq_some : w.appendEvent ctx event = some w' ↔
    (w.events ctx).isNext event.seq = true ∧ w.putEvent ctx event.seq event = w' := by
  unfold appendEvent
  split <;> simp_all

theorem HasHistory.appendTurn (hhistory : w.HasHistory other)
    (happend : w.appendTurn ctx turn = some w') : w'.HasHistory other := by
  obtain ⟨hnext, rfl⟩ := appendTurn_eq_some.mp happend
  refine ⟨?_, hhistory.2⟩
  by_cases heq : other = ctx
  · subst heq
    rw [putTurn_turns]
    exact hhistory.1.append hnext
  · rw [putTurn_turns_of_ne heq]
    exact hhistory.1

theorem HasHistory.appendEvent (hhistory : w.HasHistory other)
    (happend : w.appendEvent ctx event = some w') : w'.HasHistory other := by
  obtain ⟨hnext, rfl⟩ := appendEvent_eq_some.mp happend
  refine ⟨hhistory.1, ?_⟩
  by_cases heq : other = ctx
  · subst heq
    rw [putEvent_events]
    exact hhistory.2.append hnext
  · rw [putEvent_events_of_ne heq]
    exact hhistory.2

end

end World

end Yuanrong.SessionContextManager
