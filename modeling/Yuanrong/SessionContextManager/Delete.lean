import Yuanrong.SessionContextManager.World

/-!
# Deleting a session context

`Delete` reads the history of the context, writes in the control record how far it goes, stops the
instances of the context and deletes the records up to there. A later attempt goes by the bounds in
the record. A point is named after the call it is before. The wait for the instances ends with an
error when the clock is past the deadline.
-/

namespace Yuanrong.SessionContextManager

abbrev DeleteResult := Except Failure Unit

inductive DeletePc
  | readControl
  | readTurns (control : Option ControlRecord) (turns : List TurnRecord)
  | readEvents (control : Option ControlRecord) (turns : List TurnRecord) (events : List Event)
  | lookUp (control : Option ControlRecord) (turns : List TurnRecord) (events : List Event)
  | writeDeleting (control : ControlRecord)
  | listInstances (control : ControlRecord)
  | deleteInstance (instance_ : Instance) (instances : List Instance) (control : ControlRecord)
  | listAgain (control : ControlRecord)
  | checkDeadline (control : ControlRecord)
  | deleteTurn (index : Nat) (control : ControlRecord)
  | deleteEvent (seq : Nat) (control : ControlRecord)
  | unregister
  | deleteControl
deriving DecidableEq

/-- The bound that the records read give: their number, or what the last one says. -/
def upperBound {α : Type} (index : α → Nat) (records : List α) : Nat :=
  match records.getLast? with
  | some record => index record
  | none => records.length

def deletingControl (now : String) (control : Option ControlRecord) (turns : List TurnRecord)
    (events : List Event) : ControlRecord :=
  { state := .deleting
    deleteTurnUpperBound := upperBound TurnRecord.turnIndex turns
    deleteSeqUpperBound := upperBound Event.seq events
    createdAt := match control with
      | some c => if c.createdAt ≠ "" then c.createdAt else now
      | none => now
    updatedAt := now }

structure DeleteRequest where
  sessionCtxID : String
deriving DecidableEq

namespace DeleteRequest

variable (registry : Registry) (req : DeleteRequest)

def entry (w : World) : Next DeletePc DeleteResult :=
  if w.functionKnown then .goto .readControl
  else .done (.error (.error ⟨"FUNCTION_NOT_FOUND", "function not found"⟩))

/-- With all of it read: there is nothing to delete, the bounds are to be written, or they are
there. -/
def afterLookUp (now : String) (control : Option ControlRecord) (turns : List TurnRecord)
    (events : List Event) (registered : Bool) : Next DeletePc DeleteResult :=
  match control with
  | none =>
    if turns.length = 0 ∧ events.length = 0 ∧ registered = false then .done (.ok ())
    else .goto (.writeDeleting (deletingControl now none turns events))
  | some c =>
    if c.state ≠ .deleting then .goto (.writeDeleting (deletingControl now (some c) turns events))
    else .goto (.listInstances c)

def deleteInstances (control : ControlRecord) : List Instance → DeletePc
  | [] => .listAgain control
  | i :: instances =>
    if sameContext i req.sessionCtxID then .deleteInstance i instances control
    else deleteInstances control instances

def afterEvents : DeletePc := if registry.unregisters then .unregister else .deleteControl

def deleteEvents (control : ControlRecord) (seq : Nat) : DeletePc :=
  if seq ≤ control.deleteSeqUpperBound then .deleteEvent seq control else afterEvents registry

def deleteTurns (control : ControlRecord) (index : Nat) : DeletePc :=
  if index ≤ control.deleteTurnUpperBound then .deleteTurn index control
  else deleteEvents registry control 1

/-- A call of an attempt, answered, and what follows it. The instances that are stopped leave the
pool later. -/
def advance : DeletePc → World → World × Next DeletePc DeleteResult
  | .readControl, w => (w, .goto (.readTurns (w.controls req.sessionCtxID) []))
  | .readTurns control turns, w =>
    (w, .goto (match w.turns req.sessionCtxID (turns.length + 1) with
      | some turn => .readTurns control (turns ++ [turn])
      | none => .readEvents control turns []))
  | .readEvents control turns events, w =>
    (w, match w.events req.sessionCtxID (events.length + 1) with
      | some event => .goto (.readEvents control turns (events ++ [event]))
      | none =>
        if registry.looksUp then .goto (.lookUp control turns events)
        else afterLookUp w.now control turns events false)
  | .lookUp control turns events, w =>
    (w, afterLookUp w.now control turns events (w.registered req.sessionCtxID))
  | .writeDeleting control, w =>
    (w.writeControl req.sessionCtxID control, .goto (.listInstances control))
  | .listInstances control, w => (w, .goto (req.deleteInstances control w.instances))
  | .deleteInstance _ instances control, w => (w, .goto (req.deleteInstances control instances))
  | .listAgain control, w =>
    (w, .goto (if w.instances.any (sameContext · req.sessionCtxID) then .checkDeadline control
      else deleteTurns registry control 1))
  | .checkDeadline control, w => (w, .goto (.listAgain control))
  | .deleteTurn index control, w =>
    (w.deleteTurn req.sessionCtxID index, .goto (deleteTurns registry control (index + 1)))
  | .deleteEvent seq control, w =>
    (w.deleteEvent req.sessionCtxID seq, .goto (deleteEvents registry control (seq + 1)))
  | .unregister, w => (w.unregister req.sessionCtxID, .goto .deleteControl)
  | .deleteControl, w => (w.deleteControl req.sessionCtxID, .done (.ok ()))

def failed : DeletePc → Option DeleteResult
  | .listInstances _ | .listAgain _ => none
  | .checkDeadline _ => some (.error (.error
      ⟨"INSTANCE_STOP_TIMEOUT", "timed out waiting for SessionContext instance to stop"⟩))
  | _ => some (.error .call)

def operation : Operation World DeletePc DeleteResult where
  entry := entry
  advance := req.advance registry
  failed := failed

def deleting (w : World) : Bool :=
  (w.controls req.sessionCtxID).any fun c => c.state = .deleting

/-- Around the attempts an instance writes while the pool lists it, leaves, and may come back. -/
inductive Around
  | appendTurn (turn : TurnRecord)
  | appendEvent (event : Event)
  | exit (instanceID : String)
  | create (instanceID : String)
  | register
  | clock (now : String)
  | setFunctionKnown (known : Bool)
deriving DecidableEq

def listed (w : World) : Bool := w.instances.any (sameContext · req.sessionCtxID)

def scalable (attempt : Option DeletePc) (w : World) : Bool :=
  attempt.isNone && (w.controls req.sessionCtxID).all fun c => c.state = .ready

def around (attempt : Option DeletePc) (w : World) : Around → Option World
  | .appendTurn turn => if req.listed w then w.appendTurn req.sessionCtxID turn else none
  | .appendEvent event => if req.listed w then w.appendEvent req.sessionCtxID event else none
  | .exit instanceID => some { w with instances := w.instances.filter (·.instanceID ≠ instanceID) }
  | .create instanceID =>
    if req.scalable attempt w then
      some { w with instances := ⟨instanceID, some req.sessionCtxID⟩ :: w.instances }
    else
      none
  | .register => if req.scalable attempt w then some (w.register req.sessionCtxID) else none
  | .clock now => some { w with now }
  | .setFunctionKnown functionKnown => some { w with functionKnown }

/-- Before the first attempt: the context has a history, which may be empty. -/
def Undeleted (w : World) : Prop := w.HasHistory req.sessionCtxID ∧ req.deleting w = false

def system : StepSystem (Attempts World DeletePc) (AttemptEvent Around) (Option DeleteResult) :=
  (req.operation registry).system req.around req.Undeleted

end DeleteRequest

end Yuanrong.SessionContextManager
