import Yuanrong.SessionContextManager.World

/-!
# Forking a session context

`Fork` copies the history of a context up to the end of a completed turn under the ID of another
context. The boundary and the two cursors are kept in the control record of the target, which is
written before the first record is copied, after every hundredth and at the end; a later attempt
goes on from the cursors. A point is named after the call it is before.
-/

namespace Yuanrong.SessionContextManager

structure ForkRequest where
  sourceSessionCtxID : String
  targetSessionCtxID : String
  turnID : String
deriving DecidableEq

structure ForkResponse where
  sessionContextID : String
  state : String
deriving DecidableEq

abbrev ForkResult := Except Failure ForkResponse

/-- What `Fork` has read of the source, and the boundary of the fork. -/
structure ForkJob where
  turns : List TurnRecord
  events : List Event
  forkTurnIndex : Nat
  forkSeq : Nat
deriving DecidableEq

inductive ForkPc
  | readSourceControl
  | readTurns (turns : List TurnRecord)
  | readEvents (turns : List TurnRecord) (events : List Event)
  | readTargetControl (job : ForkJob)
  | lookUp (job : ForkJob)
  | readFirstTurn (job : ForkJob)
  | readFirstEvent (job : ForkJob)
  | writeCreating (job : ForkJob) (control : ControlRecord)
  | putTurn (turn : TurnRecord) (turns : List TurnRecord) (events : List Event)
      (control : ControlRecord)
  | checkpointTurns (turns : List TurnRecord) (events : List Event) (control : ControlRecord)
  | putEvent (event : Event) (events : List Event) (control : ControlRecord)
  | checkpointEvents (events : List Event) (control : ControlRecord)
  | writeCopied (control : ControlRecord)
  | writeReady (control : ControlRecord)
  | register
deriving DecidableEq

def completedSeq (turnID : String) (events : List Event) : Nat :=
  events.foldl
    (fun forkSeq event =>
      if event.turnID = turnID ∧ event.type = "turn.completed" then event.seq else forkSeq) 0

def forkBoundary (turnID : String) (turns : List TurnRecord) (events : List Event) :
    Except Error (Nat × Nat) :=
  match turns.find? fun turn => turn.turnID = turnID with
  | none => .error ⟨"TURN_NOT_FOUND", "fork Turn not found"⟩
  | some turn =>
    if completedSeq turnID events = 0 then
      .error ⟨"TURN_NOT_COMPLETED", "fork requires a COMPLETED Turn"⟩
    else
      .ok (turn.turnIndex, completedSeq turnID events)

def copyEvents (now : String) (control : ControlRecord) : List Event → ForkPc
  | [] => .writeCopied { control with updatedAt := now }
  | event :: events =>
    if event.seq ≤ control.copiedSeq ∨ event.seq > control.forkSeq then
      copyEvents now control events
    else
      .putEvent event events control

def copyTurns (now : String) (control : ControlRecord) (events : List Event) : List TurnRecord → ForkPc
  | [] => copyEvents now control events
  | turn :: turns =>
    if turn.turnIndex ≤ control.copiedTurn ∨ turn.turnIndex > control.forkTurnIndex then
      copyTurns now control events turns
    else
      .putTurn turn turns events control

namespace ForkRequest

variable (registry : Registry) (req : ForkRequest)

def sameFork (control : ControlRecord) : Bool :=
  control.forkedFrom = req.sourceSessionCtxID && control.forkTurnID = req.turnID

def response : ForkResponse := ⟨req.targetSessionCtxID, "DORMANT"⟩

def targetExists : Failure :=
  .error ⟨"TARGET_SESSION_CTX_EXISTS", "target SessionContext already exists"⟩

def newControl (job : ForkJob) (now : String) : ControlRecord :=
  { state := .creating
    forkedFrom := req.sourceSessionCtxID
    forkTurnID := req.turnID
    forkTurnIndex := job.forkTurnIndex
    forkSeq := job.forkSeq
    createdAt := now
    updatedAt := now }

def turnCopy (turn : TurnRecord) : TurnRecord :=
  { turn with sessionContextID := req.targetSessionCtxID }

def eventCopy (event : Event) : Event := { event with sessionContextID := req.targetSessionCtxID }

def entry (w : World) : Next ForkPc ForkResult :=
  if w.functionKnown then .goto .readSourceControl
  else .done (.error (.error ⟨"FUNCTION_NOT_FOUND", "function not found"⟩))

def afterSourceControl : Option ControlRecord → Next ForkPc ForkResult
  | some control =>
    if control.state = .deleting then
      .done (.error (.error ⟨"SOURCE_SESSION_CTX_DELETING", "source SessionContext is being deleted"⟩))
    else
      .goto (.readTurns [])
  | none => .goto (.readTurns [])

def afterHistory (turns : List TurnRecord) (events : List Event) : Next ForkPc ForkResult :=
  match forkBoundary req.turnID turns events with
  | .error e => .done (.error (.error e))
  | .ok (forkTurnIndex, forkSeq) => .goto (.readTargetControl ⟨turns, events, forkTurnIndex, forkSeq⟩)

def afterTargetControl (now : String) (job : ForkJob) : Option ControlRecord → Next ForkPc ForkResult
  | some control =>
    if req.sameFork control = false then .done (.error targetExists)
    else if control.state = .ready then .done (.ok req.response)
    else .goto (copyTurns now control job.events job.turns)
  | none => .goto (if registry.looksUp then .lookUp job else .readFirstTurn job)

def advance : ForkPc → World → World × Next ForkPc ForkResult
  | .readSourceControl, w => (w, afterSourceControl (w.controls req.sourceSessionCtxID))
  | .readTurns turns, w =>
    (w, .goto (match w.turns req.sourceSessionCtxID (turns.length + 1) with
      | some turn => .readTurns (turns ++ [turn])
      | none => .readEvents turns []))
  | .readEvents turns events, w =>
    (w, match w.events req.sourceSessionCtxID (events.length + 1) with
      | some event => .goto (.readEvents turns (events ++ [event]))
      | none => req.afterHistory turns events)
  | .readTargetControl job, w =>
    (w, req.afterTargetControl registry w.now job (w.controls req.targetSessionCtxID))
  | .lookUp job, w =>
    (w, if w.registered req.targetSessionCtxID then .done (.error targetExists)
      else .goto (.readFirstTurn job))
  | .readFirstTurn job, w =>
    (w, if (w.turns req.targetSessionCtxID 1).isSome then .done (.error targetExists)
      else .goto (.readFirstEvent job))
  | .readFirstEvent job, w =>
    (w, if (w.events req.targetSessionCtxID 1).isSome then .done (.error targetExists)
      else .goto (.writeCreating job (req.newControl job w.now)))
  | .writeCreating job control, w =>
    (w.writeControl req.targetSessionCtxID control,
      .goto (copyTurns w.now control job.events job.turns))
  | .putTurn turn turns events control, w =>
    (w.putTurn req.targetSessionCtxID turn.turnIndex (req.turnCopy turn), .goto (
        let control := { control with copiedTurn := turn.turnIndex }
        if turn.turnIndex % copyBatchSize = 0 then
          .checkpointTurns turns events { control with updatedAt := w.now }
        else
          copyTurns w.now control events turns))
  | .checkpointTurns turns events control, w =>
    (w.writeControl req.targetSessionCtxID control, .goto (copyTurns w.now control events turns))
  | .putEvent event events control, w =>
    (w.putEvent req.targetSessionCtxID event.seq (req.eventCopy event), .goto (
        let control := { control with copiedSeq := event.seq }
        if event.seq % copyBatchSize = 0 then
          .checkpointEvents events { control with updatedAt := w.now }
        else
          copyEvents w.now control events))
  | .checkpointEvents events control, w =>
    (w.writeControl req.targetSessionCtxID control, .goto (copyEvents w.now control events))
  | .writeCopied control, w =>
    (w.writeControl req.targetSessionCtxID control,
      .goto (.writeReady { control with state := .ready, updatedAt := w.now }))
  | .writeReady control, w =>
    (w.writeControl req.targetSessionCtxID control,
      if registry.registers then .goto .register else .done (.ok req.response))
  | .register, w => (w.register req.targetSessionCtxID, .done (.ok req.response))

def operation : Operation World ForkPc ForkResult where
  entry := entry
  advance := req.advance registry
  failed _ := some (.error .call)

/-- The target belongs to this fork from its control record on. -/
def ofThisFork (w : World) : Bool := (w.controls req.targetSessionCtxID).any req.sameFork

/-- Around the attempts the source grows, and between them another context may come under the
target's ID. -/
inductive Around
  | appendTurn (turn : TurnRecord)
  | appendEvent (event : Event)
  | appendTargetTurn (turn : TurnRecord)
  | appendTargetEvent (event : Event)
  | registerTarget
  | clock (now : String)
  | setFunctionKnown (known : Bool)
deriving DecidableEq

def around (attempt : Option ForkPc) (w : World) : Around → Option World
  | .appendTurn turn => w.appendTurn req.sourceSessionCtxID turn
  | .appendEvent event => w.appendEvent req.sourceSessionCtxID event
  | .appendTargetTurn turn =>
    if attempt = none ∧ req.ofThisFork w = false then w.appendTurn req.targetSessionCtxID turn
    else none
  | .appendTargetEvent event =>
    if attempt = none ∧ req.ofThisFork w = false then w.appendEvent req.targetSessionCtxID event
    else none
  | .registerTarget =>
    if attempt = none ∧ req.ofThisFork w = false then some (w.register req.targetSessionCtxID)
    else none
  | .clock now => some { w with now }
  | .setFunctionKnown functionKnown => some { w with functionKnown }

/-- Before the first attempt: both contexts have a history, and the target is not the fork's. -/
def Unforked (w : World) : Prop :=
  w.HasHistory req.sourceSessionCtxID ∧ w.HasHistory req.targetSessionCtxID ∧
    req.ofThisFork w = false

def system : StepSystem (Attempts World ForkPc) (AttemptEvent Around) (Option ForkResult) :=
  (req.operation registry).system req.around req.Unforked

end ForkRequest

end Yuanrong.SessionContextManager
