import Yuanrong.Lib.FinMap
import Yuanrong.Lib.StepSystem

/-!
# Ordered execution of actor calls

An invoker numbers its calls to an actor and tells with each the least number it has not seen
finished. The manager on the actor's side keeps calls that come too early in a map and starts the
others by their numbers. `Handle` holds the manager's mutex throughout, but the cancelled requests
are under a mutex of their own: a cancel may be recorded between any two turns of the loop.
-/

namespace Yuanrong.Libruntime

open List

/-- A request that waits for its turn; its handler is known by its number. -/
structure InvokeReq where
  reqId : String
deriving DecidableEq

/-- `waitingInvokeReqs` is ordered by number, and `started` has the numbers of the handlers
started. -/
structure Invoker where
  invokeUnfinishedSeqNo : Nat := 0
  waitingInvokeReqs : List (Nat × InvokeReq) := []
  started : List Nat := []
  sorted : waitingInvokeReqs.Pairwise fun a b => a.1 < b.1

def insertWaiting (seqNo : Nat) (req : InvokeReq) : List (Nat × InvokeReq) → List (Nat × InvokeReq)
  | [] => [(seqNo, req)]
  | (k, r) :: rest =>
    if seqNo < k then (seqNo, req) :: (k, r) :: rest
    else if seqNo = k then (k, r) :: rest
    else (k, r) :: insertWaiting seqNo req rest

variable {seqNo : Nat}

theorem mem_insertWaiting (hmem : entry ∈ insertWaiting seqNo req waiting) :
    entry = (seqNo, req) ∨ entry ∈ waiting := by
  induction waiting with
  | nil => exact .inl (mem_singleton.mp hmem)
  | cons _ _ ih =>
    unfold insertWaiting at hmem
    split_ifs at hmem with hlt heq
    · exact mem_cons.mp hmem
    · exact .inr hmem
    rcases mem_cons.mp hmem with rfl | hrest
    · exact .inr mem_cons_self
    · rcases ih hrest with hnew | hold
      · exact .inl hnew
      · exact .inr (mem_cons_of_mem _ hold)

theorem sorted_insertWaiting (hsorted : waiting.Pairwise fun a b => a.1 < b.1) :
    (insertWaiting seqNo req waiting).Pairwise fun a b => a.1 < b.1 := by
  induction waiting with
  | nil => exact pairwise_singleton _ _
  | cons _ _ ih =>
    obtain ⟨hhead, hrest⟩ := pairwise_cons.mp hsorted
    unfold insertWaiting
    split_ifs with hlt heq
    · apply pairwise_cons.mpr
      refine ⟨?_, hsorted⟩
      intro entry hmem
      rcases mem_cons.mp hmem with rfl | hmem
      · exact hlt
      · exact hlt.trans (hhead entry hmem)
    · exact hsorted
    · apply pairwise_cons.mpr
      refine ⟨?_, ih hrest⟩
      intro entry hmem
      rcases mem_insertWaiting hmem with rfl | hold
      · exact lt_of_le_of_ne (not_lt.mp hlt) (Ne.symm heq)
      · exact hhead entry hold

namespace Invoker

variable (i : Invoker)

/-- The expected number may jump, and the request is put into the map unless it is behind. -/
def receive (seqNo unfinishedSeqNo : Nat) (reqId : String) : Invoker :=
  let expected := max i.invokeUnfinishedSeqNo unfinishedSeqNo
  if expected ≤ seqNo then
    { i with
      invokeUnfinishedSeqNo := expected
      waitingInvokeReqs := insertWaiting seqNo ⟨reqId⟩ i.waitingInvokeReqs
      sorted := sorted_insertWaiting i.sorted }
  else
    { i with invokeUnfinishedSeqNo := expected }

def due : Option InvokeReq :=
  match i.waitingInvokeReqs with
  | (k, r) :: _ => if i.invokeUnfinishedSeqNo = k then some r else none
  | [] => none

def take (cancelled : Bool) : Invoker :=
  { invokeUnfinishedSeqNo := i.invokeUnfinishedSeqNo + 1
    waitingInvokeReqs := i.waitingInvokeReqs.tail
    started := if cancelled then i.started else i.started ++ [i.invokeUnfinishedSeqNo]
    sorted := i.sorted.tail }

end Invoker

/-- `handling` is the invoker in `Handle`. `cancels` are between their two sections. -/
structure OrderedExecutionManager where
  invokers : FinMap String Invoker := ∅
  cancelReqs : List String := []
  handling : Option String := none
  cancels : FinMap Nat String := ∅

namespace OrderedExecutionManager

inductive Event
  | handle (invokerId : String) (seqNo unfinishedSeqNo : Nat) (reqId : String)
  | loop
  | handled
  | findInvoker (c : Nat) (invokerId reqId : String)
  | setCancel (c : Nat)
deriving DecidableEq

variable (m : OrderedExecutionManager)

def invoker (invokerId : String) : Invoker :=
  (m.invokers.lookup invokerId).getD { sorted := List.Pairwise.nil }

def handle (invokerId : String) (seqNo unfinishedSeqNo : Nat) (reqId : String) :
    Option OrderedExecutionManager :=
  if invokerId = "" then some m
  else if m.handling = none then
    some { m with
      invokers := m.invokers.insert invokerId
        ((m.invoker invokerId).receive seqNo unfinishedSeqNo reqId)
      handling := some invokerId }
  else none

/-- A turn of the loop. A cancelled request is taken out of the map like the others but is not
started. -/
def loop : Option OrderedExecutionManager :=
  m.handling.bind fun invokerId =>
    (m.invoker invokerId).due.map fun req =>
      { m with
        invokers := m.invokers.insert invokerId
          ((m.invoker invokerId).take (m.cancelReqs.contains req.reqId))
        cancelReqs := m.cancelReqs.filter (· ≠ req.reqId) }

def handled : Option OrderedExecutionManager :=
  m.handling.bind fun invokerId =>
    if (m.invoker invokerId).due = none then some { m with handling := none } else none

def findInvoker (c : Nat) (invokerId reqId : String) : Option OrderedExecutionManager :=
  if m.cancels.lookup c = none then
    if invokerId = "" then some m
    else if m.handling = none then
      if (m.invokers.lookup invokerId).isNone then some m
      else some { m with cancels := m.cancels.insert c reqId }
    else none
  else none

def setCancel (c : Nat) : Option OrderedExecutionManager :=
  (m.cancels.lookup c).map fun reqId =>
    { m with
      cancelReqs := if m.cancelReqs.contains reqId then m.cancelReqs else reqId :: m.cancelReqs
      cancels := m.cancels.erase c }

def next : Event → Option OrderedExecutionManager
  | .handle invokerId seqNo unfinishedSeqNo reqId => m.handle invokerId seqNo unfinishedSeqNo reqId
  | .loop => m.loop
  | .handled => m.handled
  | .findInvoker c invokerId reqId => m.findInvoker c invokerId reqId
  | .setCancel c => m.setCancel c

end OrderedExecutionManager

def orderedExecution : StepSystem OrderedExecutionManager OrderedExecutionManager.Event Unit where
  init m := m = {}
  step m e := (m.next e).map (·, ())

end Yuanrong.Libruntime
