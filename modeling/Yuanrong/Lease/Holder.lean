import Yuanrong.Lib.StepSystem
import Yuanrong.TimeWheel

/-!
# The leases of one instance

A holder keeps for each allocation how long its lease runs and what to do when it ends, and sets a
task on a time wheel. The wheel sends lists of the IDs that have fired to `pollLease`, which starts
a goroutine for each list. That one ends the leases one by one under the holder's lock; a callback
taken out of the map is run once the lock is released.
-/

namespace Yuanrong.Lease

open TimeWheel

def defaultTimeWheelPace : Nat := 5000000
def defaultTimeWheelSlots : Nat := 100

def readyChan : Nat := 10

/-- Callbacks are given by the number of the lease they were created with. -/
structure InstanceLeaseHolder where
  timeWheel : SimpleTimeWheel
  intervalMap : FinMap String Nat := ∅
  callbackMap : FinMap String Nat := ∅
  enable : Bool := true

inductive LeaseError
  | notEnable
  | notExist
  | task (err : TaskError)
deriving DecidableEq

namespace InstanceLeaseHolder

variable (il : InstanceLeaseHolder)

def createLease (allocationID : String) (interval : Nat) (callback : Nat) :
    Except LeaseError InstanceLeaseHolder :=
  if !il.enable then
    .error .notEnable
  else
    match il.timeWheel.addTask allocationID interval 1 with
    | .error err => .error (.task err)
    | .ok timeWheel =>
      .ok { il with
        timeWheel
        intervalMap := il.intervalMap.insert allocationID interval
        callbackMap := il.callbackMap.insert allocationID callback }

def extendLease (allocationID : String) : Except LeaseError InstanceLeaseHolder :=
  if !il.enable then
    .error .notEnable
  else
    match il.intervalMap.lookup allocationID with
    | none => .error .notExist
    | some interval =>
      match il.timeWheel.updateTask allocationID interval 1 with
      | .error err => .error (.task err)
      | .ok timeWheel => .ok { il with timeWheel }

def endLease (allocationID : String) : InstanceLeaseHolder :=
  { il with
    timeWheel := il.timeWheel.delTask allocationID
    intervalMap := il.intervalMap.erase allocationID
    callbackMap := il.callbackMap.erase allocationID }

end InstanceLeaseHolder

/-- Whether the task has fired since the last extension, and how often the callback was run. -/
structure LeaseHistory where
  allocationID : String
  fired : Bool := false
  runs : Nat := 0
deriving DecidableEq

/-- Where the loop of `pollLease` is: before it looks at `enable`, before `Wait`, or gone. -/
inductive PollPc
  | checking
  | waiting
  | done
deriving DecidableEq

/-- `sending` is the wheel's list, `leases` the history, `armedBy` who set an ID's task last. -/
structure System where
  il : InstanceLeaseHolder
  wheelStopped : Bool := false
  sending : Option (List String) := none
  readyCh : List (List String) := []
  poll : PollPc := .checking
  goroutines : FinMap Nat (List String) := ∅
  leases : FinMap Nat LeaseHistory := ∅
  armedBy : FinMap String Nat := ∅
  nextRef : Nat := 0

inductive Event
  | tick
  | send
  | pollCheck
  | wait
  | expire (g : Nat)
  | createLease (allocationID : String) (interval : Nat)
  | extendLease (allocationID : String)
  | releaseLease (allocationID : String)
  | stop
  | stopWheel
deriving DecidableEq

structure Label where
  expired : Option Nat := none
deriving DecidableEq

namespace System

variable (s : System)

def markFired (armedBy : FinMap String Nat) (ids : List String) (leases : FinMap Nat LeaseHistory) :
    FinMap Nat LeaseHistory :=
  leases.mapVal fun n lease => if ids.any fun id => armedBy.lookup id = some n then
    { lease with fired := true } else lease

/-- One turn of the wheel. It goes on only when the list of the last one was sent. -/
def tick : Option System :=
  if s.wheelStopped = false ∧ s.sending = none then
    let fired := s.il.timeWheel.fired
    some { s with
      il := { s.il with timeWheel := s.il.timeWheel.tick }
      sending := if fired.length = 0 then none else some fired
      leases := markFired s.armedBy fired s.leases }
  else
    none

def send : Option System :=
  match s.sending with
  | none => none
  | some readyList =>
    if s.readyCh.length < readyChan then
      some { s with sending := none, readyCh := s.readyCh ++ [readyList] }
    else
      none

def pollCheck : Option System :=
  if s.poll = .checking then
    some { s with poll := if s.il.enable then .waiting else .done }
  else
    none

/-- `Wait`, and the start of a goroutine for the list. A closed channel ends the wait, too. -/
def wait : Option System :=
  if s.poll = .waiting then
    match s.readyCh with
    | [] => if s.wheelStopped then some { s with poll := .checking } else none
    | readyList :: rest =>
      some { s with
        readyCh := rest
        poll := .checking
        goroutines := s.goroutines.insert s.nextRef readyList
        nextRef := s.nextRef + 1 }
  else
    none

def runCallback (callback : Option Nat) : FinMap Nat LeaseHistory :=
  match callback with
  | none => s.leases
  | some n =>
    match s.leases.lookup n with
    | none => s.leases
    | some lease => s.leases.insert n { lease with runs := lease.runs + 1 }

def expire (g : Nat) : Option (System × Label) :=
  match s.goroutines.lookup g with
  | some (allocationID :: rest) =>
    let callback := s.il.callbackMap.lookup allocationID
    some ({ s with
      il := s.il.endLease allocationID
      goroutines := s.goroutines.insert g rest
      leases := s.runCallback callback }, { expired := callback })
  | _ => none

def createLease (allocationID : String) (interval : Nat) : System :=
  match s.il.createLease allocationID interval s.nextRef with
  | .error _ => s
  | .ok il =>
    { s with
      il
      leases := s.leases.insert s.nextRef { allocationID }
      armedBy := s.armedBy.insert allocationID s.nextRef
      nextRef := s.nextRef + 1 }

def extendLease (allocationID : String) : System :=
  match s.il.extendLease allocationID with
  | .error _ => s
  | .ok il =>
    match s.il.callbackMap.lookup allocationID with
    | none => { s with il }
    | some n =>
      { s with
        il
        leases := s.leases.mapVal fun n' lease =>
          if n' = n then { lease with fired := false } else lease
        armedBy := s.armedBy.insert allocationID n }

def releaseLease (allocationID : String) : System :=
  if s.il.enable then
    { s with
      il := s.il.endLease allocationID
      leases := s.runCallback (s.il.callbackMap.lookup allocationID) }
  else
    s

def step : Event → Option (System × Label)
  | .tick => s.tick.map (·, {})
  | .send => s.send.map (·, {})
  | .pollCheck => s.pollCheck.map (·, {})
  | .wait => s.wait.map (·, {})
  | .expire g => s.expire g
  | .createLease allocationID interval => some (s.createLease allocationID interval, {})
  | .extendLease allocationID => some (s.extendLease allocationID, {})
  | .releaseLease allocationID => some (s.releaseLease allocationID, {})
  | .stop => some ({ s with il := { s.il with enable := false } }, {})
  | .stopWheel =>
    if s.il.enable then none else some ({ s with wheelStopped := true, sending := none }, {})

def created : System where
  il := { timeWheel := newSimpleTimeWheel defaultTimeWheelPace defaultTimeWheelSlots }

end System

def leaseHolder : StepSystem System Event Label where
  init s := s = System.created
  step := System.step

end Yuanrong.Lease
