import Yuanrong.Lib.StepSystem
import Yuanrong.Libruntime.MemoryStore

/-!
# Resolving the dependencies of a request

`ResolveDependencies` registers one callback per dependency, and counts the dependencies down in
them. A callback is run inline by the registration, for an object completed already, or by the
thread that completes the object. An event is one section under a mutex or one run of a callback.
-/

namespace Yuanrong.Libruntime

structure InvokeArg where
  isRef : Bool
  objId : String
  nestedObjects : List String
deriving DecidableEq

/-- `isMember` says whether the request is a call of an instance's member function. -/
structure DependentSpec where
  requestId : String
  invokeArgs : List InvokeArg
  isMember : Bool
  instanceId : String
deriving DecidableEq

def DependentSpec.unfinishObjIds (spec : DependentSpec) : List String :=
  (spec.invokeArgs.flatMap fun arg => (if arg.isRef then [arg.objId] else []) ++ arg.nestedObjects) ++
    if spec.isMember then [spec.instanceId] else []

/-- `inline` is about to be run by the loop, `toRun` by completing threads; then records of the
run. -/
structure Resolution where
  storeMap : FinMap String ObjectDetail
  toRegister : List String
  inline : Option (String × ErrorInfo) := none
  toRun : List (String × ErrorInfo) := []
  dependenciesRemaining : Option Nat
  executed : List (String × ErrorInfo) := []
  completions : List ErrorInfo := []

namespace Resolution

inductive Event
  | addReadyCallback
  | runInline
  | setReady (id : String)
  | setError (id : String) (err : ErrorInfo)
  | runCallback (i : Nat)
deriving DecidableEq

variable (spec : DependentSpec) (s : Resolution)

def start (storeMap : FinMap String ObjectDetail) : Resolution :=
  if spec.unfinishObjIds = [] then
    { storeMap, toRegister := [], dependenciesRemaining := none, completions := [{}] }
  else
    { storeMap
      toRegister := spec.unfinishObjIds
      dependenciesRemaining := some spec.unfinishObjIds.length }

def addReadyCallback : Option Resolution :=
  match s.toRegister, s.inline with
  | id :: rest, none =>
    match s.storeMap.lookup id with
    | none => some { s with toRegister := rest, inline := some (id, {}) }
    | some d =>
      if d.err.OK = false then some { s with toRegister := rest, inline := some (id, d.err) }
      else if d.ready ∨ d.storeInMemory ∨ d.storeInDataSystem then
        some { s with toRegister := rest, inline := some (id, {}) }
      else
        some { s with
          toRegister := rest
          storeMap := s.storeMap.insert id
            { d with callbacks := d.callbacks ++ [spec.requestId] } }
  | _, _ => none

def callback (id : String) (err : ErrorInfo) : Resolution :=
  match s.dependenciesRemaining with
  | none => { s with executed := (id, err) :: s.executed }
  | some remaining =>
    if remaining - 1 = 0 ∨ err.OK = false then
      { s with
        executed := (id, err) :: s.executed
        dependenciesRemaining := none
        completions := s.completions ++ [err] }
    else
      { s with
        executed := (id, err) :: s.executed
        dependenciesRemaining := some (remaining - 1) }

def complete (id : String) (outcome : Option ErrorInfo) : Resolution :=
  match s.storeMap.lookup id with
  | none => s
  | some d =>
    if d.ready then s
    else
      { s with
        storeMap := s.storeMap.insert id (d.finish outcome)
        toRun := s.toRun ++
          List.replicate (d.callbacks.count spec.requestId) (id, outcome.getD {}) }

def next : Event → Option Resolution
  | .addReadyCallback => s.addReadyCallback spec
  | .runInline =>
    match s.inline with
    | some (id, err) => some ({ s with inline := none }.callback id err)
    | none => none
  | .setReady id => some (s.complete spec id none)
  | .setError id err => if err.OK then none else some (s.complete spec id (some err))
  | .runCallback i =>
    match s.toRun[i]? with
    | some (id, err) => some ({ s with toRun := s.toRun.eraseIdx i }.callback id err)
    | none => none

end Resolution

end Yuanrong.Libruntime
