import Yuanrong.Lib.StepSystem
import Yuanrong.Libruntime.WaitingObjectManager

/-!
# The receiver of a generator's results

What `StreamGeneratorReceiver` and the memory store have for one generator. A handler adds an output
to the generator's object under the receiver's mutex, and may then end it with `GeneratorFinished`,
an event of its own, since a consumer can come in between. A generator sends its results once each
and then its end, and the messages arrive in any order.
-/

namespace Yuanrong.Libruntime

structure GeneratorRes where
  objectId : String
  err : ErrorInfo := {}
deriving DecidableEq

/-- How the generator ends: with `finish(n)`, or with an error as the result after the last one. -/
inductive StreamEnd
  | finish
  | error (err : ErrorInfo) (failed : err.OK = false)
deriving DecidableEq

def errGeneratorFinished : Nat := 9005

def errKeyAlreadyExist : Nat := 4206

def StreamEnd.err : StreamEnd → ErrorInfo
  | .finish => { code := errGeneratorFinished }
  | .error err _ => err

/-- `stored` are the indices with a value; the last four fields record the run. -/
structure GeneratorStream where
  generatorId : String
  resultsCounter : Option Nat := none
  numResults : Option Nat := none
  finishing : Bool := false
  generatorResMap : FinMap Nat GeneratorRes := ∅
  getIndex : Nat := 0
  finished : Bool := false
  stored : List Nat := []
  delivered : List Nat := []
  endDelivered : Bool := false
  marked : Option (List Nat × ErrorInfo) := none
  returned : List GeneratorRes := []

namespace GeneratorStream

inductive Event
  | result (index : Nat) (hasData : Bool)
  | ending
  | markEndOfStream (err : ErrorInfo)
  | generatorFinished
  | getOutput
  | release (index : Nat)
deriving DecidableEq

variable (s : GeneratorStream)

def generateObjectId (index : Nat) : String := "gen_" ++ s.generatorId ++ "_" ++ toString index

def addOutput (index : Nat) (err : ErrorInfo) : GeneratorStream :=
  if (s.generatorResMap.lookup index).isSome then s
  else
    { s with generatorResMap :=
        s.generatorResMap.insert index { objectId := s.generateObjectId index, err } }

def putError (index : Nat) : ErrorInfo :=
  { code := errKeyAlreadyExist
    msg := "MemoryStore::Put id: " ++ s.generateObjectId index ++ " is already exist in memory" }

/-- The object is put in the store, and added as an output with the error. -/
def putOutput (index : Nat) (err : ErrorInfo) : GeneratorStream :=
  if index ∈ s.stored then s.addOutput index (s.putError index)
  else addOutput { s with stored := index :: s.stored } index err

def setError (index : Nat) (err : ErrorInfo) : GeneratorStream := s.putOutput index err

def checkResults : GeneratorStream :=
  if s.numResults.isSome ∧ s.numResults = s.resultsCounter then { s with finishing := true } else s

def handleGeneratorFinished (numResults : Nat) : GeneratorStream :=
  let counter := s.resultsCounter.getD 0
  let s₁ := setError { s with resultsCounter := some counter } numResults
    { code := errGeneratorFinished }
  if counter = numResults then { s₁ with finishing := true }
  else { s₁ with numResults := some numResults }

def handleGeneratorResult (index : Nat) (hasData : Bool) (err : ErrorInfo) : GeneratorStream :=
  let s₁ := { s with resultsCounter := some (s.resultsCounter.getD 0 + 1) }
  if err.OK then
    if hasData then
      -- a value that cannot be put is an output all the same, but the end is not looked for
      if index ∈ s.stored then s₁.putOutput index {} else checkResults (s₁.putOutput index {})
    else
      checkResults (s₁.addOutput index {})
  else
    { s₁.setError index err with finishing := true }

/-- The end of a generator with `n` results is a message of its own, or a result with an error. -/
def handleEnd (n : Nat) : StreamEnd → GeneratorStream
  | .finish => s.handleGeneratorFinished n
  | .error err _ => s.handleGeneratorResult n false err

def markEndOfStream (err : ErrorInfo) : GeneratorStream :=
  { s.setError (s.resultsCounter.getD 0) err with
    finishing := true
    marked := if s.finished then s.marked else some (s.delivered, err) }

def generatorFinished : GeneratorStream :=
  { s with finished := true, finishing := false, resultsCounter := none, numResults := none }

/-- A blocking `GetOutput`, which waits until there is a result for its index or the generator has
finished. -/
def getOutput : Option GeneratorStream :=
  match s.generatorResMap.lookup s.getIndex with
  | some res => some { s with getIndex := s.getIndex + 1, returned := s.returned ++ [res] }
  | none =>
    if s.finished then
      some { s with
        returned := s.returned ++ [{
          objectId := ""
          err := {
            code := errGeneratorFinished
            msg := "generator: " ++ s.generatorId ++
              " has already end, but no result have been received" } }] }
    else
      none

def next (n : Nat) (ending : StreamEnd) : Event → Option GeneratorStream
  | .result index hasData =>
    if index < n ∧ index ∉ s.delivered ∧ s.finishing = false then
      some { s.handleGeneratorResult index hasData {} with delivered := index :: s.delivered }
    else
      none
  | .ending =>
    if s.endDelivered = false ∧ s.finishing = false then
      some { s.handleEnd n ending with endDelivered := true }
    else
      none
  | .markEndOfStream err => if s.finishing then none else some (s.markEndOfStream err)
  | .generatorFinished => if s.finishing then some s.generatorFinished else none
  | .getOutput => s.getOutput
  | .release index => some { s with stored := s.stored.filter (· ≠ index) }

end GeneratorStream

/-- A generator that sends the results `0..n-1` and then its end. -/
def generatorStream (n : Nat) (ending : StreamEnd) :
    StepSystem GeneratorStream GeneratorStream.Event Unit where
  init s := ∃ generatorId, s = { generatorId }
  step s e := (s.next n ending e).map (·, ())

end Yuanrong.Libruntime
