import Yuanrong.Libruntime.WaitingObjectManager

/-!
# Completing objects of the memory store

The part of `MemoryStore` that completes return objects: an object is set ready or in error once,
its callbacks are taken out under the store's mutex and run after it. Callbacks are known by name,
and `ran` records which were run for which object and with what.
-/

namespace Yuanrong.Libruntime

open List

structure ObjectDetail where
  ready : Bool := true
  err : ErrorInfo := {}
  storeInMemory : Bool := false
  storeInDataSystem : Bool := false
  callbacks : List String := []
  callbacksWithData : List String := []
deriving DecidableEq

namespace ObjectDetail

variable (d : ObjectDetail)

/-- The section of `SetReady`, which keeps the error that is there, and of `SetError`. -/
def finish (outcome : Option ErrorInfo) : ObjectDetail :=
  { d with ready := true, err := outcome.getD d.err, callbacks := [], callbacksWithData := [] }

/-- The callbacks that were taken out, as they are run: those with data get what reading it
gives. -/
def callsOf (id : String) (outcome : Option ErrorInfo) (dsGet : ErrorInfo) :
    List (String × String × ErrorInfo) :=
  d.callbacks.map (id, ·, outcome.getD {}) ++
    d.callbacksWithData.map (id, ·, outcome.getD (if d.storeInMemory then {} else dsGet))

end ObjectDetail

structure MemoryStore where
  storeMap : FinMap String ObjectDetail := ∅
  waitingObjectManager : WaitingObjectManager := {}
  ran : List (String × String × ErrorInfo) := []

namespace MemoryStore

variable (m : MemoryStore)

def pending (id : String) : Bool := (m.storeMap.lookup id).any fun d => !d.ready

/-- `SetReady` and `SetError` of one object; `dsGet` is what reading an object from the data system
gives. -/
def complete (dsGet : String → ErrorInfo) (id : String) (outcome : Option ErrorInfo) :
    MemoryStore × Bool :=
  match m.storeMap.lookup id with
  | none => (m, false)
  | some d =>
    if d.ready then (m, false)
    else
      ({ storeMap := m.storeMap.insert id (d.finish outcome)
         waitingObjectManager := m.waitingObjectManager.complete id outcome
         ran := m.ran ++ d.callsOf id outcome (dsGet id) }, true)

def completeAll (dsGet : String → ErrorInfo) (outcome : Option ErrorInfo) :
    MemoryStore → List String → MemoryStore × Bool
  | m, [] => (m, true)
  | m, id :: rest =>
    if (m.complete dsGet id outcome).2 then
      completeAll dsGet outcome (m.complete dsGet id outcome).1 rest
    else
      ((m.complete dsGet id outcome).1, false)

def setReady (dsGet : String → ErrorInfo) (id : String) : MemoryStore × Bool :=
  m.complete dsGet id none

def setError (dsGet : String → ErrorInfo) (id : String) (err : ErrorInfo) : MemoryStore × Bool :=
  m.complete dsGet id (some err)

def setReadyAll (dsGet : String → ErrorInfo) (ids : List String) : MemoryStore × Bool :=
  m.completeAll dsGet none ids

def setErrorAll (dsGet : String → ErrorInfo) (ids : List String) (err : ErrorInfo) :
    MemoryStore × Bool :=
  m.completeAll dsGet (some err) ids

section Complete

variable {m} {id : String}

theorem pending_iff : m.pending id = true ↔ ∃ d, m.storeMap.lookup id = some d ∧ d.ready = false := by
  simp [pending, Option.any_eq_true]

theorem complete_of_pending (hlookup : m.storeMap.lookup id = some d) (hready : d.ready = false) :
    m.complete dsGet id outcome =
      ({ storeMap := m.storeMap.insert id (d.finish outcome)
         waitingObjectManager := m.waitingObjectManager.complete id outcome
         ran := m.ran ++ d.callsOf id outcome (dsGet id) }, true) := by
  simp [complete, hlookup, hready]

theorem complete_of_not_pending (h : m.pending id = false) : m.complete dsGet id outcome = (m, false) := by
  unfold complete
  split
  case h_1 => rfl
  case h_2 d hlookup =>
    have hready : d.ready = true := by simpa [pending, hlookup] using h
    simp [hready]

theorem complete_snd : (m.complete dsGet id outcome).2 = m.pending id := by
  cases h : m.pending id with
  | false => rw [complete_of_not_pending h]
  | true =>
    obtain ⟨d, hlookup, hready⟩ := pending_iff.mp h
    rw [complete_of_pending hlookup hready]

theorem complete_lookup_ne (hne : id' ≠ id) :
    (m.complete dsGet id outcome).1.storeMap.lookup id' = m.storeMap.lookup id' := by
  unfold complete
  split
  · rfl
  split
  · rfl
  · exact AList.lookup_insert_ne hne

theorem complete_pending (h : m.pending id = true) :
    (m.complete dsGet id outcome).1.pending id' = (m.pending id' && id' != id) := by
  by_cases heq : id' = id
  · subst heq
    obtain ⟨d, hlookup, hready⟩ := pending_iff.mp h
    rw [complete_of_pending hlookup hready]
    simp [pending, ObjectDetail.finish]
  · have hbne : (id' != id) = true := by simpa using heq
    rw [pending, complete_lookup_ne heq, hbne, Bool.and_true]
    rfl

theorem callsOf_filter (d : ObjectDetail) (err : ErrorInfo) (id' : String) :
    (d.callsOf id outcome err).filter (·.1 = id') = if id' = id then d.callsOf id outcome err else [] := by
  split
  · apply filter_eq_self.mpr
    grind [ObjectDetail.callsOf]
  · apply filter_eq_nil_iff.mpr
    grind [ObjectDetail.callsOf]

def ranFor (m : MemoryStore) (id : String) : List (String × String × ErrorInfo) :=
  m.ran.filter (·.1 = id)

theorem complete_ranFor_ne (hne : id' ≠ id) : (m.complete dsGet id outcome).1.ranFor id' = m.ranFor id' := by
  unfold complete
  split
  · rfl
  split
  · rfl
  · simp [ranFor, callsOf_filter, hne]

end Complete

end MemoryStore

end Yuanrong.Libruntime
