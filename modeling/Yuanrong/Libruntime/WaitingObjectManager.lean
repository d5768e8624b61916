import Yuanrong.Lib.FinMap

/-!
# Objects somebody waits for

`WaitingObjectManager` has an entry per object that is not ready, with the waiting entities that
were registered under it. Completing an object tells them, and drops the entry. The entities are
shared with the threads that wait on them, so they are kept by reference.
-/

namespace Yuanrong.Libruntime

open AList List

/-- The error of a call or an object; code `0` is `ERR_OK`. -/
structure ErrorInfo where
  code : Nat := 0
  msg : String := ""
deriving DecidableEq

def ErrorInfo.OK (err : ErrorInfo) : Bool := err.code == 0

@[simp]
theorem ErrorInfo.ok_default : ErrorInfo.OK {} = true := rfl

structure WaitingEntity where
  minReadyNum : Int
  readyObjIds : List String := []
  exceptionIds : FinMap String ErrorInfo := ∅
  exceptionNum : Nat := 0
  isFinished : Bool := false

namespace WaitingEntity

variable (w : WaitingEntity)

def readyNum : Nat := w.readyObjIds.length

def checkFinished : WaitingEntity :=
  { w with isFinished := w.isFinished || w.minReadyNum ≤ (w.readyNum + w.exceptionNum : Nat) }

def notify (readyObjId : String) : WaitingEntity :=
  checkFinished { w with readyObjIds := w.readyObjIds ++ [readyObjId] }

def setError (id : String) (err : ErrorInfo) : WaitingEntity :=
  checkFinished { w with
    exceptionIds := w.exceptionIds.insert id err, exceptionNum := w.exceptionNum + 1 }

/-- `SetReady` tells of no error, `SetError` of one. -/
def tell (id : String) : Option ErrorInfo → WaitingEntity
  | none => w.notify id
  | some err => w.setError id err

def Told (id : String) : Option ErrorInfo → Prop
  | none => id ∈ w.readyObjIds
  | some err => w.exceptionIds.lookup id = some err

variable {w}

theorem Told.tell {id : String} (h : w.Told id outcome)
    (hne : id ≠ id') (outcome' : Option ErrorInfo) : (w.tell id' outcome').Told id outcome := by
  cases outcome with
  | none =>
    cases outcome' with
    | none => exact mem_append_left _ h
    | some => exact h
  | some =>
    cases outcome' with
    | none => exact h
    | some => exact (lookup_insert_ne hne).trans h

end WaitingEntity

structure WaitingObjectManager where
  unreadyObjectMap : FinMap String (List Nat) := ∅
  entities : FinMap Nat WaitingEntity := ∅

namespace WaitingObjectManager

variable (m : WaitingObjectManager)

def tellAll (id : String) (outcome : Option ErrorInfo) (entities : FinMap Nat WaitingEntity) :
    List Nat → FinMap Nat WaitingEntity
  | [] => entities
  | e :: rest =>
    match entities.lookup e with
    | some w => tellAll id outcome (entities.insert e (w.tell id outcome)) rest
    | none => tellAll id outcome entities rest

def complete (id : String) (outcome : Option ErrorInfo) : WaitingObjectManager :=
  match m.unreadyObjectMap.lookup id with
  | some es =>
    { unreadyObjectMap := m.unreadyObjectMap.erase id
      entities := tellAll id outcome m.entities es }
  | none => m

def setUnready (id : String) : WaitingObjectManager :=
  if (m.unreadyObjectMap.lookup id).isSome then m
  else { m with unreadyObjectMap := m.unreadyObjectMap.insert id [] }

def setReady (id : String) : WaitingObjectManager := m.complete id none

def setError (id : String) (err : ErrorInfo) : WaitingObjectManager := m.complete id (some err)

variable {P : WaitingEntity → Prop}

variable {id : String} {outcome : Option ErrorInfo} {entities : FinMap Nat WaitingEntity}
  {es : List Nat} {e : Nat} {w : WaitingEntity}

theorem tellAll_keeps (hkeep : ∀ w, P w → P (w.tell id outcome)) (hlookup : entities.lookup e = some w)
    (hw : P w) : ∃ w', (tellAll id outcome entities es).lookup e = some w' ∧ P w' := by
  induction es generalizing entities w with
  | nil => exact ⟨w, hlookup, hw⟩
  | cons e₁ _ ih =>
    unfold tellAll
    split
    case h_1 w₁ hlookup₁ =>
      by_cases heq : e = e₁
      · subst heq
        rw [hlookup] at hlookup₁
        cases hlookup₁
        exact ih (lookup_insert _) (hkeep w hw)
      · exact ih ((lookup_insert_ne heq).trans hlookup) hw
    case h_2 => exact ih hlookup hw

theorem tellAll_told (htold : ∀ w : WaitingEntity, P (w.tell id outcome))
    (hlookup : entities.lookup e = some w) (hmem : e ∈ es) :
    ∃ w', (tellAll id outcome entities es).lookup e = some w' ∧ P w' := by
  induction es generalizing entities w with
  | nil => cases hmem
  | cons e₁ rest ih =>
    unfold tellAll
    by_cases heq : e = e₁
    · subst heq
      rw [hlookup]
      exact tellAll_keeps (fun w _ => htold w) (lookup_insert _) (htold w)
    · have hrest : e ∈ rest := (mem_cons.mp hmem).resolve_left heq
      split
      case h_1 => exact ih ((lookup_insert_ne heq).trans hlookup) hrest
      case h_2 => exact ih hlookup hrest

theorem lookup_tellAll_of_notMem (hnot : e ∉ es) :
    (tellAll id outcome entities es).lookup e = entities.lookup e := by
  induction es generalizing entities with
  | nil => rfl
  | cons e₁ rest ih =>
    have hne : e ≠ e₁ := fun heq => hnot (heq ▸ mem_cons_self)
    have hrest : e ∉ rest := fun hmem => hnot (mem_cons_of_mem _ hmem)
    unfold tellAll
    split
    case h_1 => rw [ih hrest, lookup_insert_ne hne]
    case h_2 => exact ih hrest

theorem lookup_tellAll_of_count (hcount : es.count e = 1) (hlookup : entities.lookup e = some w) :
    (tellAll id outcome entities es).lookup e = some (w.tell id outcome) := by
  induction es generalizing entities with
  | nil => cases hcount
  | cons e₁ rest ih =>
    unfold tellAll
    by_cases heq : e = e₁
    · subst heq
      rw [count_cons_self] at hcount
      have hnot : e ∉ rest := count_eq_zero.mp (Nat.succ.inj hcount)
      rw [hlookup]
      rw [lookup_tellAll_of_notMem hnot, lookup_insert]
    · rw [count_cons_of_ne (Ne.symm heq)] at hcount
      split
      case h_1 => exact ih hcount ((lookup_insert_ne heq).trans hlookup)
      case h_2 => exact ih hcount hlookup

theorem entity_of_tellAll (hlookup : (tellAll id outcome entities es).lookup e = some w) :
    ∃ w₀, entities.lookup e = some w₀ := by
  induction es generalizing entities with
  | nil => exact ⟨w, hlookup⟩
  | cons _ _ ih =>
    unfold tellAll at hlookup
    split at hlookup
    case h_1 w₁ hlookup₁ =>
      obtain ⟨w₂, hw₂⟩ := ih hlookup
      rcases lookup_of_insert hw₂ with ⟨rfl, -⟩ | hold
      · exact ⟨w₁, hlookup₁⟩
      · exact ⟨w₂, hold⟩
    case h_2 => exact ih hlookup

section Complete

variable {m} {id id' : String} {outcome outcome' : Option ErrorInfo}

def Told (m m' : WaitingObjectManager) (id : String) (outcome : Option ErrorInfo) : Prop :=
  m'.unreadyObjectMap.lookup id = none ∧
    ∀ es, m.unreadyObjectMap.lookup id = some es → ∀ e ∈ es, ∀ w, m.entities.lookup e = some w →
      ∃ w', m'.entities.lookup e = some w' ∧ w'.Told id outcome

theorem told_complete (m : WaitingObjectManager) (id : String) (outcome : Option ErrorInfo) :
    Told m (m.complete id outcome) id outcome := by
  refine ⟨?_, ?_⟩
  · unfold complete
    split
    case h_1 => exact lookup_erase id m.unreadyObjectMap
    case h_2 hnone => exact hnone
  · intro es hes e hmem w hw
    rw [complete, hes]
    refine tellAll_told (fun w => ?_) hw hmem
    cases outcome with
    | none => exact mem_append_right _ (mem_singleton_self id)
    | some => exact lookup_insert _

theorem complete_unready_ne (hne : id ≠ id') :
    (m.complete id' outcome').unreadyObjectMap.lookup id = m.unreadyObjectMap.lookup id := by
  unfold complete
  split
  case h_1 => exact lookup_erase_ne hne
  case h_2 => rfl

theorem complete_entities_keeps (id' : String) (outcome' : Option ErrorInfo)
    (hkeep : ∀ w, P w → P (w.tell id' outcome')) (hlookup : m.entities.lookup e = some w) (hw : P w) :
    ∃ w', (m.complete id' outcome').entities.lookup e = some w' ∧ P w' := by
  unfold complete
  split
  case h_1 => exact tellAll_keeps hkeep hlookup hw
  case h_2 => exact ⟨w, hlookup, hw⟩

theorem entity_of_complete (hlookup : (m.complete id' outcome').entities.lookup e = some w) :
    ∃ w₀, m.entities.lookup e = some w₀ := by
  unfold complete at hlookup
  split at hlookup
  case h_1 => exact entity_of_tellAll hlookup
  case h_2 => exact ⟨w, hlookup⟩

theorem Told.complete (h : Told m₀ m id outcome) (hne : id ≠ id') :
    Told m₀ (m.complete id' outcome') id outcome := by
  refine ⟨(complete_unready_ne hne).trans h.1, ?_⟩
  intro es hes e hmem w hw
  obtain ⟨w₁, hlookup₁, htold⟩ := h.2 es hes e hmem w hw
  exact complete_entities_keeps id' outcome' (fun w hw => hw.tell hne outcome') hlookup₁ htold

theorem Told.of_complete (hne : id ≠ id')
    (h : Told (m.complete id' outcome') m' id outcome) : Told m m' id outcome := by
  refine ⟨h.1, ?_⟩
  intro es hes e hmem w hw
  obtain ⟨w₁, hlookup₁, -⟩ := complete_entities_keeps id' outcome'
    (P := fun _ => True) (fun _ _ => trivial) hw trivial
  exact h.2 es ((complete_unready_ne hne).trans hes) e hmem w₁ hlookup₁

end Complete

end WaitingObjectManager

end Yuanrong.Libruntime
