import Yuanrong.Libruntime.MemoryStore

/-!
# Completing the return objects of a call

The list forms of `SetReady` and `SetError` stop at the first object that is released or ready
already, and those after it are left as they were.
-/

namespace Yuanrong.Libruntime.MemoryStore

open List Bool WaitingObjectManager

variable {m m' : MemoryStore} {dsGet : String → ErrorInfo} {id : String} {outcome : Option ErrorInfo}

structure Completed (m m' : MemoryStore) (dsGet : String → ErrorInfo) (id : String)
    (outcome : Option ErrorInfo) : Prop where
  detail : ∃ d, m.storeMap.lookup id = some d ∧ m'.storeMap.lookup id = some (d.finish outcome) ∧
    m'.ranFor id = m.ranFor id ++ d.callsOf id outcome (dsGet id)
  told : WaitingObjectManager.Told m.waitingObjectManager m'.waitingObjectManager id outcome

theorem Completed.ready (h : Completed m m' dsGet id outcome) : m'.pending id = false := by
  obtain ⟨d, -, hlookup, -⟩ := h.detail
  simp [pending, hlookup, ObjectDetail.finish]

theorem complete_waiting (hpending : m.pending id = true) :
    (m.complete dsGet id outcome).1.waitingObjectManager =
      m.waitingObjectManager.complete id outcome := by
  obtain ⟨d, hlookup, hready⟩ := pending_iff.mp hpending
  rw [complete_of_pending hlookup hready]

theorem Completed.complete (h : Completed m m' dsGet id outcome) (id' : String) :
    Completed m (m'.complete dsGet id' outcome).1 dsGet id outcome := by
  cases hpending : m'.pending id' with
  | false => rwa [complete_of_not_pending hpending]
  | true =>
    have hne : id ≠ id' := by
      rintro rfl
      exact false_ne_true (h.ready.symm.trans hpending)
    obtain ⟨d, hbefore, hafter, hran⟩ := h.detail
    refine ⟨⟨d, hbefore, ?_, ?_⟩, ?_⟩
    · rw [complete_lookup_ne hne, hafter]
    · rw [complete_ranFor_ne hne, hran]
    · rw [complete_waiting hpending]
      exact h.told.complete hne

theorem Completed.completeAll (h : Completed m m' dsGet id outcome) (ids : List String) :
    Completed m (m'.completeAll dsGet outcome ids).1 dsGet id outcome := by
  induction ids generalizing m' with
  | nil => exact h
  | cons id' _ ih =>
    unfold MemoryStore.completeAll
    split
    · exact ih (h.complete id')
    · exact h.complete id'

theorem completed_complete_iff (hpending : m.pending id' = true) (hne : id ≠ id') :
    Completed (m.complete dsGet id' outcome).1 m' dsGet id outcome ↔
      Completed m m' dsGet id outcome := by
  have hlookup : (m.complete dsGet id' outcome).1.storeMap.lookup id = m.storeMap.lookup id :=
    complete_lookup_ne hne
  have hran : (m.complete dsGet id' outcome).1.ranFor id = m.ranFor id := complete_ranFor_ne hne
  constructor
  · rintro ⟨hdetail, htold⟩
    rw [hlookup, hran] at hdetail
    rw [complete_waiting hpending] at htold
    exact ⟨hdetail, htold.of_complete hne⟩
  · rintro ⟨hdetail, htold⟩
    refine ⟨?_, ?_⟩
    · rwa [hlookup, hran]
    rw [complete_waiting hpending]
    refine ⟨htold.1, ?_⟩
    intro es hes e hmem w hw
    rw [complete_unready_ne hne] at hes
    obtain ⟨w₀, hw₀⟩ := entity_of_complete hw
    exact htold.2 es hes e hmem w₀ hw₀

/-- No object that is not pending, or that the list has before, stands before a pending one. -/
def unbroken (pending : String → Bool) : List String → Bool
  | [] => true
  | id :: rest =>
    if pending id then unbroken (fun j => pending j && j != id) rest
    else rest.all fun j => !pending j

theorem completeAll_iff (m : MemoryStore) (dsGet : String → ErrorInfo) (outcome : Option ErrorInfo)
    (ids : List String) :
    (∀ id ∈ ids, m.pending id = true →
        Completed m (m.completeAll dsGet outcome ids).1 dsGet id outcome) ↔
      unbroken m.pending ids = true := by
  induction ids generalizing m with
  | nil => simp [unbroken]
  | cons id rest ih =>
    unfold MemoryStore.completeAll unbroken
    rw [complete_snd]
    cases hpending : m.pending id with
    | false =>
      rw [complete_of_not_pending hpending, if_neg Bool.false_ne_true, if_neg Bool.false_ne_true, all_eq_true]
      constructor
      · intro h j hj
        cases hj' : m.pending j with
        | false => rfl
        | true =>
          have hready := (h j (mem_cons_of_mem _ hj) hj').ready
          exact absurd (hready.symm.trans hj') false_ne_true
      · intro h j hj hj'
        rcases mem_cons.mp hj with rfl | hrest
        · exact absurd (hpending.symm.trans hj') false_ne_true
        have hnot := h j hrest
        rw [hj'] at hnot
        cases hnot
    | true =>
      rw [if_pos rfl, if_pos rfl]
      have hafter : (m.complete dsGet id outcome).1.pending = fun j => m.pending j && j != id :=
        funext fun j => complete_pending hpending
      rw [← hafter, ← ih]
      constructor
      · intro h j hj hj'
        rw [complete_pending hpending, and_eq_true, bne_iff_ne] at hj'
        exact (completed_complete_iff hpending hj'.2).mpr (h j (mem_cons_of_mem _ hj) hj'.1)
      · intro h j hj hj'
        by_cases heq : j = id
        · subst heq
          obtain ⟨d, hlookup, hready⟩ := pending_iff.mp hpending
          refine Completed.completeAll ?_ rest
          rw [complete_of_pending hlookup hready]
          refine ⟨⟨d, hlookup, AList.lookup_insert _, ?_⟩, told_complete _ _ _⟩
          simp [ranFor, callsOf_filter]
        have hrest : j ∈ rest := (mem_cons.mp hj).resolve_left heq
        refine (completed_complete_iff hpending heq).mp (h j hrest ?_)
        rw [complete_pending hpending, hj', Bool.true_and, bne_iff_ne]
        exact heq

/-- All that was pending is completed exactly when the list is unbroken in the store. -/
theorem return_objects_completed (m : MemoryStore) (dsGet : String → ErrorInfo) (ids : List String)
    (err : ErrorInfo) :
    ((∀ id ∈ ids, m.pending id = true →
        Completed m (m.setReadyAll dsGet ids).1 dsGet id none) ↔ unbroken m.pending ids = true) ∧
    ((∀ id ∈ ids, m.pending id = true →
        Completed m (m.setErrorAll dsGet ids err).1 dsGet id (some err)) ↔
      unbroken m.pending ids = true) :=
  ⟨completeAll_iff m dsGet none ids, completeAll_iff m dsGet (some err) ids⟩

/-- The first return object was released: the second one is never completed, and its callback not
run. -/
theorem released_object_blocks_next :
    ∃ m : MemoryStore, m.storeMap.lookup "r1" = none ∧ m.pending "r2" = true ∧
      (∀ dsGet, (m.setReadyAll dsGet ["r1", "r2"]).1.pending "r2" = true ∧
        (m.setReadyAll dsGet ["r1", "r2"]).1.ran = []) ∧
      ∀ dsGet err, (m.setErrorAll dsGet ["r1", "r2"] err).1.pending "r2" = true ∧
        (m.setErrorAll dsGet ["r1", "r2"] err).1.ran = [] :=
  ⟨{ storeMap := (∅ : FinMap String ObjectDetail).insert "r2" { ready := false, callbacks := ["c"] } },
    rfl, rfl, fun _ => ⟨rfl, rfl⟩, fun _ _ => ⟨rfl, rfl⟩⟩

end Yuanrong.Libruntime.MemoryStore
