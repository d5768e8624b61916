import Yuanrong.Libruntime.ObjectReferences

/-!
# References for the results of a call

A notification brings small results with it; the others are in the data system, where the caller
takes a reference. Both handlers of a notification pick them by one loop, whose cursor `curPos` is
at the end of the return ids after the first small object.
-/

namespace Yuanrong.Libruntime

/-- The inner loop, over the return ids from `curPos` on. -/
def pickLarge (small : String) : List String → Nat × List String → Nat × List String
  | [], picked => picked
  | id :: rest, (curPos, dsObjs) =>
    pickLarge small rest (curPos + 1, if id = small then dsObjs else dsObjs ++ [id])

def dsObjs (returnIds smallObjs : List String) : List String :=
  if smallObjs = [] then returnIds
  else (smallObjs.foldl (fun picked small =>
    pickLarge small (returnIds.drop picked.1) picked) (0, [])).2

/-- The references it takes in the data system. -/
def handleSuccessInvokeNotify (inCluster bypassDatasystem : Bool) (returnIds smallObjs : List String) :
    Option ReferenceStore.Event :=
  if inCluster ∧ dsObjs returnIds smallObjs ≠ [] ∧ !bypassDatasystem then
    some (.increDSGlobalReference (dsObjs returnIds smallObjs))
  else none

/-- Unlike the other handler it takes the references of an empty list too. -/
def handleReturnedObject (inCluster bypassDatasystem : Bool) (returnIds smallObjs : List String) :
    Option ReferenceStore.Event :=
  if inCluster ∧ !bypassDatasystem then some (.increDSGlobalReference (dsObjs returnIds smallObjs))
  else none

theorem pickLarge_eq (small : String) (ids : List String) (picked : Nat × List String) :
    pickLarge small ids picked =
      (picked.1 + ids.length, picked.2 ++ ids.filter fun id => id ∉ [small]) := by
  induction ids generalizing picked with
  | nil => simp [pickLarge]
  | cons id rest ih =>
    rw [pickLarge, ih, List.length_cons, List.filter_cons]
    by_cases hsmall : id = small
    · simp [hsmall, Nat.add_assoc, Nat.add_comm 1]
    · simp [hsmall, Nat.add_assoc, Nat.add_comm 1]

/-- The cursor is at the end after the first small object, so only that one is left out. -/
theorem dsObjs_cons (returnIds : List String) (small : String) (rest : List String) :
    dsObjs returnIds (small :: rest) = returnIds.filter fun id => id ∉ [small] := by
  have hend : ∀ (smallObjs : List String) (picked : Nat × List String), returnIds.length ≤ picked.1 →
      smallObjs.foldl (fun picked small => pickLarge small (returnIds.drop picked.1) picked) picked =
        picked := by
    intro smallObjs picked hle
    induction smallObjs with
    | nil => rfl
    | cons small rest ih =>
      rw [List.foldl_cons, List.drop_eq_nil_of_le hle]
      exact ih
  rw [dsObjs, if_neg (List.cons_ne_nil _ _), List.foldl_cons, hend _ _ (by simp [pickLarge_eq])]
  simp [pickLarge_eq]

/-- Both handlers take the references of `large`, the first only if there are any. -/
def RefersTo (returnIds smallObjs large : List String) : Prop :=
  ∀ inCluster bypassDatasystem : Bool,
    handleSuccessInvokeNotify inCluster bypassDatasystem returnIds smallObjs =
      (if inCluster ∧ large ≠ [] ∧ !bypassDatasystem then some (.increDSGlobalReference large)
        else none) ∧
    handleReturnedObject inCluster bypassDatasystem returnIds smallObjs =
      if inCluster ∧ !bypassDatasystem then some (.increDSGlobalReference large) else none

theorem refersTo_iff : RefersTo returnIds smallObjs large ↔ dsObjs returnIds smallObjs = large := by
  constructor
  · intro hrefers
    simpa [handleReturnedObject] using (hrefers true false).2
  · rintro rfl _ _
    exact ⟨rfl, rfl⟩

/-- Of distinct results with the small ones in their order exactly the others are referred to if and
only if at most one is small. -/
theorem only_large_results_refer (returnIds smallObjs : List String) (hnodup : returnIds.Nodup)
    (hsub : smallObjs.Sublist returnIds) :
    RefersTo returnIds smallObjs (returnIds.filter fun id => id ∉ smallObjs) ↔
      smallObjs.length ≤ 1 := by
  rw [refersTo_iff]
  rcases smallObjs with _ | ⟨small, _ | ⟨second, rest⟩⟩
  · simp [dsObjs]
  · simp [dsObjs_cons]
  refine iff_of_false (fun heq => ?_) (by simp)
  have hne : second ≠ small := by
    rintro rfl
    exact (List.nodup_cons.mp (hnodup.sublist hsub)).1 List.mem_cons_self
  have hmem : second ∈ dsObjs returnIds (small :: second :: rest) := by
    rw [dsObjs_cons]
    simpa [hne] using hsub.subset (List.mem_cons_of_mem _ List.mem_cons_self)
  simp [heq] at hmem

theorem only_large_results_refer_one :
    handleSuccessInvokeNotify true false ["l", "s", "m"] ["s"] =
      some (.increDSGlobalReference ["l", "m"]) :=
  ((only_large_results_refer ["l", "s", "m"] ["s"] (by decide) (by decide)).mpr le_rfl true false).1

/-- Of two small results the second one is referred to in the data system. -/
theorem small_result_refers :
    ["a", "b"].Nodup ∧ ["a", "b"].Sublist ["a", "b"] ∧
      handleSuccessInvokeNotify true false ["a", "b"] ["a", "b"] =
        some (.increDSGlobalReference ["b"]) ∧
      handleReturnedObject true false ["a", "b"] ["a", "b"] = some (.increDSGlobalReference ["b"]) := by
  decide

end Yuanrong.Libruntime
