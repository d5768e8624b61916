import Yuanrong.Libruntime.MemoryStore

/-!
# The invocation of a function group

The return objects of the call are distributed over the instances of the group, each of which is
invoked. The notifications are counted up to the size in the options, and then the group is
terminated.
-/

namespace Yuanrong.Libruntime

open List

structure GroupInvoke where
  instanceId : String
  returnIds : List String

def assignReturnIds (returnIdSize : Nat) : List String → List String → List GroupInvoke
  | [], _ => []
  | instanceId :: rest, returnIds =>
    ⟨instanceId, returnIds.take returnIdSize⟩ ::
      assignReturnIds returnIdSize rest (returnIds.drop returnIdSize)

def buildInvokeSpec (returnIds instanceIds : List String) : List GroupInvoke :=
  assignReturnIds (returnIds.length / instanceIds.length) instanceIds returnIds

/-- `requests` are those not yet notified. The last two fields count calls. -/
structure FunctionGroup where
  requests : List GroupInvoke
  memStore : MemoryStore
  finishTaskNum : Nat := 0
  released : Nat := 0
  terminated : Nat := 0

/-- Different objects that are in the store and not ready are all completed. -/
theorem MemoryStore.completeAll_lookup {dsGet : String → ErrorInfo} {ids : List String} {id : String}
    (hnodup : ids.Nodup) : ∀ {m : MemoryStore}, (∀ id ∈ ids, m.pending id = true) →
    (m.completeAll dsGet outcome ids).1.storeMap.lookup id =
      if id ∈ ids then (m.storeMap.lookup id).map (·.finish outcome) else m.storeMap.lookup id := by
  induction ids with
  | nil => exact fun _ => rfl
  | cons first rest ih =>
    intro m hpending
    obtain ⟨hnew, hrest⟩ := nodup_cons.mp hnodup
    have hfirst := hpending first mem_cons_self
    have hlater : ∀ id ∈ rest, (m.complete dsGet first outcome).1.pending id = true := by
      intro id hid
      have hne : id ≠ first := by
        rintro rfl
        exact hnew hid
      rw [complete_pending hfirst, hpending id (mem_cons_of_mem _ hid), Bool.true_and, bne_iff_ne]
      exact hne
    rw [completeAll, complete_snd, if_pos hfirst, ih hrest hlater]
    by_cases heq : id = first
    · subst heq
      obtain ⟨d, hlookup, hready⟩ := pending_iff.mp hfirst
      rw [if_neg hnew, if_pos mem_cons_self, complete_of_pending hlookup hready, hlookup]
      exact AList.lookup_insert _
    · rw [complete_lookup_ne heq]
      simp [heq]

namespace FunctionGroup

variable {dsGet : String → ErrorInfo} {functionGroupSize : Int} {ids : List String} {s : FunctionGroup}

/-- The callback of `InvokeAsync` for one of the requests: its objects are set ready or in error. -/
def invokeNotify (dsGet : String → ErrorInfo) (functionGroupSize : Int) (s : FunctionGroup)
    (e : Nat × Option ErrorInfo) : FunctionGroup :=
  match s.requests[e.1]? with
  | none => s
  | some r =>
    let s' := { s with
      requests := s.requests.eraseIdx e.1
      memStore := (s.memStore.completeAll dsGet e.2 r.returnIds).1
      finishTaskNum := s.finishTaskNum + 1 }
    if s'.finishTaskNum < functionGroupSize then s'
    else { s' with released := s.released + 1, terminated := s.terminated + 1 }

def completed (s : FunctionGroup) (id : String) : Bool :=
  (s.memStore.storeMap.lookup id).any ObjectDetail.ready

def toComplete (s : FunctionGroup) : List String := s.requests.flatMap (·.returnIds)

/-- What is not yet completed is in one request, and from the size on each notification ends the
call. -/
structure Inv (ids : List String) (functionGroupSize : Int) (n : Nat) (s : FunctionGroup) : Prop where
  nodup : s.toComplete.Nodup
  pending : ∀ id ∈ s.toComplete, s.memStore.pending id = true
  assigned : ∀ id ∈ ids, id ∈ s.toComplete ∨ s.completed id = true
  finished : s.finishTaskNum + s.requests.length = n
  released : s.released = s.terminated
  terminated : (s.terminated : Int) = max 0 (s.finishTaskNum + 1 - max 1 functionGroupSize)

theorem Inv.step (h : s.Inv ids functionGroupSize n) (e : Nat × Option ErrorInfo) :
    (s.invokeNotify dsGet functionGroupSize e).Inv ids functionGroupSize n := by
  unfold invokeNotify
  split
  case h_1 => exact h
  rename_i r hr
  obtain ⟨hi, rfl⟩ := List.getElem?_eq_some_iff.mp hr
  have hperm : (s.requests[e.1].returnIds ++ (s.requests.eraseIdx e.1).flatMap (·.returnIds)).Perm
      s.toComplete := (getElem_cons_eraseIdx_perm hi).flatMap_right GroupInvoke.returnIds
  obtain ⟨hshare, hrest, hapart⟩ := nodup_append.mp (hperm.nodup_iff.mpr h.nodup)
  have hpending : ∀ id ∈ s.requests[e.1].returnIds, s.memStore.pending id = true := fun id hid =>
    h.pending id (hperm.mem_iff.mp (mem_append_left _ hid))
  have hlookup : ∀ id, (s.memStore.completeAll dsGet e.2 s.requests[e.1].returnIds).1.storeMap.lookup id =
      _ := fun id => MemoryStore.completeAll_lookup hshare hpending
  have hlater : ∀ id ∈ (s.requests.eraseIdx e.1).flatMap (·.returnIds),
      (s.memStore.completeAll dsGet e.2 s.requests[e.1].returnIds).1.pending id = true := by
    intro id hid
    rw [MemoryStore.pending, hlookup, if_neg fun hmem => hapart id hmem id hid rfl]
    exact h.pending id (hperm.mem_iff.mp (mem_append_right _ hid))
  have hassigned : ∀ id ∈ ids, id ∈ (s.requests.eraseIdx e.1).flatMap (·.returnIds) ∨
      ((s.memStore.completeAll dsGet e.2 s.requests[e.1].returnIds).1.storeMap.lookup id).any
        ObjectDetail.ready = true := by
    intro id hid
    rw [hlookup]
    by_cases hmem : id ∈ s.requests[e.1].returnIds
    · obtain ⟨d, hd, -⟩ := MemoryStore.pending_iff.mp (hpending id hmem)
      rw [if_pos hmem, hd]
      exact .inr rfl
    · rw [if_neg hmem]
      refine (h.assigned id hid).imp_left fun hopen => ?_
      exact (mem_append.mp (hperm.mem_iff.mpr hopen)).resolve_left hmem
  have hlength := length_eraseIdx_add_one hi
  have hfinished := h.finished
  have hreleased := h.released
  have hterminated := h.terminated
  dsimp only
  split
  all_goals
    refine ⟨hrest, hlater, hassigned, ?_, ?_, ?_⟩
    all_goals
      dsimp only
      omega

theorem invokeNotify_requests (outcome : Option ErrorInfo) :
    (s.invokeNotify dsGet functionGroupSize (0, outcome)).requests = s.requests.tail := by
  unfold invokeNotify
  split
  case h_1 hnone =>
    rw [getElem?_eq_none_iff, Nat.le_zero, length_eq_zero_iff] at hnone
    rw [hnone, tail_nil]
  case h_2 =>
    dsimp only
    split
    all_goals exact eraseIdx_zero

theorem foldl_invokeNotify_requests (dsGet : String → ErrorInfo) (functionGroupSize : Int)
    (s : FunctionGroup) (n : Nat) :
    ((replicate n (0, none)).foldl (invokeNotify dsGet functionGroupSize) s).requests =
      s.requests.drop n := by
  induction n generalizing s with
  | zero => rfl
  | succ n ih => rw [replicate_succ, foldl_cons, ih, invokeNotify_requests, drop_tail]

end FunctionGroup

variable {returnIds instanceIds : List String}

theorem length_assignReturnIds (size : Nat) :
    (assignReturnIds size instanceIds returnIds).length = instanceIds.length := by
  induction instanceIds generalizing returnIds with
  | nil => rfl
  | cons instanceId rest ih => exact congrArg (· + 1) ih

theorem flatMap_assignReturnIds (size : Nat) :
    (assignReturnIds size instanceIds returnIds).flatMap (·.returnIds) =
      returnIds.take (size * instanceIds.length) := by
  induction instanceIds generalizing returnIds with
  | nil => rfl
  | cons instanceId rest ih =>
    rw [assignReturnIds, flatMap_cons, ih, length_cons, Nat.mul_succ, Nat.add_comm, take_add]

/-- The shares are of one size, so they have all objects just if they divide evenly. -/
theorem flatMap_buildInvokeSpec_iff : (buildInvokeSpec returnIds instanceIds).flatMap (·.returnIds) =
    returnIds ↔ instanceIds.length ∣ returnIds.length := by
  rw [buildInvokeSpec, flatMap_assignReturnIds, take_eq_self_iff]
  refine ⟨fun h => ?_, fun h => (Nat.div_mul_cancel h).ge⟩
  exact ⟨_, (le_antisymm h (Nat.div_mul_le_self _ _)).trans (Nat.mul_comm _ _)⟩

/-- **The end of a group call.** The return objects are in the store and not ready when the call is
made. Then each is in one request, all are completed by the last notification, and this one, and no
other, releases the references and terminates the group, just if the objects divide evenly and the
number of instances is the size in the options, or one where that is less. -/
theorem group_call_ends (memStore : MemoryStore) (dsGet : String → ErrorInfo)
    (returnIds instanceIds : List String) (functionGroupSize : Int) (hnodup : returnIds.Nodup)
    (hpending : ∀ id ∈ returnIds, memStore.pending id = true) :
    let requests := buildInvokeSpec returnIds instanceIds
    (requests.flatMap (·.returnIds) = returnIds ∧ ∀ es : List (Nat × Option ErrorInfo),
      let s := es.foldl (FunctionGroup.invokeNotify dsGet functionGroupSize) { requests, memStore }
      (s.requests = [] → ∀ id ∈ returnIds, s.completed id = true) ∧ s.released = s.terminated ∧
        s.terminated = if s.requests = [] then 1 else 0) ↔
      instanceIds.length ∣ returnIds.length ∧ (instanceIds.length : Int) = max 1 functionGroupSize := by
  intro requests
  have hlength : requests.length = instanceIds.length := length_assignReturnIds _
  have hinv : requests.flatMap (·.returnIds) = returnIds → ∀ es : List (Nat × Option ErrorInfo),
      (es.foldl (FunctionGroup.invokeNotify dsGet functionGroupSize) { requests, memStore }).Inv
        returnIds functionGroupSize instanceIds.length := by
    intro hall es
    have hopen : FunctionGroup.toComplete { requests, memStore } = returnIds := hall
    refine foldlRecOn (motive := FunctionGroup.Inv _ _ _) es _ ?_ fun s h e _ => h.step e
    refine ⟨hopen ▸ hnodup, fun id hid => hpending id (hopen ▸ hid), fun id hid => .inl (hopen ▸ hid),
      (Nat.zero_add _).trans hlength, rfl, ?_⟩
    dsimp only
    omega
  rw [flatMap_buildInvokeSpec_iff]
  refine and_congr_right fun hshares => ?_
  have hrun := hinv (flatMap_buildInvokeSpec_iff.mpr hshares)
  constructor
  · intro h
    -- the requests are notified one after the other
    have hnone := FunctionGroup.foldl_invokeNotify_requests dsGet functionGroupSize
      { requests, memStore } requests.length
    rw [drop_length] at hnone
    have hlast := (h (replicate requests.length (0, none))).2.2
    obtain ⟨-, -, -, hfinished, -, hterminated⟩ := hrun (replicate requests.length (0, none))
    rw [if_pos hnone] at hlast
    rw [hnone, length_nil, Nat.add_zero] at hfinished
    rw [hlast, hfinished] at hterminated
    omega
  · intro hsize es
    obtain ⟨-, -, hassigned, hfinished, hreleased, hterminated⟩ := hrun es
    refine ⟨fun hnone id hid => (hassigned id hid).resolve_left ?_, hreleased, ?_⟩
    · rw [FunctionGroup.toComplete, hnone]
      exact not_mem_nil
    · split
      case isTrue hnone =>
        have := length_eq_zero_iff.mpr hnone
        omega
      case isFalse hsome =>
        have := length_eq_zero_iff.not.mpr hsome
        omega

def unreadyObjects (ids : List String) : MemoryStore :=
  { storeMap := ids.foldl (fun m id => m.insert id { ready := false }) ∅ }

/-- Two objects and a group of one instance, whose size the options do not give. -/
theorem group_call_ends_one :
    let s := [(0, some ⟨3003, "e"⟩)].foldl (FunctionGroup.invokeNotify (fun _ => {}) 0)
      { requests := buildInvokeSpec ["a", "b"] ["i"], memStore := unreadyObjects ["a", "b"] }
    s.completed "b" = true ∧ s.terminated = 1 := by
  intro s
  have hends := (group_call_ends (unreadyObjects ["a", "b"]) (fun _ => {}) ["a", "b"] ["i"] 0 (by decide)
    (by decide)).mpr (by decide)
  obtain ⟨hcompleted, -, hterminated⟩ := hends.2 [(0, some ⟨3003, "e"⟩)]
  exact ⟨hcompleted rfl "b" (by decide), hterminated⟩

/-- Of three objects the third is no instance's. -/
theorem return_object_left :
    let s := [(0, none), (0, none)].foldl (FunctionGroup.invokeNotify (fun _ => {}) 2)
      { requests := buildInvokeSpec ["a", "b", "c"] ["i", "j"], memStore := unreadyObjects ["a", "b", "c"] }
    s.requests.length = 0 ∧ s.terminated = 1 ∧ s.completed "c" = false :=
  ⟨rfl, rfl, rfl⟩

end Yuanrong.Libruntime
