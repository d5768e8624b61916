import Yuanrong.Libruntime.TaskSubmitter

/-!
# A request that is gone is done

Each handler either has the call that completes the return objects and the one that releases the
references still to make, or there is nothing left for it to do. A request leaves the map by a
handler's call, so when no handler works on it any more, all was done.
-/

namespace Yuanrong.Libruntime

open AList List MemoryStore

namespace MemoryStore

variable {m : MemoryStore} {dsGet : String → ErrorInfo} {id id' : String}

theorem complete_not_pending (h : m.pending id' = false) :
    (m.complete dsGet id outcome).1.pending id' = false := by
  cases hpending : m.pending id with
  | false => rwa [complete_of_not_pending hpending]
  | true => rw [complete_pending hpending, h, Bool.false_and]

theorem completeAll_not_pending (ids : List String) (h : m.pending id' = false) :
    (m.completeAll dsGet outcome ids).1.pending id' = false := by
  induction ids generalizing m with
  | nil => exact h
  | cons _ _ ih =>
    unfold completeAll
    split
    · exact ih (complete_not_pending h)
    · exact complete_not_pending h

theorem pending_putInMemory : (m.putInMemory id).pending id' = m.pending id' := by
  unfold putInMemory
  split
  case h_1 => rfl
  rename_i d hlookup
  split
  · rfl
  unfold pending
  rw [lookup_insert_eq_ite]
  split
  · rename_i heq
    subst heq
    rw [hlookup]
    rfl
  · rfl

theorem pending_addReturnObject (hne : id' ≠ id) : (m.addReturnObject id).1.pending id' = m.pending id' := by
  unfold addReturnObject
  split
  · rfl
  · unfold pending
    rw [lookup_insert_ne hne]

theorem pending_addReturnObjects (hnotMem : id' ∉ ids) :
    (m.addReturnObjects ids).pending id' = m.pending id' := by
  induction ids generalizing m with
  | nil => rfl
  | cons id _ ih =>
    have hne : id' ≠ id := fun heq => hnotMem (heq ▸ mem_cons_self)
    unfold addReturnObjects
    split
    · rw [ih fun hmem => hnotMem (mem_cons_of_mem _ hmem), pending_addReturnObject hne]
    · exact pending_addReturnObject hne

end MemoryStore

namespace TaskSubmitter

variable {dsGet : String → ErrorInfo} {s s' : TaskSubmitter} {e : Event} {p : SubmittedRequest}
  {spec : InvokeSpec} {h : Handler} {id : String}

def boundTo (s : TaskSubmitter) (id : String) : List String := (s.reqObjStore.lookup id).getD []

def decreasedFor (s : TaskSubmitter) (id : String) : List String :=
  (s.decreased.filter (·.1 = id)).flatMap (·.2)

def completes : HandlerCall → Bool
  | .setReady _ | .setError _ _ | .setReadyAll | .setErrorAll _ => true
  | _ => false

/-- A completing call reaches every return object that is still to be completed. -/
def reachesAll (s : TaskSubmitter) (spec : InvokeSpec) : HandlerCall → Bool
  | .setReadyAll | .setErrorAll _ => unbroken s.memoryStore.pending spec.returnIds
  | .setReady id | .setError id _ => spec.returnIds.all fun r => r == id || !s.memoryStore.pending r
  | _ => true

/-- Handlers without release have no references, and completing calls reach all objects. -/
def thorough (s : TaskSubmitter) : Event → Bool
  | .drain id _ => (s.requestMap.lookup id).isNone || (s.boundTo id).isEmpty
  | .cancelStatelessRequest id _ isForce concurrent =>
    (s.requestMap.lookup id).all fun spec =>
      spec.cancelIgnored isForce concurrent || (s.boundTo id).isEmpty
  | .call i => s.handlers[i]?.all fun h => h.todo.head?.all (s.reachesAll h.spec)
  | _ => true

/-- The return objects are completed or released, and no reference is bound. -/
structure Done (s : TaskSubmitter) (requestId : String) (returnIds : List String) : Prop where
  completed : ∀ r ∈ returnIds, s.memoryStore.pending r = false
  unbound : s.boundTo requestId = []

structure OnCourse (s : TaskSubmitter) (h : Handler) : Prop where
  completed : h.todo.any completes = true ∨ ∀ r ∈ h.spec.returnIds, s.memoryStore.pending r = false
  unbound : .releaseRefs ∈ h.todo ∨ s.boundTo h.spec.requestId = []

def Known (s : TaskSubmitter) (spec : InvokeSpec) : Prop :=
  ∃ p ∈ s.submitted, p.requestId = spec.requestId ∧ p.returnIds = spec.returnIds

structure Keeps (s s' : TaskSubmitter) : Prop where
  completed : ∀ p ∈ s.submitted, ∀ r ∈ p.returnIds, s.memoryStore.pending r = false →
    s'.memoryStore.pending r = false
  unbound : ∀ p ∈ s.submitted, s.boundTo p.requestId = [] → s'.boundTo p.requestId = []

structure Inv (s : TaskSubmitter) : Prop where
  handlers : ∀ h ∈ s.handlers, Known s h.spec ∧ OnCourse s h
  requests : ∀ id spec, s.requestMap.lookup id = some spec → spec.requestId = id ∧ Known s spec
  gone : ∀ p ∈ s.submitted, s.requestMap.lookup p.requestId = none →
    (∃ h ∈ s.handlers, h.spec.requestId = p.requestId) ∨ Done s p.requestId p.returnIds
  refs : ∀ p ∈ s.submitted, s.decreasedFor p.requestId ++ s.boundTo p.requestId = p.objIds
  unsubmitted : ∀ id, (∀ p ∈ s.submitted, p.requestId ≠ id) → s.decreasedFor id = []
  unique : (s.submitted.map (·.requestId)).Nodup

theorem Keeps.done (hkeeps : Keeps s s') (hp : p ∈ s.submitted)
    (hdone : Done s p.requestId p.returnIds) : Done s' p.requestId p.returnIds :=
  ⟨fun r hr => hkeeps.completed p hp r hr (hdone.completed r hr), hkeeps.unbound p hp hdone.unbound⟩

theorem Keeps.onCourse (hkeeps : Keeps s s') (hknown : Known s h.spec) (hcourse : OnCourse s h) :
    OnCourse s' h := by
  obtain ⟨p, hp, hid, hreturns⟩ := hknown
  refine ⟨hcourse.completed.imp_right fun hall r hr => ?_, hcourse.unbound.imp_right fun hnil => ?_⟩
  · exact hkeeps.completed p hp r (hreturns ▸ hr) (hall r hr)
  · rw [← hid] at hnil ⊢
    exact hkeeps.unbound p hp hnil

theorem Inv.of_keeps (h : Inv s) (hkeeps : Keeps s s') (hsubmitted : s'.submitted = s.submitted)
    (hrefs : ∀ id, s'.decreasedFor id ++ s'.boundTo id = s.decreasedFor id ++ s.boundTo id)
    (hunsubmitted : ∀ id, (∀ p ∈ s.submitted, p.requestId ≠ id) → s'.decreasedFor id = [])
    (hhandlers : ∀ h' ∈ s'.handlers, h' ∈ s.handlers ∨ Known s h'.spec ∧ OnCourse s' h')
    (hrequests : ∀ id spec, s'.requestMap.lookup id = some spec → spec.requestId = id ∧ Known s spec)
    (hgone : ∀ p ∈ s.submitted, s'.requestMap.lookup p.requestId = none →
      (∃ h ∈ s'.handlers, h.spec.requestId = p.requestId) ∨ Done s' p.requestId p.returnIds) : Inv s' := by
  have hknown : ∀ spec, Known s spec → Known s' spec := by
    intro spec hk
    unfold Known
    rw [hsubmitted]
    exact hk
  refine ⟨?_, ?_, ?_, ?_, ?_, hsubmitted ▸ h.unique⟩
  · intro h' hmem
    rcases hhandlers h' hmem with hold | ⟨hk, hcourse⟩
    · exact ⟨hknown _ (h.handlers h' hold).1, hkeeps.onCourse (h.handlers h' hold).1 (h.handlers h' hold).2⟩
    · exact ⟨hknown _ hk, hcourse⟩
  · exact fun id spec hlookup => ⟨(hrequests id spec hlookup).1, hknown _ (hrequests id spec hlookup).2⟩
  · rw [hsubmitted]
    exact hgone
  · rw [hsubmitted]
    exact fun p hp => (hrefs p.requestId).trans (h.refs p hp)
  · rw [hsubmitted]
    exact hunsubmitted

section

variable {requestMap : FinMap String InvokeSpec} {queue downgrading : List String}
  {sent : List (String × Nat)} {handlers : List Handler} {runFlag : Bool}

theorem Inv.of_same (h : Inv s) (hmore : ∀ h' ∈ s.handlers, h' ∈ handlers)
    (hhandlers : ∀ h' ∈ handlers, h' ∈ s.handlers ∨ Known s h'.spec ∧ OnCourse s h')
    (hrequests : ∀ id spec, requestMap.lookup id = some spec → spec.requestId = id ∧ Known s spec)
    (hgone : ∀ id, requestMap.lookup id = none →
      s.requestMap.lookup id = none ∨ ∃ h ∈ handlers, h.spec.requestId = id) :
    Inv { s with requestMap, queue, downgrading, sent, handlers, runFlag } := by
  have hkeeps : Keeps s { s with requestMap, queue, downgrading, sent, handlers, runFlag } :=
    ⟨fun _ _ _ _ hnot => hnot, fun _ _ hnil => hnil⟩
  refine h.of_keeps hkeeps rfl (fun _ => rfl) h.unsubmitted ?_ hrequests ?_
  · exact fun h' hmem => (hhandlers h' hmem).imp_right fun hnew => ⟨hnew.1, hkeeps.onCourse hnew.1 hnew.2⟩
  intro p hp hnone
  rcases hgone p.requestId hnone with hbefore | hhandler
  · rcases h.gone p hp hbefore with ⟨h', hmem, hid⟩ | hdone
    · exact .inl ⟨h', hmore h' hmem, hid⟩
    · exact .inr (hkeeps.done hp hdone)
  · exact .inl hhandler

theorem Inv.others (h : Inv s) : Inv { s with queue, downgrading, sent, runFlag } :=
  h.of_same (fun _ hmem => hmem) (fun _ hmem => .inl hmem) h.requests fun _ hnone => .inl hnone

theorem Inv.updateSpec (hinv : Inv s) (hlookup : s.requestMap.lookup id = some spec)
    (hid : spec'.requestId = spec.requestId) (hreturns : spec'.returnIds = spec.returnIds) : Inv { s with
      requestMap := s.requestMap.insert spec.requestId spec', queue, downgrading, sent, runFlag } := by
  obtain ⟨hself, p, hp, hpid, hpreturns⟩ := hinv.requests id spec hlookup
  refine hinv.of_same (fun _ hmem => hmem) (fun _ hmem => .inl hmem) ?_ ?_
  · refine forall_lookup_insert ?_ hinv.requests
    exact ⟨hid, p, hp, hpid.trans hid.symm, hpreturns.trans hreturns.symm⟩
  intro id' hnone
  rw [lookup_insert_eq_ite] at hnone
  split at hnone
  · cases hnone
  · exact .inl hnone

end

theorem Inv.addHandler (hinv : Inv s) (hknown : Known s h.spec) (hcourse : OnCourse s h)
    (hs' : s' = s.addHandler h) : Inv s' := by
  subst hs'
  refine hinv.of_same (fun h' hmem => mem_append_left _ hmem) ?_ hinv.requests
    fun id hnone => .inl hnone
  exact forall_mem_append.mpr ⟨fun _ hold => .inl hold,
    forall_mem_singleton.mpr (.inr ⟨hknown, hcourse⟩)⟩

theorem boundTo_erase {refs : FinMap String (List String)} (hrefs : s'.reqObjStore = refs.erase id)
    (id' : String) : s'.boundTo id' = if id' = id then [] else (refs.lookup id').getD [] := by
  unfold boundTo
  rw [hrefs, lookup_erase_eq_ite]
  split
  · rfl
  · rfl

section MakeCall

variable (c : HandlerCall)

theorem keeps_makeCall : Keeps s (s.makeCall dsGet spec c) := by
  cases c with
  | removeRequest => exact ⟨fun _ _ _ _ hnot => hnot, fun _ _ hnil => hnil⟩
  | put =>
    refine ⟨fun _ _ r _ hnot => ?_, fun _ _ hnil => hnil⟩
    exact pending_putInMemory.trans hnot
  | setReady => exact ⟨fun _ _ _ _ hnot => complete_not_pending hnot, fun _ _ hnil => hnil⟩
  | setError => exact ⟨fun _ _ _ _ hnot => complete_not_pending hnot, fun _ _ hnil => hnil⟩
  | setReadyAll | setErrorAll err =>
    exact ⟨fun _ _ _ _ hnot => completeAll_not_pending _ hnot, fun _ _ hnil => hnil⟩
  | releaseRefs =>
    refine ⟨fun _ _ _ _ hnot => hnot, fun p _ hnil => ?_⟩
    rw [boundTo_erase rfl]
    split
    · rfl
    · exact hnil

theorem refs_makeCall (id : String) :
    (s.makeCall dsGet spec c).decreasedFor id ++ (s.makeCall dsGet spec c).boundTo id =
        s.decreasedFor id ++ s.boundTo id ∧
      (id ≠ spec.requestId → (s.makeCall dsGet spec c).decreasedFor id = s.decreasedFor id) := by
  cases c with
  | releaseRefs =>
    have hdecreased : (s.makeCall dsGet spec .releaseRefs).decreasedFor id =
        s.decreasedFor id ++ if id = spec.requestId then s.boundTo id else [] := by
      simp only [decreasedFor, makeCall, filter_append, flatMap_append]
      by_cases heq : id = spec.requestId
      · subst heq
        simp [boundTo]
      · simp [heq, Ne.symm heq]
    have hbound : (s.makeCall dsGet spec .releaseRefs).boundTo id =
        if id = spec.requestId then [] else s.boundTo id := boundTo_erase rfl id
    rw [hdecreased, hbound]
    by_cases heq : id = spec.requestId
    · simp [heq]
    · simp [heq]
  | _ => exact ⟨rfl, fun _ => rfl⟩

theorem lookup_makeCall (hlookup : (s.makeCall dsGet spec c).requestMap.lookup id = none) :
    s.requestMap.lookup id = none ∨ id = spec.requestId := by
  cases c with
  | removeRequest =>
    change (s.requestMap.erase spec.requestId).lookup id = none at hlookup
    rw [lookup_erase_eq_ite] at hlookup
    split at hlookup
    case isTrue heq => exact .inr heq
    case isFalse => exact .inl hlookup
  | _ => exact .inl hlookup

theorem lookup_of_makeCall (hlookup : (s.makeCall dsGet spec c).requestMap.lookup id = some spec') :
    s.requestMap.lookup id = some spec' := by
  cases c with
  | removeRequest => exact lookup_of_erase hlookup
  | _ => exact hlookup

theorem completed_makeCall (hcompletes : completes c = true) (hreaches : s.reachesAll spec c = true) :
    ∀ r ∈ spec.returnIds, (s.makeCall dsGet spec c).memoryStore.pending r = false := by
  have hone : ∀ id outcome, (spec.returnIds.all fun r => r == id || !s.memoryStore.pending r) = true →
      ∀ r ∈ spec.returnIds, (s.memoryStore.complete dsGet id outcome).1.pending r = false := by
    intro id outcome hall r hr
    have hr' := all_eq_true.mp hall r hr
    rw [Bool.or_eq_true, beq_iff_eq, Bool.not_eq_true'] at hr'
    rcases hr' with rfl | hnot
    · cases hpending : s.memoryStore.pending r with
      | false => rwa [complete_of_not_pending hpending]
      | true => simp [complete_pending hpending]
    · exact complete_not_pending hnot
  cases c with
  | setReady id => exact hone id none hreaches
  | setError id err => exact hone id (some err) hreaches
  | setReadyAll | setErrorAll err =>
    intro r hr
    cases hpending : s.memoryStore.pending r with
    | false => exact completeAll_not_pending _ hpending
    | true => exact ((completeAll_iff _ _ _ _).mpr hreaches r hr hpending).ready
  | removeRequest | put | releaseRefs => cases hcompletes

theorem onCourse_makeCall (hknown : Known s spec) (hcourse : OnCourse s ⟨spec, c :: rest⟩)
    (hreaches : s.reachesAll spec c = true) : OnCourse (s.makeCall dsGet spec c) ⟨spec, rest⟩ := by
  obtain ⟨p, hp, hid, hreturns⟩ := hknown
  have hkeeps : Keeps s (s.makeCall dsGet spec c) := keeps_makeCall c
  refine ⟨?_, ?_⟩
  · rcases hcourse.completed with hany | hall
    · rw [any_cons, Bool.or_eq_true] at hany
      rcases hany with hc | hrest
      · exact .inr (completed_makeCall c hc hreaches)
      · exact .inl hrest
    · exact .inr fun r hr => hkeeps.completed p hp r (hreturns ▸ hr) (hall r hr)
  · rcases hcourse.unbound with hmem | hnil
    · rcases mem_cons.mp hmem with rfl | hrest
      · refine .inr ?_
        rw [boundTo_erase rfl, if_pos rfl]
      · exact .inl hrest
    · refine .inr ?_
      rw [← hid] at hnil
      rw [← hid]
      exact hkeeps.unbound p hp hnil

end MakeCall

theorem Inv.makeCall (h : Inv s) (hget : s.handlers[i]? = some ⟨spec, c :: rest⟩)
    (hreaches : s.reachesAll spec c = true) :
    Inv { s.makeCall dsGet spec c with handlers := s.handlers.set i ⟨spec, rest⟩ } := by
  obtain ⟨hlt, hgetElem⟩ := List.getElem?_eq_some_iff.mp hget
  obtain ⟨hknown, hcourse⟩ := h.handlers _ (mem_of_getElem? hget)
  have hself : (⟨spec, rest⟩ : Handler) ∈ s.handlers.set i ⟨spec, rest⟩ := mem_set hlt _
  have hkeeps : Keeps s (s.makeCall dsGet spec c) := keeps_makeCall c
  refine h.of_keeps { hkeeps with } (by cases c <;> rfl) (fun id => (refs_makeCall c id).1) ?_ ?_
    (fun id spec' hlookup => h.requests id spec' (lookup_of_makeCall c hlookup)) ?_
  · intro id hid
    obtain ⟨p, hp, hpid, -⟩ := hknown
    refine ((refs_makeCall c id).2 fun heq => ?_).trans (h.unsubmitted id hid)
    exact hid p hp (hpid.trans heq.symm)
  · intro h' hmem
    rcases mem_or_eq_of_mem_set hmem with hold | rfl
    · exact .inl hold
    have hcourse' : OnCourse (s.makeCall dsGet spec c) ⟨spec, rest⟩ :=
      onCourse_makeCall c hknown hcourse hreaches
    exact .inr ⟨hknown, hcourse'.completed, hcourse'.unbound⟩
  · intro p hp hnone
    have hhandler : p.requestId = spec.requestId → ∃ h' ∈ s.handlers.set i ⟨spec, rest⟩,
        h'.spec.requestId = p.requestId := fun heq => ⟨_, hself, heq.symm⟩
    rcases lookup_makeCall c hnone with hbefore | heq
    · rcases h.gone p hp hbefore with ⟨h', hmem, hid⟩ | hdone
      · by_cases heq : p.requestId = spec.requestId
        · exact .inl (hhandler heq)
        obtain ⟨j, hj⟩ := getElem?_of_mem hmem
        have hne : i ≠ j := by
          rintro rfl
          rw [hget] at hj
          cases hj
          exact heq hid.symm
        refine .inl ⟨h', mem_of_getElem? (i := j) ?_, hid⟩
        rw [getElem?_set_ne hne]
        exact hj
      · have hdone' := hkeeps.done hp hdone
        exact .inr { hdone' with }
    · exact .inl (hhandler heq)

theorem Inv.returned (h : Inv s) (hget : s.handlers[i]? = some ⟨spec, []⟩) :
    Inv { s with handlers := s.handlers.eraseIdx i } := by
  obtain ⟨⟨p₀, hp₀, hid₀, hreturns₀⟩, hcourse⟩ := h.handlers _ (mem_of_getElem? hget)
  have hcompleted : ∀ r ∈ spec.returnIds, s.memoryStore.pending r = false :=
    hcourse.completed.resolve_left nofun
  have hunbound : s.boundTo spec.requestId = [] := hcourse.unbound.resolve_left nofun
  refine h.of_keeps ⟨fun _ _ _ _ hnot => hnot, fun _ _ hnil => hnil⟩ rfl (fun _ => rfl) h.unsubmitted
    (fun h' hmem => .inl (mem_of_mem_eraseIdx hmem)) h.requests ?_
  intro p hp hnone
  by_cases heq : p.requestId = spec.requestId
  · have hsame : p = p₀ := inj_on_of_nodup_map h.unique hp hp₀ (heq.trans hid₀.symm)
    subst hsame
    refine .inr ⟨fun r hr => hcompleted r (hreturns₀ ▸ hr), ?_⟩
    rw [heq]
    exact hunbound
  · rcases h.gone p hp hnone with ⟨h', hmem, hid⟩ | hdone
    · obtain ⟨j, hj⟩ := getElem?_of_mem hmem
      have hne : j ≠ i := by
        rintro rfl
        rw [hget] at hj
        cases hj
        exact heq hid.symm
      exact .inl ⟨h', mem_eraseIdx_iff_getElem?.mpr ⟨j, hne, hj⟩, hid⟩
    · exact .inr { hdone with }

theorem Inv.push (h : Inv s) (hid : ∀ p ∈ s.submitted, p.requestId ≠ requestId)
    (hreturns : ∀ p ∈ s.submitted, ∀ r ∈ p.returnIds, r ∉ returnIds)
    (hs' : s' = { s with
      requestMap := s.requestMap.insert requestId { requestId, returnIds }
      memoryStore := s.memoryStore.addReturnObjects returnIds
      reqObjStore := s.reqObjStore.insert requestId objIds
      submitted := s.submitted ++ [⟨requestId, returnIds, objIds⟩] }) : Inv s' := by
  have hboundTo : ∀ id, s'.boundTo id = if id = requestId then objIds else s.boundTo id := by
    intro id
    unfold boundTo
    rw [hs', lookup_insert_eq_ite]
    split
    · rfl
    · rfl
  have hkeeps : Keeps s s' := by
    refine ⟨fun p hp r hr hnot => ?_, fun p hp hnil => ?_⟩
    · rw [hs', pending_addReturnObjects (hreturns p hp r hr)]
      exact hnot
    · rw [hboundTo, if_neg (hid p hp)]
      exact hnil
  have hknown : ∀ spec, Known s spec → Known s' spec := by
    rintro spec ⟨p, hp, hrest⟩
    exact ⟨p, hs' ▸ mem_append_left _ hp, hrest⟩
  subst hs'
  refine ⟨?_, ?_, ?_, ?_, ?_, ?_⟩
  · intro h' hmem
    obtain ⟨hk, hcourse⟩ := h.handlers h' hmem
    exact ⟨hknown _ hk, hkeeps.onCourse hk hcourse⟩
  · refine forall_lookup_insert ⟨rfl, _, mem_append_right _ mem_cons_self, rfl, rfl⟩ ?_
    exact fun id spec hold => (h.requests id spec hold).imp_right (hknown spec)
  · refine forall_mem_append.mpr ⟨fun p hold hnone => ?_, forall_mem_singleton.mpr fun hnone => ?_⟩
    · rw [lookup_insert_ne (hid p hold)] at hnone
      exact (h.gone p hold hnone).imp_right (hkeeps.done hold)
    · rw [lookup_insert] at hnone
      cases hnone
  · refine forall_mem_append.mpr ⟨fun p hold => ?_, forall_mem_singleton.mpr ?_⟩
    · rw [hboundTo, if_neg (hid p hold)]
      exact h.refs p hold
    · rw [hboundTo, if_pos rfl]
      exact congrArg (· ++ objIds) (h.unsubmitted requestId hid)
  · exact fun id hnone => h.unsubmitted id fun p hp => hnone p (mem_append_left _ hp)
  · rw [map_append]
    exact nodup_append.mpr ⟨h.unique, nodup_singleton _, by simpa using hid⟩

theorem Inv.release (h : Inv s) (id : String) :
    Inv (s.withStore { s.memoryStore with storeMap := s.memoryStore.storeMap.erase id }) := by
  have hkeeps : Keeps s (s.withStore { s.memoryStore with storeMap := s.memoryStore.storeMap.erase id }) := by
    refine ⟨fun _ _ r _ hnot => ?_, fun _ _ hnil => hnil⟩
    show ((s.memoryStore.storeMap.erase id).lookup r).any _ = false
    rw [lookup_erase_eq_ite]
    split
    · rfl
    · exact hnot
  refine h.of_keeps hkeeps rfl (fun _ => rfl) h.unsubmitted (fun h' hmem => .inl hmem) h.requests ?_
  intro p hp hnone
  exact (h.gone p hp hnone).imp_right (hkeeps.done hp)

theorem Inv.notified (h : Inv s) (hlookup : s.requestMap.lookup id = some spec)
    (notification : Notification) : Inv (s.notified spec notification) := by
  have hknown := (h.requests id spec hlookup).2
  cases notification with
  | success =>
    refine h.addHandler hknown ⟨.inl ?_, .inl ?_⟩ rfl
    · simp [InvokeSpec.handleSuccessInvokeNotify, completes]
    · simp [InvokeSpec.handleSuccessInvokeNotify]
  | retry => exact h.updateSpec hlookup rfl rfl
  | fail err | groupRemoved err => exact h.addHandler hknown ⟨.inl rfl, .inl mem_cons_self⟩ rfl

theorem Inv.drained (h : Inv s) (hlookup : s.requestMap.lookup id = some spec)
    (hnil : s.boundTo id = []) (err : ErrorInfo) :
    Inv { (s.dequeue id).addHandler (spec.drained err) with requestMap := s.requestMap.erase id } := by
  obtain ⟨hself, hknown⟩ := h.requests id spec hlookup
  have hunbound : s.boundTo spec.requestId = [] := by
    rw [hself]
    exact hnil
  refine h.of_same (fun _ hmem => mem_append_left _ hmem) ?_ ?_ ?_
  · exact forall_mem_append.mpr ⟨fun _ hold => .inl hold,
      forall_mem_singleton.mpr (.inr ⟨hknown, .inl rfl, .inr hunbound⟩)⟩
  · exact fun id' spec' hlookup' => h.requests id' spec' (lookup_of_erase hlookup')
  · intro id' hnone
    rw [lookup_erase_eq_ite] at hnone
    split at hnone
    case isTrue heq => exact .inr ⟨_, mem_append_right _ mem_cons_self, hself.trans heq.symm⟩
    case isFalse => exact .inl hnone

theorem Inv.downgradeCallback (h : Inv s) (hknown : Known s spec) (err : Option ErrorInfo) :
    Inv (s.addHandler (spec.downgradeCallback err)) := by
  cases err
  all_goals
    refine h.addHandler hknown ⟨.inl rfl, .inl ?_⟩ rfl
    simp [InvokeSpec.downgradeCallback]

/-- The events that look for the request: it has left, or the step depends on what was found. -/
theorem Inv.of_lookup {found : InvokeSpec → Option TaskSubmitter}
    (hstep : (match s.requestMap.lookup id with | none => some s₁ | some spec => found spec) = some s')
    (hleft : Inv s₁)
    (hfound : ∀ spec, s.requestMap.lookup id = some spec → found spec = some s' → Inv s') : Inv s' := by
  split at hstep
  case h_1 =>
    cases hstep
    exact hleft
  case h_2 spec hlookup => exact hfound spec hlookup hstep

theorem Inv.step (h : Inv s) (hthorough : s.thorough e = true) (hstep : s.next dsGet e = some s') :
    Inv s' := by
  cases e with
  | pushInvokeSpec =>
    obtain ⟨hfresh, ⟨⟩⟩ := Option.ite_none_left_eq_some.mp hstep
    simp only [not_or, any_eq_true, Bool.or_eq_true, beq_iff_eq, not_exists, not_and] at hfresh
    refine h.push (fun p hp => (hfresh.2 p hp).1) ?_ rfl
    intro p hp r hr hmem
    exact (hfresh.2 p hp).2 r hr (contains_iff_mem.mpr hmem)
  | submitFunction =>
    obtain ⟨-, rfl⟩ := Option.ite_some_none_eq_some.mp hstep
    exact h.others
  | scheduleRequest =>
    obtain ⟨-, hstep⟩ := Option.ite_none_right_eq_some.mp hstep
    refine Inv.of_lookup hstep h.others ?_
    rintro spec hlookup ⟨⟩
    exact h.updateSpec hlookup rfl rfl
  | downgrade =>
    obtain ⟨-, hstep⟩ := Option.ite_none_right_eq_some.mp hstep
    refine Inv.of_lookup hstep h.others ?_
    rintro _ - ⟨⟩
    exact h.others
  | downgradeCallback _ err =>
    obtain ⟨-, hstep⟩ := Option.ite_none_right_eq_some.mp hstep
    refine Inv.of_lookup hstep h.others ?_
    rintro spec hlookup ⟨⟩
    exact (h.downgradeCallback (h.requests _ spec hlookup).2 err).others
  | handleInvokeNotify _ _ notification =>
    obtain ⟨-, hstep⟩ := Option.ite_none_right_eq_some.mp hstep
    refine Inv.of_lookup hstep h fun spec hlookup hstep => ?_
    split at hstep <;> cases hstep
    · exact h.notified hlookup notification
    · exact h
  | drain _ err =>
    obtain ⟨-, hstep⟩ := Option.ite_none_right_eq_some.mp hstep
    refine Inv.of_lookup hstep h.others ?_
    rintro spec hlookup ⟨⟩
    refine h.drained hlookup ?_ err
    simpa [thorough, hlookup] using hthorough
  | scheduleTimeout =>
    refine Inv.of_lookup hstep h fun spec hlookup hstep => ?_
    split at hstep <;> cases hstep
    · refine h.addHandler (h.requests _ spec hlookup).2 ⟨.inl rfl, .inl ?_⟩ rfl
      simp [InvokeSpec.cancelFaasScheduleTimeoutReq]
    · exact h
  | cancelStatelessRequest =>
    refine Inv.of_lookup hstep h fun spec hlookup hstep => ?_
    obtain ⟨hself, hknown⟩ := h.requests _ spec hlookup
    split at hstep <;> cases hstep
    · exact h
    · rename_i hnot
      refine h.addHandler hknown ⟨.inl rfl, .inr ?_⟩ rfl
      show s.boundTo spec.requestId = []
      rw [hself]
      simpa [thorough, hlookup, hnot] using hthorough
  | call =>
    simp only [next] at hstep
    split at hstep
    case h_1 => cases hstep
    case h_2 spec hget =>
      cases hstep
      exact h.returned hget
    case h_3 spec c rest hget =>
      cases hstep
      refine h.makeCall hget ?_
      simpa [thorough, hget] using hthorough
  | release id =>
    cases hstep
    exact h.release id
  | finalize =>
    cases hstep
    exact h.others

end TaskSubmitter

open TaskSubmitter

variable {dsGet : String → ErrorInfo} {s : TaskSubmitter}

/-- In such runs a request that has left has all its objects completed, and its references
decremented exactly once. -/
theorem gone_request_done (hrun : (taskSubmitter dsGet).Reach (fun s e => s.thorough e = true) s)
    {p : SubmittedRequest} (hp : p ∈ s.submitted) (hgone : s.requestMap.lookup p.requestId = none)
    (hidle : ∀ h ∈ s.handlers, h.spec.requestId ≠ p.requestId) :
    (∀ r ∈ p.returnIds, ∀ d, s.memoryStore.storeMap.lookup r = some d → d.ready = true) ∧
      s.boundTo p.requestId = [] ∧ s.decreasedFor p.requestId = p.objIds := by
  have hinv : s.Inv := by
    refine hrun.invariant ?_ ?_
    · rintro s rfl
      exact ⟨nofun, nofun, nofun, nofun, fun _ _ => rfl, nodup_nil⟩
    · intro s e s' l _ hok h hstep
      exact h.step hok (next_of_step hstep)
  have hdone : Done s p.requestId p.returnIds := by
    rcases hinv.gone p hp hgone with ⟨h, hmem, hid⟩ | hdone
    · exact absurd hid (hidle h hmem)
    · exact hdone
  refine ⟨fun r hr d hlookup => ?_, hdone.unbound, ?_⟩
  · have hnot := hdone.completed r hr
    simpa [pending, hlookup] using hnot
  · have hrefs := hinv.refs p hp
    rwa [hdone.unbound, append_nil] at hrefs

theorem gone_request_done_notified :
    ∃ s, (taskSubmitter fun _ => {}).Reach (fun s e => s.thorough e = true) s ∧
      s.requestMap.lookup "q" = none ∧ s.decreasedFor "q" = ["x"] ∧
      ∀ r ∈ ["r0", "r1"], ∀ d, s.memoryStore.storeMap.lookup r = some d → d.ready = true := by
  obtain ⟨s, hrun, hgone, hhandlers, hsubmitted⟩ := (taskSubmitter fun _ => {}).reach_of_run thorough
    (show (taskSubmitter fun _ => {}).init {} from rfl)
    [.pushInvokeSpec "q" ["r0", "r1"] ["x"], .submitFunction "q", .scheduleRequest "q" "i", .release "r1",
      .handleInvokeNotify "q" 0 (.success ["r0"]), .call 0, .call 0, .call 0, .call 0, .call 0]
    (fun s => s.requestMap.lookup "q" = none ∧ s.handlers = [] ∧
      s.submitted = [⟨"q", ["r0", "r1"], ["x"]⟩]) (by decide)
  have hmem : (⟨"q", ["r0", "r1"], ["x"]⟩ : SubmittedRequest) ∈ s.submitted := by
    rw [hsubmitted]
    exact mem_cons_self
  have hmain := gone_request_done hrun hmem hgone (by rw [hhandlers]; nofun)
  exact ⟨s, hrun, hgone, hmain.2.2, hmain.1⟩

/-- A creation fails: the second object is never completed, and the reference stays. -/
theorem drained_request_half_done :
    ∃ s, (taskSubmitter fun _ => {}).Reachable s ∧ ⟨"q", ["r0", "r1"], ["x"]⟩ ∈ s.submitted ∧
      s.requestMap.lookup "q" = none ∧ s.handlers = [] ∧ s.memoryStore.pending "r1" = true ∧
      s.boundTo "q" = ["x"] ∧ s.decreasedFor "q" = [] :=
  (taskSubmitter fun _ => {}).reachable_of_run (show (taskSubmitter fun _ => {}).init {} from rfl)
    [.pushInvokeSpec "q" ["r0", "r1"] ["x"], .submitFunction "q", .drain "q" ⟨3003, "no instance"⟩,
      .call 0, .call 0] _ (by decide)

end Yuanrong.Libruntime
