import Yuanrong.Libruntime.WaitUntilReady

/-!
# The result of a wait is a partition

A completed object stays as it is, so what was once read about it holds for good, and an exception
carried into the last round is found again there. The waiting entity is told of each object at most
once, and only of those that the scan found not ready, so what it has is disjoint from what the scan
found.
-/

namespace Yuanrong.Libruntime.WaitState

open List AList Option WaitingObjectManager Bool Nat

variable {s s' : WaitState} {e : Event} {id : String} {err : ErrorInfo}
variable {outcome : Option ErrorInfo} {entity : Nat} {w : WaitingEntity}
  {unreadyIds : List String}

def Failed (s : WaitState) (id : String) (err : ErrorInfo) : Prop :=
  ∃ d, s.storeMap.lookup id = some d ∧ d.ready = true ∧ d.err = err ∧ err.OK = false

def Clean (s : WaitState) (id : String) : Prop :=
  ∃ d, s.storeMap.lookup id = some d ∧ d.ready = true ∧ d.err.OK = true

/-- The object is completed without an error: it has none, or was completed by `SetReady`. -/
def Succeeded (s : WaitState) (id : String) : Prop :=
  ∃ d, s.storeMap.lookup id = some d ∧ d.ready = true ∧ (d.err.OK = true ∨ id ∈ s.setReadyIds)

theorem Clean.succeeded (h : Clean s id) : Succeeded s id := by
  obtain ⟨d, hlookup, hready, hok⟩ := h
  exact ⟨d, hlookup, hready, .inl hok⟩

theorem Clean.not_failed (h : Clean s id) : ¬ Failed s id err := by
  rintro ⟨d, hlookup, -, rfl, herr⟩
  obtain ⟨d', hlookup', -, hok⟩ := h
  rw [hlookup] at hlookup'
  cases hlookup'
  exact false_ne_true (herr.symm.trans hok)

structure Completes (s s' : WaitState) : Prop where
  keeps : ∀ id d, s.storeMap.lookup id = some d → d.ready = true → s'.storeMap.lookup id = some d
  setReadyIds : s.setReadyIds ⊆ s'.setReadyIds

theorem Completes.of_eq (hstore : s'.storeMap = s.storeMap) (hset : s'.setReadyIds = s.setReadyIds) :
    Completes s s' :=
  ⟨fun _ _ h _ => hstore ▸ h, hset ▸ List.Subset.refl _⟩

theorem Failed.mono (h : Failed s id err) (hc : Completes s s') : Failed s' id err := by
  obtain ⟨d, hlookup, hready, heq, herr⟩ := h
  exact ⟨d, hc.keeps id d hlookup hready, hready, heq, herr⟩

theorem Clean.mono (h : Clean s id) (hc : Completes s s') : Clean s' id := by
  obtain ⟨d, hlookup, hready, hok⟩ := h
  exact ⟨d, hc.keeps id d hlookup hready, hready, hok⟩

theorem Succeeded.mono (h : Succeeded s id) (hc : Completes s s') : Succeeded s' id := by
  obtain ⟨d, hlookup, hready, hok⟩ := h
  exact ⟨d, hc.keeps id d hlookup hready, hready, hok.imp_right fun hmem => hc.setReadyIds hmem⟩

structure Base (s : WaitState) : Prop where
  nodup : s.idList.Nodup
  objects : ∀ id ∈ s.idList, ∃ d, s.storeMap.lookup id = some d ∧
    (d.ready = false → (s.manager.unreadyObjectMap.lookup id).isSome)
  toTell : ∀ c ∈ s.toTell, ∃ d, s.storeMap.lookup c.1 = some d ∧ d.ready = true ∧
    (c.2 = none → c.1 ∈ s.setReadyIds) ∧ ∀ err, c.2 = some err → d.err = err ∧ err.OK = false
  entities : ∀ id es, s.manager.unreadyObjectMap.lookup id = some es → ∀ e ∈ es, e < s.nextEntity
  exceptions : ∀ id err, s.result.exceptionIds.lookup id = some err → id ∈ s.idList ∧ Failed s id err

theorem Base.exception_none (h : Base s) (hnot : ∀ err, ¬ Failed s id err) :
    s.result.exceptionIds.lookup id = none := by
  cases hexc : s.result.exceptionIds.lookup id with
  | none => rfl
  | some err => exact absurd (h.exceptions id err hexc).2 (hnot err)

theorem Base.objects_of_ready (h : Base s) {m : FinMap String (List Nat)} (hready : s.isReady id = true)
    (hmap : ∀ id', id' ≠ id → m.lookup id' = s.manager.unreadyObjectMap.lookup id') :
    ∀ id' ∈ s.idList, ∃ d, s.storeMap.lookup id' = some d ∧ (d.ready = false → (m.lookup id').isSome) := by
  intro id' hid'
  obtain ⟨d, hlookup, hunready⟩ := h.objects id' hid'
  refine ⟨d, hlookup, ?_⟩
  intro hnot
  have hne : id' ≠ id := by
    rintro rfl
    simp [isReady, hlookup, hnot] at hready
  rw [hmap id' hne]
  exact hunready hnot

structure Scanned (s : WaitState) (looked readyIds unreadyIds : List String) : Prop where
  cover : ∀ id ∈ looked, id ∈ readyIds ∨ id ∈ unreadyIds ∨ (s.result.exceptionIds.lookup id).isSome
  ready : ∀ id ∈ readyIds, id ∈ looked ∧ Clean s id
  unready : ∀ id ∈ unreadyIds, id ∈ looked ∧ id ∉ readyIds
  nodup : unreadyIds.Nodup
  empty : s.result.unreadyIds = []

def Apart (s : WaitState) (unreadyIds : List String) : Prop :=
  ∀ id ∈ unreadyIds, s.result.exceptionIds.lookup id = none

/-- The waiting entity was told of ids that were not ready, of each once. -/
structure Entity (s : WaitState) (unreadyIds : List String) (entity : Nat) (w : WaitingEntity) : Prop where
  ready : ∀ id ∈ w.readyObjIds, id ∈ unreadyIds ∧ Succeeded s id ∧ w.exceptionIds.lookup id = none
  failed : ∀ id err, w.exceptionIds.lookup id = some err → id ∈ unreadyIds ∧ Failed s id err
  registered : ∀ id es, s.manager.unreadyObjectMap.lookup id = some es → entity ∈ es →
    es.count entity = 1 ∧ id ∈ unreadyIds ∧ id ∉ w.readyObjIds ∧ w.exceptionIds.lookup id = none

structure Partition (s : WaitState) : Prop where
  ready : ∀ id ∈ s.result.readyIds, id ∈ s.idList ∧ Succeeded s id ∧ id ∉ s.result.unreadyIds ∧
    s.result.exceptionIds.lookup id = none
  unready : ∀ id ∈ s.result.unreadyIds, id ∈ s.idList ∧ s.result.exceptionIds.lookup id = none
  failed : ∀ id err, s.result.exceptionIds.lookup id = some err → id ∈ s.idList ∧ Failed s id err
  cover : ∀ id ∈ s.idList, id ∈ s.result.readyIds ∨ id ∈ s.result.unreadyIds ∨
    (s.result.exceptionIds.lookup id).isSome

def AtPhase (s : WaitState) : Prop :=
  match s.phase with
  | .round => True
  | .scan _ _ rest readyIds unreadyIds => ∃ looked, s.idList = looked ++ rest ∧
      Scanned s looked readyIds unreadyIds ∧ Apart s unreadyIds
  | .wait _ _ readyIds unreadyIds entity =>
    Scanned s s.idList readyIds unreadyIds ∧ Apart s unreadyIds ∧ entity < s.nextEntity ∧
    ∃ w, s.manager.entities.lookup entity = some w ∧ Entity s unreadyIds entity w
  | .read _ readyIds unreadyIds entity =>
    Scanned s s.idList readyIds unreadyIds ∧ entity < s.nextEntity ∧
    ∃ w, s.manager.entities.lookup entity = some w ∧ Entity s unreadyIds entity w ∧
      ∀ id ∈ unreadyIds, (s.result.exceptionIds.lookup id).isSome →
        (w.exceptionIds.lookup id).isSome
  | .pause => s.result.unreadyIds = []
  | .returned enough => Partition s ∧
      (enough = true → s.minReadyNum ≤ s.result.readyIds.length + s.result.exceptionIds.len)

theorem Entity.mono (h : Entity s unreadyIds entity w) (hc : Completes s s')
    (hmap : ∀ id es, s'.manager.unreadyObjectMap.lookup id = some es →
      s.manager.unreadyObjectMap.lookup id = some es) :
    Entity s' unreadyIds entity w := by
  refine ⟨?_, ?_, fun id es hes => h.registered id es (hmap id es hes)⟩
  · intro id hid
    obtain ⟨hmem, hsucceeded, hnone⟩ := h.ready id hid
    exact ⟨hmem, hsucceeded.mono hc, hnone⟩
  · intro id err herr
    obtain ⟨hmem, hfailed⟩ := h.failed id err herr
    exact ⟨hmem, hfailed.mono hc⟩

section

variable {storeMap : FinMap String ObjectDetail} {manager : WaitingObjectManager}
  {toTell : List (String × Option ErrorInfo)} {setReadyIds : List String}
  (hc : Completes s { s with storeMap, manager, toTell, setReadyIds })
include hc

theorem Scanned.mono (h : Scanned s looked readyIds unreadyIds) :
    Scanned { s with storeMap, manager, toTell, setReadyIds } looked readyIds unreadyIds :=
  { h with ready := fun id hid => ⟨(h.ready id hid).1, (h.ready id hid).2.mono hc⟩ }

theorem Partition.mono (h : Partition s) : Partition { s with storeMap, manager, toTell, setReadyIds } := by
  refine ⟨?_, h.unready, ?_, h.cover⟩
  · intro id hid
    obtain ⟨hmem, hsucceeded, hrest⟩ := h.ready id hid
    exact ⟨hmem, hsucceeded.mono hc, hrest⟩
  · intro id err herr
    obtain ⟨hmem, hfailed⟩ := h.failed id err herr
    exact ⟨hmem, hfailed.mono hc⟩

theorem AtPhase.mono (h : AtPhase s)
    (hentity : ∀ {unreadyIds entity w}, s.manager.entities.lookup entity = some w →
      Entity s unreadyIds entity w → ∃ w', manager.entities.lookup entity = some w' ∧
        Entity { s with storeMap, manager, toTell, setReadyIds } unreadyIds entity w' ∧
        ∀ id, (w.exceptionIds.lookup id).isSome → (w'.exceptionIds.lookup id).isSome) :
    AtPhase { s with storeMap, manager, toTell, setReadyIds } := by
  unfold AtPhase at h ⊢
  dsimp only
  split at h
  case h_1 => trivial
  case h_2 =>
    obtain ⟨looked, heq, hscanned, hapart⟩ := h
    exact ⟨looked, heq, hscanned.mono hc, hapart⟩
  case h_3 =>
    obtain ⟨hscanned, hapart, hlt, w, hw, hold⟩ := h
    obtain ⟨w', hw', hnew, -⟩ := hentity hw hold
    exact ⟨hscanned.mono hc, hapart, hlt, w', hw', hnew⟩
  case h_4 =>
    obtain ⟨hscanned, hlt, w, hw, hold, hexceptions⟩ := h
    obtain ⟨w', hw', hnew, hmono⟩ := hentity hw hold
    refine ⟨hscanned.mono hc, hlt, w', hw', hnew, ?_⟩
    exact fun id hid hsome => hmono id (hexceptions id hid hsome)
  case h_5 => exact h
  case h_6 => exact ⟨h.1.mono hc, h.2⟩

end

structure Inv (s : WaitState) : Prop where
  base : Base s
  phase : AtPhase s

theorem Inv.complete (h : Inv s) (houtcome : ∀ err, outcome = some err → err.OK = false) :
    Inv (s.complete id outcome) := by
  unfold WaitState.complete
  split
  case h_1 => exact h
  rename_i d hlookup
  split
  case isTrue => exact h
  rename_i hunready
  have hc : Completes s { s with
      storeMap := s.storeMap.insert id (d.finish outcome)
      toTell := s.toTell ++ [(id, outcome)]
      setReadyIds := if outcome.isNone then id :: s.setReadyIds else s.setReadyIds } := by
    refine ⟨?_, ?_⟩
    · intro id' d' hlookup' hready'
      have hne : id' ≠ id := by
        rintro rfl
        rw [hlookup] at hlookup'
        cases hlookup'
        exact hunready hready'
      exact (lookup_insert_ne hne).trans hlookup'
    · split
      · exact subset_cons_self _ _
      · exact List.Subset.refl _
  refine ⟨⟨h.base.nodup, ?_, ?_, h.base.entities, ?_⟩, h.phase.mono hc fun hw hentity =>
      ⟨_, hw, hentity.mono hc fun _ _ hes => hes, fun _ hsome => hsome⟩⟩
  · intro id' hid'
    obtain ⟨d', hlookup', hmap⟩ := h.base.objects id' hid'
    rw [lookup_insert_eq_ite]
    split
    · exact ⟨_, rfl, nofun⟩
    · exact ⟨d', hlookup', hmap⟩
  · refine forall_mem_append.mpr ⟨fun c hold => ?_, forall_mem_singleton.mpr ?_⟩
    · obtain ⟨d', hlookup', hready', hset, herr⟩ := h.base.toTell c hold
      exact ⟨d', hc.keeps _ _ hlookup' hready', hready', fun hn => hc.setReadyIds (hset hn), herr⟩
    refine ⟨_, lookup_insert _, rfl, ?_, ?_⟩
    · intro hn
      simp only at hn
      simp [hn]
    · rintro err ⟨⟩
      exact ⟨rfl, houtcome err rfl⟩
  · intro id' err' herr'
    obtain ⟨hmem, hfailed⟩ := h.base.exceptions id' err' herr'
    exact ⟨hmem, hfailed.mono hc⟩

theorem Inv.dropReady (h : Inv s) (hready : s.isReady id = true) : Inv { s with
      manager := { s.manager with unreadyObjectMap := s.manager.unreadyObjectMap.erase id } } := by
  have hmap : ∀ id' es, (s.manager.unreadyObjectMap.erase id).lookup id' = some es →
      s.manager.unreadyObjectMap.lookup id' = some es := fun _ _ hes => lookup_of_erase hes
  refine ⟨{ h.base with
      objects := h.base.objects_of_ready hready fun _ hne => lookup_erase_ne hne
      entities := fun id' es hes => h.base.entities id' es (hmap id' es hes) },
    h.phase.mono (.of_eq rfl rfl) fun hw hentity =>
      ⟨_, hw, hentity.mono (.of_eq rfl rfl) hmap, fun _ hsome => hsome⟩⟩

section

variable {unreadyIds : List String} (h : Entity s unreadyIds entity w)
include h

theorem Entity.tell (hsucceeded : outcome = none → Succeeded s id)
    (hfailed : ∀ err, outcome = some err → Failed s id err)
    (hgone : s.manager.unreadyObjectMap.lookup id = none) (hmem : id ∈ unreadyIds)
    (hready : id ∉ w.readyObjIds) (hnone : w.exceptionIds.lookup id = none) :
    Entity s unreadyIds entity (w.tell id outcome) := by
  have hother : ∀ id' es, s.manager.unreadyObjectMap.lookup id' = some es → id' ≠ id := by
    rintro id' es hes rfl
    rw [hgone] at hes
    cases hes
  cases outcome with
  | none =>
    refine ⟨?_, h.failed, ?_⟩
    · exact forall_mem_append.mpr ⟨h.ready, forall_mem_singleton.mpr ⟨hmem, hsucceeded rfl, hnone⟩⟩
    · intro id' es hes he
      obtain ⟨hcount, hmem', hready', hnone'⟩ := h.registered id' es hes he
      exact ⟨hcount, hmem', not_mem_append hready' (by simpa using hother id' es hes), hnone'⟩
  | some =>
    refine ⟨?_, forall_lookup_insert ⟨hmem, hfailed _ rfl⟩ h.failed, ?_⟩
    · intro id' hid'
      obtain ⟨hmem', hsucceeded', hnone'⟩ := h.ready id' hid'
      have hne : id' ≠ id := by
        rintro rfl
        exact hready hid'
      exact ⟨hmem', hsucceeded', (lookup_insert_ne hne).trans hnone'⟩
    · intro id' es hes he
      obtain ⟨hcount, hmem', hready', hnone'⟩ := h.registered id' es hes he
      exact ⟨hcount, hmem', hready', (lookup_insert_ne (hother id' es hes)).trans hnone'⟩

theorem Entity.complete (hc : Completes s s') (hsucceeded : outcome = none → Succeeded s' id)
    (hfailed : ∀ err, outcome = some err → Failed s' id err)
    (hw : s.manager.entities.lookup entity = some w)
    (hmanager : s'.manager = s.manager.complete id outcome) :
    ∃ w', s'.manager.entities.lookup entity = some w' ∧ Entity s' unreadyIds entity w' ∧
      ∀ id', (w.exceptionIds.lookup id').isSome → (w'.exceptionIds.lookup id').isSome := by
  unfold WaitingObjectManager.complete at hmanager
  split at hmanager
  case h_2 hnone =>
    refine ⟨w, hmanager ▸ hw, h.mono hc ?_, fun _ hsome => hsome⟩
    rw [hmanager]
    exact fun _ _ hes => hes
  case h_1 es hes =>
    have hkept : Entity s' unreadyIds entity w := by
      refine h.mono hc ?_
      rw [hmanager]
      exact fun _ _ hes' => lookup_of_erase hes'
    by_cases hmem : entity ∈ es
    · obtain ⟨hcount, hunready, hready, hnone⟩ := h.registered id es hes hmem
      refine ⟨w.tell id outcome, ?_, hkept.tell hsucceeded hfailed ?_ hunready hready hnone, ?_⟩
      · rw [hmanager]
        exact lookup_tellAll_of_count hcount hw
      · rw [hmanager]
        exact lookup_erase id _
      intro id' hsome
      cases outcome with
      | none => exact hsome
      | some err =>
        show ((w.exceptionIds.insert id err).lookup id').isSome
        rw [lookup_insert_eq_ite]
        split
        · rfl
        · exact hsome
    · refine ⟨w, ?_, hkept, fun _ hsome => hsome⟩
      rw [hmanager]
      exact (lookup_tellAll_of_notMem hmem).trans hw

end

theorem complete_map {m : WaitingObjectManager}
    (hes : (m.complete id outcome).unreadyObjectMap.lookup id' = some es) :
    m.unreadyObjectMap.lookup id' = some es := by
  unfold WaitingObjectManager.complete at hes
  split at hes
  · exact lookup_of_erase hes
  · exact hes

theorem Inv.tell (h : Inv s) {toTell : List (String × Option ErrorInfo)} (hmem : (id, outcome) ∈ s.toTell)
    (hsub : toTell ⊆ s.toTell) : Inv { s with manager := s.manager.complete id outcome, toTell } := by
  obtain ⟨d, hlookup, hready, hset, herr⟩ := h.base.toTell _ hmem
  refine ⟨{ h.base with
      objects := h.base.objects_of_ready (by simp [isReady, hlookup, hready]) fun _ => complete_unready_ne
      toTell := fun c hctell => h.base.toTell c (hsub hctell)
      entities := fun id' es hes => h.base.entities id' es (complete_map hes) }, ?_⟩
  have hc : Completes s { s with manager := s.manager.complete id outcome, toTell } := .of_eq rfl rfl
  refine h.phase.mono hc fun hw hentity => hentity.complete hc ?_ ?_ hw rfl
  · exact fun hn => ⟨d, hlookup, hready, .inr (hset hn)⟩
  · exact fun err he => ⟨d, hlookup, hready, herr err he⟩

theorem lookup_addException (result : InternalWaitResult) (id : String) (err : ErrorInfo) (k : String) :
    (addException result id err).exceptionIds.lookup k =
      (result.exceptionIds.lookup k).or (if k = id then some err else none) := by
  unfold addException
  split
  case isTrue hsome =>
    by_cases heq : k = id
    · subst heq
      obtain ⟨v, hv⟩ := isSome_iff_exists.mp hsome
      simp [hv]
    · simp [heq]
  case isFalse hnone =>
    by_cases heq : k = id
    · subst heq
      have hnone' : result.exceptionIds.lookup k = none := by simpa using hnone
      simp [hnone']
    · simp [heq]

theorem unreadyIds_addException (result : InternalWaitResult) (id : String) (err : ErrorInfo) :
    (addException result id err).unreadyIds = result.unreadyIds := by
  unfold addException
  split <;> rfl

theorem Inv.look (h : Inv s) (hphase : s.phase = .scan lastWait timeout (id :: rest) readyIds unreadyIds) :
    Inv (s.look lastWait timeout id rest readyIds unreadyIds) := by
  have hat := h.phase
  rw [AtPhase, hphase] at hat
  obtain ⟨looked, heq, hscanned, hapart⟩ := hat
  have hlist : s.idList = (looked ++ [id]) ++ rest := by simp [heq]
  have hid : id ∈ s.idList := by simp [heq]
  have hlast : id ∈ looked ++ [id] := mem_append_right _ mem_cons_self
  have hnew : id ∉ looked := by
    have hnodup := h.base.nodup
    rw [heq] at hnodup
    exact fun hmem => disjoint_of_nodup_append hnodup hmem mem_cons_self
  have hready : ∀ j ∈ readyIds, j ∈ looked ++ [id] ∧ Clean s j := fun j hj =>
    (hscanned.ready j hj).imp_left (mem_append_left _)
  have hunready : ∀ j ∈ unreadyIds, j ∈ looked ++ [id] ∧ j ∉ readyIds := fun j hj =>
    (hscanned.unready j hj).imp_left (mem_append_left _)
  have hother : ∀ j ∈ unreadyIds, j ≠ id := by
    rintro j hj rfl
    exact hnew (hscanned.unready j hj).1
  obtain ⟨d, hlookup, hmap⟩ := h.base.objects id hid
  unfold WaitState.look
  split
  case isTrue hcan =>
    have hnot : d.ready = false := by simpa [isReady, hlookup] using hcan.2
    have hnone : s.result.exceptionIds.lookup id = none := by
      refine h.base.exception_none ?_
      rintro err ⟨d', hlookup', hready', -⟩
      rw [hlookup] at hlookup'
      cases hlookup'
      exact absurd (hnot.symm.trans hready') false_ne_true
    refine ⟨{ h.base with }, looked ++ [id], hlist, ⟨?_, hready, ?_, ?_, hscanned.empty⟩, ?_⟩
    · refine forall_mem_append.mpr ⟨fun j hold => ?_, forall_mem_singleton.mpr ?_⟩
      · exact (hscanned.cover j hold).imp_right (.imp_left (mem_append_left _))
      · exact .inr (.inl (mem_append_right _ mem_cons_self))
    · refine forall_mem_append.mpr ⟨hunready, forall_mem_singleton.mpr ⟨hlast, ?_⟩⟩
      exact fun hr => hnew (hscanned.ready id hr).1
    · rw [← concat_eq_append, nodup_concat]
      exact ⟨fun hmem => hother id hmem rfl, hscanned.nodup⟩
    · exact forall_mem_append.mpr ⟨hapart, forall_mem_singleton.mpr hnone⟩
  case isFalse hseen =>
    -- an id without an entry is completed, as is one that the memory store has as ready
    have hdone : d.ready = true := by
      by_contra hnot
      have hnot' : d.ready = false := by simpa using hnot
      exact hseen ⟨hmap hnot', by simp [isReady, hlookup, hnot']⟩
    have herror : s.getLastError id = d.err := by simp [getLastError, hlookup]
    rw [herror]
    have hseen' : s.isReady id = true := by simp [isReady, hlookup, hdone]
    have hbase := (h.dropReady hseen').base
    cases hok : d.err.OK with
    | true =>
      refine ⟨{ hbase with }, looked ++ [id], hlist, ⟨?_, ?_, ?_, hscanned.nodup, hscanned.empty⟩, hapart⟩
      · refine forall_mem_append.mpr ⟨fun j hold => ?_, forall_mem_singleton.mpr ?_⟩
        · exact (hscanned.cover j hold).imp_left (mem_append_left _)
        · exact .inl (mem_append_right _ mem_cons_self)
      · exact forall_mem_append.mpr ⟨hready, forall_mem_singleton.mpr ⟨hlast, d, hlookup, hdone, hok⟩⟩
      · refine fun j hj => ⟨(hunready j hj).1, not_mem_append (hunready j hj).2 ?_⟩
        simpa using hother j hj
    | false =>
      have hexceptions : ∀ j err, (addException s.result id d.err).exceptionIds.lookup j = some err →
          j ∈ s.idList ∧ Failed s j err := by
        intro j err hj
        rw [lookup_addException] at hj
        rcases or_eq_some_iff.mp hj with hold | ⟨-, hnew⟩
        · exact h.base.exceptions j err hold
        obtain ⟨rfl, ⟨⟩⟩ := ite_some_none_eq_some.mp hnew
        exact ⟨hid, d, hlookup, hdone, rfl, hok⟩
      have hsome : ∀ j, (s.result.exceptionIds.lookup j).isSome ∨ j = id →
          ((addException s.result id d.err).exceptionIds.lookup j).isSome := by
        rintro j (hold | rfl)
        · simp [lookup_addException, hold]
        · simp [lookup_addException]
      refine ⟨{ hbase with exceptions := hexceptions },
        looked ++ [id], hlist, ⟨?_, hready, hunready, hscanned.nodup, ?_⟩, fun j hj => ?_⟩
      · refine forall_mem_append.mpr ⟨fun j hold => ?_, forall_mem_singleton.mpr ?_⟩
        · exact (hscanned.cover j hold).imp_right (.imp_right fun he => hsome j (.inl he))
        · exact .inr (.inr (hsome id (.inr rfl)))
      · exact (unreadyIds_addException s.result id d.err).trans hscanned.empty
      · show (addException s.result id d.err).exceptionIds.lookup j = none
        rw [lookup_addException, hapart j hj, if_neg (hother j hj)]
        rfl

theorem lookup_register (hnodup : ids.Nodup) (m : FinMap String (List Nat)) (entity : Nat) (id : String) :
    (register m entity ids).lookup id =
      if id ∈ ids then some ((m.lookup id).getD [] ++ [entity]) else m.lookup id := by
  induction ids generalizing m with
  | nil => simp [register]
  | cons id₁ _ ih =>
    obtain ⟨hnew, hrest⟩ := nodup_cons.mp hnodup
    rw [register, ih hrest, lookup_insert_eq_ite]
    by_cases heq : id = id₁
    · subst heq
      simp [hnew]
    · simp [heq]

theorem Inv.scanned (h : Inv s) (hphase : s.phase = .scan lastWait timeout [] readyIds unreadyIds) :
    Inv (s.scanned lastWait timeout readyIds unreadyIds) := by
  have hat := h.phase
  rw [AtPhase, hphase] at hat
  obtain ⟨looked, heq, hscanned, hapart⟩ := hat
  have hall : looked = s.idList := by simpa using heq.symm
  subst hall
  unfold WaitState.scanned
  split
  case isTrue henough =>
    refine ⟨{ h.base with },
      ⟨?_, ?_, h.base.exceptions, hscanned.cover⟩, fun _ => henough⟩
    · intro id hid
      obtain ⟨hmem, hclean⟩ := hscanned.ready id hid
      exact ⟨hmem, hclean.succeeded, fun hun => (hscanned.unready id hun).2 hid,
        h.base.exception_none fun _ => hclean.not_failed⟩
    · intro id hid
      exact ⟨(hscanned.unready id hid).1, hapart id hid⟩
  case isFalse =>
    have hlookup := lookup_register hscanned.nodup s.manager.unreadyObjectMap s.nextEntity
    have hold : ∀ id, ∀ e ∈ (s.manager.unreadyObjectMap.lookup id).getD [], e < s.nextEntity := by
      intro id e he
      cases hes : s.manager.unreadyObjectMap.lookup id with
      | none => simp [hes] at he
      | some es =>
        rw [hes] at he
        exact h.base.entities id es hes e he
    refine ⟨{ h.base with objects := ?_, entities := ?_ }, { hscanned with }, hapart,
      lt_succ_self _, _, lookup_insert _, nofun, nofun, ?_⟩
    · intro id hid
      obtain ⟨d, hd, hmap⟩ := h.base.objects id hid
      refine ⟨d, hd, fun hnot => ?_⟩
      rw [hlookup]
      split
      · rfl
      · exact hmap hnot
    · intro id es hes e he
      rw [hlookup] at hes
      split at hes
      · cases hes
        rcases mem_append.mp he with hmem | hlast
        · exact lt_succ_of_lt (hold id e hmem)
        · rw [mem_singleton.mp hlast]
          exact lt_succ_self _
      · exact lt_succ_of_lt (h.base.entities id es hes e he)
    · intro id es hes he
      rw [hlookup] at hes
      split at hes
      · rename_i hmem
        cases hes
        refine ⟨?_, hmem, nofun, rfl⟩
        have hnot : s.nextEntity ∉ (s.manager.unreadyObjectMap.lookup id).getD [] := fun hin =>
          lt_irrefl _ (hold id _ hin)
        rw [count_append, count_eq_zero.mpr hnot, count_singleton_self]
      · exact absurd (h.base.entities id es hes _ he) (lt_irrefl _)

theorem lookup_addExceptions (l : List (Σ _ : String, ErrorInfo)) (result : InternalWaitResult) (k : String) :
    (l.foldl (fun result e => addException result e.1 e.2) result).exceptionIds.lookup k =
        (result.exceptionIds.lookup k).or (l.dlookup k) ∧
      (l.foldl (fun result e => addException result e.1 e.2) result).unreadyIds =
        result.unreadyIds := by
  induction l generalizing result with
  | nil => simp
  | cons e rest ih =>
    obtain ⟨hlookup, hunready⟩ := ih (addException result e.1 e.2)
    refine ⟨?_, hunready.trans (unreadyIds_addException result e.1 e.2)⟩
    rw [foldl_cons, hlookup, lookup_addException, Option.or_assoc]
    congr 1
    by_cases heq : k = e.1
    · subst heq
      rw [if_pos rfl]
      exact (dlookup_cons_eq rest e.1 e.2).symm
    · rw [if_neg heq, dlookup_cons_ne _ e (Ne.symm heq).symm]
      rfl

theorem Inv.woken (h : Inv s) (hphase : s.phase = .wait lastWait timeout readyIds unreadyIds entity)
    (hw : s.manager.entities.lookup entity = some w) :
    Inv (s.woken lastWait readyIds unreadyIds entity w) := by
  have hat := h.phase
  rw [AtPhase, hphase] at hat
  obtain ⟨hscanned, hapart, hlt, w', hw', hentity⟩ := hat
  rw [hw] at hw'
  cases hw'
  have hlookup : ∀ k, (s.woken lastWait readyIds unreadyIds entity w).result.exceptionIds.lookup k =
      (s.result.exceptionIds.lookup k).or (w.exceptionIds.lookup k) := fun k =>
    (lookup_addExceptions w.exceptionIds.entries s.result k).1
  have hunready := (lookup_addExceptions w.exceptionIds.entries s.result "").2
  refine ⟨{ h.base with exceptions := ?_ },
    { hscanned with cover := ?_, empty := hunready.trans hscanned.empty }, hlt, w, hw,
    { hentity with }, ?_⟩
  · intro k err hk
    rw [hlookup] at hk
    rcases or_eq_some_iff.mp hk with hold | ⟨-, hnew⟩
    · exact h.base.exceptions k err hold
    · obtain ⟨hmem, hfailed⟩ := hentity.failed k err hnew
      exact ⟨(hscanned.unready k hmem).1, hfailed⟩
  · intro k hk
    rcases hscanned.cover k hk with hr | hu | he
    · exact .inl hr
    · exact .inr (.inl hu)
    refine .inr (.inr ?_)
    obtain ⟨v, hv⟩ := isSome_iff_exists.mp he
    rw [hlookup, hv]
    rfl
  · intro k hk hsome
    rw [hlookup, hapart k hk] at hsome
    exact hsome

theorem Inv.collected (h : Inv s) (hphase : s.phase = .read lastWait readyIds unreadyIds entity)
    (hw : s.manager.entities.lookup entity = some w) : Inv (s.collected lastWait readyIds w) := by
  have hat := h.phase
  rw [AtPhase, hphase] at hat
  obtain ⟨hscanned, hlt, w', hw', hentity, hexceptions⟩ := hat
  rw [hw] at hw'
  cases hw'
  unfold WaitState.collected
  dsimp only
  split
  case isFalse => exact ⟨{ h.base with }, hscanned.empty⟩
  refine ⟨{ h.base with },
    ⟨?_, ?_, h.base.exceptions, ?_⟩, fun henough => by simpa using henough⟩
  · intro id hid
    have hnot : id ∉ s.result.unreadyIds ++ s.idList.filter fun id =>
        !(readyIds ++ w.readyObjIds).contains id && (s.result.exceptionIds.lookup id).isNone := by
      rw [hscanned.empty, nil_append, mem_filter]
      rintro ⟨-, hfilter⟩
      have hcontains : (readyIds ++ w.readyObjIds).contains id = true := contains_iff_mem.mpr hid
      rw [hcontains] at hfilter
      cases hfilter
    rcases mem_append.mp hid with hold | hnew
    · obtain ⟨hmem, hclean⟩ := hscanned.ready id hold
      exact ⟨hmem, hclean.succeeded, hnot, h.base.exception_none fun _ => hclean.not_failed⟩
    obtain ⟨hunready, hsucceeded, hnone⟩ := hentity.ready id hnew
    refine ⟨(hscanned.unready id hunready).1, hsucceeded, hnot, ?_⟩
    cases hexc : s.result.exceptionIds.lookup id with
    | none => rfl
    | some =>
      have hsome := hexceptions id hunready (by rw [hexc]; rfl)
      rw [hnone] at hsome
      cases hsome
  · intro id hid
    rw [hscanned.empty, nil_append, mem_filter, and_eq_true] at hid
    exact ⟨hid.1, isNone_iff_eq_none.mp hid.2.2⟩
  · intro id hid
    cases hexc : s.result.exceptionIds.lookup id with
    | some => exact .inr (.inr rfl)
    | none =>
      by_cases hready : id ∈ readyIds ++ w.readyObjIds
      · exact .inl hready
      refine .inr (.inl (mem_append_right _ (mem_filter.mpr ⟨hid, ?_⟩)))
      have hcontains : (readyIds ++ w.readyObjIds).contains id = false := by simpa using hready
      rw [hcontains, hexc]
      rfl

theorem Inv.startRound (h : Inv s) : Inv s.startRound :=
  ⟨{ h.base with exceptions := nofun },
    [], rfl, ⟨nofun, nofun, nofun, nodup_nil, rfl⟩, nofun⟩

theorem Inv.endRound (h : Inv s) (hphase : s.phase = .pause) : Inv s.endRound := by
  have hat := h.phase
  rw [AtPhase, hphase] at hat
  unfold WaitState.endRound
  split
  · exact ⟨{ h.base with }, [], rfl, ⟨nofun, nofun, nofun, nodup_nil, hat⟩, nofun⟩
  · exact ⟨{ h.base with }, trivial⟩

theorem Inv.step (h : Inv s) (hstep : s.next e = some s') : Inv s' := by
  cases e with
  | setReady =>
    cases hstep
    exact h.complete nofun
  | setError =>
    obtain ⟨herr, ⟨⟩⟩ := ite_none_left_eq_some.mp hstep
    apply h.complete
    rintro err' ⟨⟩
    simpa using herr
  | tell i =>
    simp only [next] at hstep
    split at hstep
    case h_2 => cases hstep
    rename_i id outcome hget
    split at hstep
    case isTrue => cases hstep
    case isFalse =>
      cases hstep
      exact h.tell (mem_of_getElem? hget) (eraseIdx_sublist s.toTell i).subset
  | dropReady =>
    obtain ⟨hcan, rfl⟩ := ite_some_none_eq_some.mp hstep
    exact h.dropReady hcan.2
  | wake =>
    simp only [next] at hstep
    split at hstep
    case h_2 => cases hstep
    rename_i lastWait timeout readyIds unreadyIds entity hphase
    split at hstep
    case h_2 => cases hstep
    case h_1 w hw =>
      obtain ⟨-, rfl⟩ := ite_some_none_eq_some.mp hstep
      exact h.woken hphase hw
  | step =>
    simp only [next] at hstep
    split at hstep
    case h_1 =>
      cases hstep
      exact h.startRound
    case h_2 lastWait timeout readyIds unreadyIds hphase =>
      cases hstep
      exact h.scanned hphase
    case h_3 lastWait timeout id rest readyIds unreadyIds hphase =>
      cases hstep
      exact h.look hphase
    case h_4 lastWait readyIds unreadyIds entity hphase =>
      obtain ⟨w, hw, rfl⟩ := map_eq_some_iff.mp hstep
      exact h.collected hphase hw
    case h_5 hphase =>
      cases hstep
      exact h.endRound hphase
    case h_6 => cases hstep

end Yuanrong.Libruntime.WaitState

namespace Yuanrong.Libruntime

open WaitState

theorem inv_of_waiting (hrun : waitForStored.Reachable s) : s.Inv := by
  refine hrun.invariant ?_ ?_
  · rintro s ⟨⟨heq, hnodup, hunready, htell, hentities⟩, hstored⟩
    have hobjects : ∀ id ∈ s.idList, ∃ d, s.storeMap.lookup id = some d ∧
        (d.ready = false → (s.manager.unreadyObjectMap.lookup id).isSome) := by
      intro id hid
      obtain ⟨d, hd⟩ := Option.isSome_iff_exists.mp (hstored id hid)
      exact ⟨d, hd, hunready id hid d hd⟩
    have hset : s.setReadyIds = s.toTell.filterMap fun c => if c.2.isNone then some c.1 else none := by
      rw [heq]
    refine ⟨⟨hnodup, hobjects, ?_, hentities, ?_⟩, ?_⟩
    · intro c hc
      obtain ⟨d, hlookup, hready, herr⟩ := htell c hc
      refine ⟨d, hlookup, hready, ?_, herr⟩
      intro hnone
      rw [hset]
      exact List.mem_filterMap.mpr ⟨c, hc, by simp [hnone]⟩
    · rw [heq]
      nofun
    · rw [heq]
      trivial
  · intro s e s' l _ _ h hstep
    exact h.step (next_of_step hstep)

/-- If the listed ids are in the store, then on return each is in exactly one of the three lists,
and if enough were completed there are at least `minReadyNum`. -/
theorem wait_result_partition {s : WaitState} {enough : Bool} (hrun : waitForStored.Reachable s)
    (hreturned : s.phase = .returned enough) :
    (∀ id, id ∈ s.idList ↔ id ∈ s.result.readyIds ∨ id ∈ s.result.unreadyIds ∨
      (s.result.exceptionIds.lookup id).isSome) ∧
    (∀ id ∈ s.result.readyIds, id ∉ s.result.unreadyIds ∧ s.result.exceptionIds.lookup id = none) ∧
    (∀ id ∈ s.result.unreadyIds, s.result.exceptionIds.lookup id = none) ∧
    (∀ id ∈ s.result.readyIds, Succeeded s id) ∧
    (∀ id err, s.result.exceptionIds.lookup id = some err → Failed s id err) ∧
    (enough = true → s.minReadyNum ≤ s.result.readyIds.length + s.result.exceptionIds.len) := by
  have hat := (inv_of_waiting hrun).phase
  rw [AtPhase, hreturned] at hat
  obtain ⟨hpartition, henough⟩ := hat
  refine ⟨?_, fun id hid => (hpartition.ready id hid).2.2, fun id hid => (hpartition.unready id hid).2,
    fun id hid => (hpartition.ready id hid).2.1, fun id err herr => (hpartition.failed id err herr).2,
    henough⟩
  intro id
  refine ⟨hpartition.cover id, ?_⟩
  rintro (hready | hunready | hfailed)
  · exact (hpartition.ready id hready).1
  · exact (hpartition.unready id hunready).1
  · obtain ⟨err, herr⟩ := Option.isSome_iff_exists.mp hfailed
    exact (hpartition.failed id err herr).1

def waitForTwo : WaitState :=
  { idList := ["a", "b", "c"], minReadyNum := 2, timeoutMs := 500, remainTimeout := 500
    storeMap := (((∅ : FinMap String ObjectDetail).insert "a" { ready := false }).insert "b"
      { ready := false }).insert "c" { ready := false }
    manager := { unreadyObjectMap :=
      (((∅ : FinMap String (List Nat)).insert "a" []).insert "b" []).insert "c" [] }
    nextEntity := 0 }

theorem init_waitForTwo : waitForStored.init waitForTwo := by
  refine ⟨⟨rfl, by decide, ?_, nofun, ?_⟩, by decide⟩
  · intro id hid _ _ _
    simp only [waitForTwo, List.mem_cons, List.not_mem_nil, or_false] at hid
    rcases hid with rfl | rfl | rfl <;> rfl
  · open AList in
    exact forall_lookup_insert nofun (forall_lookup_insert nofun (forall_lookup_insert nofun nofun))

theorem wait_result_partition_two :
    ∃ s, waitForStored.Reachable s ∧ s.phase = .returned true ∧ s.result.readyIds = ["b"] ∧
      s.result.unreadyIds = ["c"] ∧ Failed s "a" ⟨3003, "e"⟩ ∧
      s.minReadyNum ≤ s.result.readyIds.length + s.result.exceptionIds.len := by
  obtain ⟨s, hrun, hphase, hready, hunready, hfailed⟩ := waitForStored.reachable_of_run init_waitForTwo
    [.step, .step, .step, .step, .step, .setError "a" ⟨3003, "e"⟩, .tell 0, .wake, .step,
      .setReady "b", .step, .step, .step, .step, .step]
    (fun s => s.phase = .returned true ∧ s.result.readyIds = ["b"] ∧ s.result.unreadyIds = ["c"] ∧
      s.result.exceptionIds.lookup "a" = some ⟨3003, "e"⟩) (by decide)
  have hmain := wait_result_partition hrun hphase
  exact ⟨s, hrun, hphase, hready, hunready, hmain.2.2.2.2.1 "a" _ hfailed, hmain.2.2.2.2.2 rfl⟩

/-- An id that is in neither map is answered as ready, though nothing was ever completed. -/
theorem absent_id_ready :
    ∃ s, waitUntilReady.Reachable s ∧ s.phase = .returned true ∧ s.result.readyIds = ["a"] ∧
      ¬ Succeeded s "a" := by
  have hinit : waitUntilReady.init
      { idList := ["a"], minReadyNum := 1, timeoutMs := 0, remainTimeout := 0, storeMap := ∅
        manager := {}, nextEntity := 0 } :=
    ⟨rfl, by decide, nofun, nofun, nofun⟩
  obtain ⟨s, hrun, hphase, hready, hstore⟩ := waitUntilReady.reachable_of_run hinit
    [.step, .step, .step]
    (fun s => s.phase = .returned true ∧ s.result.readyIds = ["a"] ∧ s.storeMap.lookup "a" = none)
    (by decide)
  refine ⟨s, hrun, hphase, hready, ?_⟩
  rintro ⟨d, hlookup, -⟩
  rw [hstore] at hlookup
  cases hlookup

end Yuanrong.Libruntime
