import Mathlib.Data.List.Dedup
import Yuanrong.Lib.StepSystem
import Yuanrong.Libruntime.WaitingObjectManager

/-!
# Creating and terminating a group of instances

A group sends one request for all its instances, and is told of their ids by the response and of
their start by the notify. Terminating it kills the group under the id it knows and puts its objects
in error; replies that come later are ignored.
-/

namespace Yuanrong.Libruntime.Groups

open List

/-- An object of the store as creation uses it. The instance ids are a promise, set at most once. -/
structure ObjectDetail where
  ready : Bool := false
  err : ErrorInfo := {}
  instanceIds : Option (List String) := none
deriving DecidableEq

abbrev Store := String → Option ObjectDetail

namespace Store

variable (m : Store)

def update (id : String) (f : ObjectDetail → ObjectDetail) : Store :=
  Function.update m id ((m id).map f)

def setReady (id : String) : Store := m.update id fun d => { d with ready := true }

def setError (id : String) (err : ErrorInfo) : Store :=
  m.update id fun d => if d.ready then d else { d with ready := true, err := err }

def setInstanceIds (id : String) (instanceIds : List String) : Store :=
  m.update id fun d => { d with instanceIds := d.instanceIds.or (some instanceIds) }

def setInstanceId (id instanceId : String) : Store := m.setInstanceIds id [instanceId]

def addReturnObject (objId : String) : Store :=
  if (m objId).isSome then m else Function.update m objId (some {})

def ready (id : String) : Bool := (m id).any (·.ready)

/-- `m'` has the objects of `m`, with no completion taken back and no promise set again. -/
def Le (m m' : Store) : Prop :=
  ∀ id d, m id = some d → ∃ d', m' id = some d' ∧ (d.ready = true → d'.ready = true) ∧
    ∀ ids, d.instanceIds = some ids → d'.instanceIds = some ids

variable {m} {id : String} {err : ErrorInfo}

theorem Le.refl : m.Le m := fun _ d h => ⟨d, h, fun h => h, fun _ h => h⟩

theorem Le.trans (h : m.Le m') (h' : m'.Le m'') : m.Le m'' := by
  intro id d hd
  obtain ⟨d₁, hd₁, hready, hids⟩ := h id d hd
  obtain ⟨d₂, hd₂, hready', hids'⟩ := h' id d₁ hd₁
  exact ⟨d₂, hd₂, hready' ∘ hready, fun ids => hids' ids ∘ hids ids⟩

theorem Le.isSome (h : m.Le m') (hsome : (m id).isSome) : (m' id).isSome := by
  obtain ⟨d, hd⟩ := Option.isSome_iff_exists.mp hsome
  obtain ⟨d', hd', -⟩ := h id d hd
  exact Option.isSome_of_eq_some hd'

theorem Le.ready (h : m.Le m') (hready : m.ready id = true) : m'.ready id = true := by
  obtain ⟨d, hd, hdone⟩ := (Option.any_eq_true _ _).mp hready
  obtain ⟨d', hd', hkept, -⟩ := h id d hd
  exact (Option.any_eq_true _ _).mpr ⟨d', hd', hkept hdone⟩

theorem le_update (hready : ∀ d, d.ready = true → (f d).ready = true)
    (hids : ∀ d ids, d.instanceIds = some ids → (f d).instanceIds = some ids) : m.Le (m.update id f) := by
  intro id' d hd
  by_cases heq : id' = id
  · subst heq
    exact ⟨f d, by simp [update, hd], hready d, hids d⟩
  · exact ⟨d, by simp [update, heq, hd], fun h => h, fun _ h => h⟩

theorem le_setReady : m.Le (m.setReady id) := le_update (fun _ _ => rfl) fun _ _ h => h

theorem le_setError : m.Le (m.setError id err) := by
  refine le_update (fun d hready => by simp [hready]) fun d ids hids => ?_
  split <;> exact hids

theorem le_setInstanceIds : m.Le (m.setInstanceIds id ids) :=
  le_update (fun _ h => h) fun d ids' hids => by simp [hids]

theorem le_addReturnObject : m.Le (m.addReturnObject id) := by
  unfold addReturnObject
  split
  · exact .refl
  rename_i hnone
  intro id' d hd
  have hne : id' ≠ id := by
    rintro rfl
    exact hnone (Option.isSome_of_eq_some hd)
  exact ⟨d, by simp [hne, hd], fun h => h, fun _ h => h⟩

theorem ready_setReady (hsome : (m id).isSome) : (m.setReady id).ready id = true := by
  obtain ⟨d, hd⟩ := Option.isSome_iff_exists.mp hsome
  simp [ready, setReady, update, hd]

theorem ready_setError (hsome : (m id).isSome) : (m.setError id err).ready id = true := by
  obtain ⟨d, hd⟩ := Option.isSome_iff_exists.mp hsome
  cases hready : d.ready <;> simp [ready, setError, update, hd, hready]

section Fold

variable {α : Type} {f : Store → α → Store} (hle : ∀ (m : Store) x, m.Le (f m x))
include hle

theorem le_foldl (l : List α) : m.Le (l.foldl f m) := by
  induction l generalizing m with
  | nil => exact .refl
  | cons x _ ih => exact (hle m x).trans ih

theorem foldl_of_mem {P Q : Store → Prop} {l : List α} (hkept : ∀ m m', m.Le m' → P m → P m')
    (hinv : ∀ m x, Q m → Q (f m x)) (hstep : ∀ m, Q m → P (f m x)) (hmem : x ∈ l) (hm : Q m) :
    P (l.foldl f m) := by
  induction l generalizing m with
  | nil => cases hmem
  | cons y l ih =>
    rcases mem_cons.mp hmem with rfl | hmem
    · exact hkept _ _ (le_foldl hle l) (hstep m hm)
    · exact ih hmem (hinv m y hm)

theorem ready_foldl {l : List α} {x : α} (hstep : ∀ m, (m id).isSome → (f m x).ready id = true)
    (hmem : x ∈ l) (hsome : (m id).isSome) : (l.foldl f m).ready id = true :=
  foldl_of_mem hle (fun _ _ h => h.ready) (fun m x => (hle m x).isSome) hstep hmem hsome

end Fold

end Store

inductive Kind
  | named
  | range
deriving DecidableEq

structure CreateSpec where
  returnId : String
  instanceId : String := ""
deriving DecidableEq

structure CreateResponses where
  code : Nat := 0
  message : String := ""
  groupid : String := ""
  instanceids : List String := []
deriving DecidableEq

/-- A `NamedGroup` or a `RangeGroup`, with its kills and replies. Only a range keeps its
instances. -/
structure Group where
  kind : Kind
  createSpecs : List CreateSpec
  memStore : Store
  isSendReq : Bool := false
  runFlag : Bool := true
  isReady : Bool := false
  groupId : String := ""
  instanceIds : List String := []
  kills : List String := []
  resps : Option CreateResponses := none
  notified : Bool := false

namespace Group

variable (g : Group)

def createReqs : List CreateSpec :=
  match g.kind with
  | .named => g.createSpecs
  | .range => g.createSpecs.take 1

def returnIds : List String := g.createReqs.map (·.returnId)

def assign : List CreateSpec → List String → List CreateSpec
  | spec :: specs, id :: ids => { spec with instanceId := id } :: assign specs ids
  | specs, _ => specs

def namedCreateResp (resps : CreateResponses) : Group :=
  if resps.code ≠ 0 then
    { g with
      groupId := resps.groupid
      memStore := g.returnIds.foldl (·.setError · ⟨resps.code, resps.message⟩) g.memStore }
  else
    { g with
      groupId := resps.groupid
      createSpecs := assign g.createSpecs resps.instanceids
      memStore := (g.returnIds.zip resps.instanceids).foldl
        (fun m p => m.setInstanceId p.1 p.2) g.memStore }

def rangeCreateResp (resps : CreateResponses) : Group :=
  if resps.code ≠ 0 then
    { g with
      groupId := resps.groupid
      memStore := g.returnIds.foldl
        (fun m id => (m.setError id ⟨resps.code, resps.message⟩).setInstanceIds id []) g.memStore }
  else
    let inserted := (resps.instanceids.filter (· ∉ g.instanceIds)).dedup
    { g with
      groupId := resps.groupid
      instanceIds := g.instanceIds ++ inserted
      memStore := g.returnIds.foldl (·.setInstanceIds · (g.instanceIds ++ inserted))
        (inserted.foldl (fun m id => (m.addReturnObject id).setInstanceId id id) g.memStore) }

def createRespHandler (resps : CreateResponses) : Group :=
  if g.runFlag then
    match g.kind with
    | .named => g.namedCreateResp resps
    | .range => g.rangeCreateResp resps
  else g

/-- The notify handler of either kind; a range also completes the objects of its instances. -/
def createNotifyHandler (err : ErrorInfo) : Group :=
  if g.runFlag then
    if err.OK then
      { g with isReady := true, memStore := (g.returnIds ++ g.instanceIds).foldl .setReady g.memStore }
    else
      { g with memStore := (g.returnIds ++ g.instanceIds).foldl (·.setError · err) g.memStore }
  else g

def terminateError (id instanceId : String) : ErrorInfo :=
  ⟨9000, "group ins had been terminated, return obj id is: " ++ id ++ " , instance id is: " ++ instanceId⟩

def setTerminateError : Store :=
  match g.kind with
  | .named => g.createSpecs.foldl
      (fun m spec => m.setError spec.returnId (terminateError spec.returnId spec.instanceId)) g.memStore
  | .range => g.instanceIds.foldl (fun m id => m.setError id (terminateError id id)) g.memStore

def terminate : Group :=
  { g with runFlag := false, kills := g.kills ++ [g.groupId], memStore := g.setTerminateError }

inductive Event
  | groupCreate
  | response (resps : CreateResponses)
  | notify (err : ErrorInfo)
  | terminate
deriving DecidableEq

/-- The replies come once each, after the request. More ids than create requests would be indexed
past their end. -/
def step : Event → Option (Group × Unit)
  | .groupCreate => some ({ g with isSendReq := g.isSendReq || !g.createSpecs.isEmpty }, ())
  | .response resps =>
    if g.isSendReq ∧ g.resps = none ∧ (g.kind = .named → resps.instanceids.length ≤ g.createSpecs.length) then
      some ({ g.createRespHandler resps with resps := some resps }, ())
    else none
  | .notify err =>
    if g.isSendReq ∧ g.notified = false then some ({ g.createNotifyHandler err with notified := true }, ())
    else none
  | .terminate => some (g.terminate, ())

def created (kind : Kind) (returnIds : List String) : Group :=
  { kind
    createSpecs := returnIds.map ({ returnId := · })
    memStore := fun id => if id ∈ returnIds then some {} else none }

end Group

def groupCreation : StepSystem Group Group.Event Unit where
  init g := ∃ kind returnIds, g = .created kind returnIds
  step := Group.step

namespace Group

variable {g g' : Group}

theorem returnIds_assign : (assign specs ids).map (·.returnId) = specs.map (·.returnId) := by
  fun_induction assign specs ids with
  | case1 _ _ _ _ ih => simp [ih]
  | case2 => rfl

def allReady (g : Group) : Prop := ∀ id ∈ g.returnIds, g.memStore.ready id = true

structure Keeps (g g' : Group) : Prop where
  kind : g'.kind = g.kind
  returnIds : g'.createSpecs.map (·.returnId) = g.createSpecs.map (·.returnId)
  memStore : g.memStore.Le g'.memStore

theorem returnIds_eq : g.returnIds =
    match g.kind with
    | .named => g.createSpecs.map (·.returnId)
    | .range => (g.createSpecs.map (·.returnId)).take 1 := by
  unfold returnIds createReqs
  cases g.kind <;> simp [map_take]

namespace Keeps

variable (h : g.Keeps g')
include h

theorem returnIds_eq : g'.returnIds = g.returnIds := by
  rw [Group.returnIds_eq, Group.returnIds_eq, h.kind, h.returnIds]

theorem allReady (hready : g.allReady) : g'.allReady := by
  intro id hid
  rw [h.returnIds_eq] at hid
  exact h.memStore.ready (hready id hid)

theorem present (hpresent : ∀ id ∈ g.returnIds, (g.memStore id).isSome) :
    ∀ id ∈ g'.returnIds, (g'.memStore id).isSome := by
  intro id hid
  rw [h.returnIds_eq] at hid
  exact h.memStore.isSome (hpresent id hid)

end Keeps

section Handlers

variable {resps : CreateResponses}

theorem keeps_createRespHandler : g.Keeps (g.createRespHandler resps) := by
  unfold createRespHandler
  split
  case isFalse => exact ⟨rfl, rfl, .refl⟩
  split
  · unfold namedCreateResp
    split
    · exact ⟨rfl, rfl, Store.le_foldl (fun _ _ => Store.le_setError) _⟩
    · exact ⟨rfl, returnIds_assign, Store.le_foldl (fun _ _ => Store.le_setInstanceIds) _⟩
  · unfold rangeCreateResp
    split
    · exact ⟨rfl, rfl, Store.le_foldl (fun _ _ => Store.le_setError.trans Store.le_setInstanceIds) _⟩
    · refine ⟨rfl, rfl, Store.Le.trans ?_ (Store.le_foldl (fun _ _ => Store.le_setInstanceIds) _)⟩
      exact Store.le_foldl (fun _ _ => Store.le_addReturnObject.trans Store.le_setInstanceIds) _

theorem keeps_createNotifyHandler : g.Keeps (g.createNotifyHandler err) := by
  unfold createNotifyHandler
  split
  case isFalse => exact ⟨rfl, rfl, .refl⟩
  split
  · exact ⟨rfl, rfl, Store.le_foldl (fun _ _ => Store.le_setReady) _⟩
  · exact ⟨rfl, rfl, Store.le_foldl (fun _ _ => Store.le_setError) _⟩

theorem keeps_terminate : g.Keeps g.terminate := by
  refine ⟨rfl, rfl, ?_⟩
  unfold terminate setTerminateError
  cases g.kind <;> exact Store.le_foldl (fun _ _ => Store.le_setError) _

variable (hpresent : ∀ id ∈ g.returnIds, (g.memStore id).isSome)
include hpresent

theorem allReady_createRespHandler (hrun : g.runFlag = true) (hcode : resps.code ≠ 0) :
    (g.createRespHandler resps).allReady := by
  intro id hid
  rw [keeps_createRespHandler.returnIds_eq] at hid
  simp only [createRespHandler, hrun, if_true]
  split
  · simp only [namedCreateResp, hcode, ne_eq, not_false_eq_true, if_true]
    exact Store.ready_foldl (fun _ _ => Store.le_setError) (fun _ => Store.ready_setError) hid
      (hpresent id hid)
  · simp only [rangeCreateResp, hcode, ne_eq, not_false_eq_true, if_true]
    refine Store.ready_foldl (fun _ _ => Store.le_setError.trans Store.le_setInstanceIds) ?_ hid
      (hpresent id hid)
    intro m hsome
    exact Store.le_setInstanceIds.ready (Store.ready_setError hsome)

theorem allReady_createNotifyHandler (hrun : g.runFlag = true) : (g.createNotifyHandler err).allReady := by
  intro id hid
  rw [keeps_createNotifyHandler.returnIds_eq] at hid
  have hmem : id ∈ g.returnIds ++ g.instanceIds := mem_append_left _ hid
  simp only [createNotifyHandler, hrun, if_true]
  split
  · exact Store.ready_foldl (fun _ _ => Store.le_setReady) (fun _ => Store.ready_setReady) hmem
      (hpresent id hid)
  · exact Store.ready_foldl (fun _ _ => Store.le_setError) (fun _ => Store.ready_setError) hmem
      (hpresent id hid)

theorem allReady_terminate (hkind : g.kind = .named) : g.terminate.allReady := by
  intro id hid
  rw [keeps_terminate.returnIds_eq] at hid
  have hsome := hpresent id hid
  simp only [returnIds, createReqs, hkind, mem_map] at hid
  obtain ⟨spec, hmem, rfl⟩ := hid
  simp only [terminate, setTerminateError, hkind]
  exact Store.ready_foldl (fun _ _ => Store.le_setError) (fun _ => Store.ready_setError) hmem hsome

end Handlers

/-- Terminating waits for the response and, in a range, for the notify unless the response was an
error. -/
def afterReplies (g : Group) : Event → Bool
  | .terminate => !g.runFlag || g.resps.any fun r => g.kind = .named || g.notified || r.code ≠ 0
  | _ => true

structure Settling (g : Group) : Prop where
  present : ∀ id ∈ g.returnIds, (g.memStore id).isSome
  answered : g.runFlag = true → ∀ r, g.resps = some r → g.groupId = r.groupid ∧ (r.code ≠ 0 → g.allReady)
  notified : g.runFlag = true → g.notified = true → g.allReady
  stopped : g.runFlag = false → g.allReady ∧ ∃ r, g.resps = some r ∧ r.groupid ∈ g.kills

theorem settling_created (kind : Kind) (returnIds : List String) : (created kind returnIds).Settling := by
  refine ⟨?_, nofun, nofun, nofun⟩
  intro id hid
  have hmem : id ∈ returnIds := by
    rw [returnIds_eq] at hid
    cases kind with
    | named => simpa [created, Function.comp_def] using hid
    | range => exact mem_of_mem_take (by simpa [created, Function.comp_def] using hid)
  simp [created, hmem]

theorem Settling.response {resps : CreateResponses} (h : g.Settling) (hnone : g.resps = none) :
    { g.createRespHandler resps with resps := some resps : Group }.Settling := by
  have hrun : g.runFlag = true := by
    by_contra hstop
    obtain ⟨-, r, hr, -⟩ := h.stopped (Bool.eq_false_iff.mpr hstop)
    exact Option.some_ne_none _ (hr.symm.trans hnone)
  have hkeeps : g.Keeps (g.createRespHandler resps) := keeps_createRespHandler
  have hflags : (g.createRespHandler resps).runFlag = true ∧
      (g.createRespHandler resps).notified = g.notified ∧
      (g.createRespHandler resps).groupId = resps.groupid := by
    simp only [createRespHandler, hrun, if_true, namedCreateResp, rangeCreateResp]
    split <;> split <;> exact ⟨rfl, rfl, rfl⟩
  refine ⟨hkeeps.present h.present, ?_, ?_, ?_⟩
  · rintro - r ⟨⟩
    exact ⟨hflags.2.2, allReady_createRespHandler h.present hrun⟩
  · intro _ hnotified
    exact hkeeps.allReady (h.notified hrun (hflags.2.1 ▸ hnotified))
  · intro hstop
    exact (Bool.false_ne_true (hstop.symm.trans hflags.1)).elim

theorem Settling.notify (h : g.Settling) :
    { g.createNotifyHandler err with notified := true : Group }.Settling := by
  have hkeeps : g.Keeps (g.createNotifyHandler err) := keeps_createNotifyHandler
  have hsame : (g.createNotifyHandler err).runFlag = g.runFlag ∧
      (g.createNotifyHandler err).resps = g.resps ∧ (g.createNotifyHandler err).kills = g.kills ∧
      (g.createNotifyHandler err).groupId = g.groupId := by
    unfold createNotifyHandler
    split
    · split <;> exact ⟨rfl, rfl, rfl, rfl⟩
    · exact ⟨rfl, rfl, rfl, rfl⟩
  obtain ⟨hrunFlag, hresps, hkills, hgroupId⟩ := hsame
  refine ⟨hkeeps.present h.present, ?_, ?_, ?_⟩
  · intro hrun r hr
    obtain ⟨hid, hready⟩ := h.answered (hrunFlag ▸ hrun) r (hresps ▸ hr)
    exact ⟨hgroupId.trans hid, fun hcode => hkeeps.allReady (hready hcode)⟩
  · intro hrun _
    exact allReady_createNotifyHandler h.present (hrunFlag ▸ hrun)
  · intro hstop
    obtain ⟨hready, r, hr, hkill⟩ := h.stopped (hrunFlag ▸ hstop)
    exact ⟨hkeeps.allReady hready, r, hresps.trans hr, hkills.symm ▸ hkill⟩

theorem Settling.terminate (h : g.Settling) (hok : g.afterReplies .terminate = true) :
    g.terminate.Settling := by
  refine ⟨keeps_terminate.present h.present, nofun, nofun, fun _ => ?_⟩
  cases hrun : g.runFlag with
  | false =>
    obtain ⟨hready, r, hr, hkill⟩ := h.stopped hrun
    exact ⟨keeps_terminate.allReady hready, r, hr, mem_append_left _ hkill⟩
  | true =>
    simp only [afterReplies, hrun, Bool.not_true, Bool.false_or, Option.any_eq_true, Bool.or_eq_true,
      decide_eq_true_eq] at hok
    obtain ⟨r, hr, hcase⟩ := hok
    obtain ⟨hid, herror⟩ := h.answered hrun r hr
    refine ⟨?_, r, hr, mem_append_right _ (mem_singleton.mpr hid.symm)⟩
    rcases hcase with (hkind | hnotified) | hcode
    · exact allReady_terminate h.present hkind
    · exact keeps_terminate.allReady (h.notified hrun hnotified)
    · exact keeps_terminate.allReady (herror hcode)

theorem settling_of_reach (hreach : groupCreation.Reach (fun g e => g.afterReplies e = true) g) :
    g.Settling := by
  refine hreach.invariant ?_ ?_
  · rintro _ ⟨kind, returnIds, rfl⟩
    exact settling_created kind returnIds
  intro g e g' l _ hok h hstep
  cases e with
  | groupCreate =>
    cases hstep
    exact { h with }
  | response =>
    obtain ⟨⟨-, hnone, -⟩, ⟨⟩⟩ := Option.ite_none_right_eq_some.mp hstep
    exact h.response hnone
  | notify =>
    obtain ⟨-, ⟨⟩⟩ := Option.ite_none_right_eq_some.mp hstep
    exact h.notify
  | terminate =>
    cases hstep
    exact h.terminate hok

/-- A group terminated after its replies leaves no object a wait could hang on, and was killed under
its id. -/
theorem terminated_group_settled (hreach : groupCreation.Reach (fun g e => g.afterReplies e = true) g)
    (hterminated : g.runFlag = false) :
    (∀ id ∈ g.returnIds, g.memStore.ready id = true) ∧
      ∀ r, g.resps = some r → r.code = 0 → r.groupid ∈ g.kills := by
  obtain ⟨hready, r, hr, hkill⟩ := (settling_of_reach hreach).stopped hterminated
  refine ⟨hready, ?_⟩
  rintro r' hr' -
  rw [hr] at hr'
  cases hr'
  exact hkill

theorem terminated_group_settled_range :
    ∃ g, groupCreation.Reach (fun g e => g.afterReplies e = true) g ∧ g.kind = .range ∧
      g.returnIds = ["o"] ∧ g.memStore.ready "o" = true ∧ "g" ∈ g.kills := by
  obtain ⟨g, hreach, hkind, hids, hstop, hresps⟩ := groupCreation.reach_of_run afterReplies
    ⟨.range, ["o"], rfl⟩
    [.groupCreate, .response ⟨0, "", "g", ["i", "j"]⟩, .notify {}, .terminate]
    (fun g => g.kind = .range ∧ g.returnIds = ["o"] ∧ g.runFlag = false ∧
      g.resps = some ⟨0, "", "g", ["i", "j"]⟩) (by decide)
  obtain ⟨hready, hkilled⟩ := terminated_group_settled hreach hstop
  exact ⟨g, hreach, hkind, hids, hready "o" (by simp [hids]), hkilled _ hresps rfl⟩

/-- A range terminated early ignores both replies: its object stays open, and the kill names no
group. -/
theorem terminated_range_hangs :
    ∃ g, groupCreation.Reachable g ∧ g.runFlag = false ∧ g.notified = true ∧
      g.resps = some ⟨0, "", "g", ["i", "j"]⟩ ∧ g.returnIds = ["o"] ∧ g.memStore.ready "o" = false ∧
      g.kills = [""] :=
  groupCreation.reachable_of_run ⟨.range, ["o"], rfl⟩
    [.groupCreate, .terminate, .response ⟨0, "", "g", ["i", "j"]⟩, .notify {}] _ (by decide)

end Group

end Yuanrong.Libruntime.Groups
