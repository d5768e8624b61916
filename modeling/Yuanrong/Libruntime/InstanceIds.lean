import Yuanrong.Libruntime.GroupCreation

/-!
# Looking up the instance ids of a creation

`GetInstanceId` waits for the promise of an object's instance ids and takes the first of them. The
promise is set by the create responses, apart from the completion of the object; a creation outside
of a group may be tried again, and then gets a response for each attempt.
-/

namespace Yuanrong.Libruntime.Groups

open List Store Option Bool

inductive Lookup
  | found (instanceId : String)
  | blocked
  | outOfRange
deriving DecidableEq

def Store.getInstanceId (m : Store) (objId : String) : Lookup :=
  match m objId with
  | none => .found objId
  | some d =>
    match d.instanceIds with
    | none => .blocked
    | some [] => .outOfRange
    | some (id :: _) => .found id

/-- `due` has the attempts without a response yet, `lastResponse` the id of the current one's. -/
structure Creation where
  returnId : String
  memStore : Store
  retryTimes : Int
  attempt : Nat := 0
  inManager : Bool := true
  due : List Nat := [0]
  lastResponse : Option String := none

namespace Creation

variable (c : Creation)

/-- `ERR_RESOURCE_NOT_ENOUGH`, `ERR_INNER_COMMUNICATION`, `ERR_REQUEST_BETWEEN_RUNTIME_BUS` and
`ERR_INSUFFICIENT_DISK_SPACE`. -/
def codesWorthRetry : List Nat := [1002, 3002, 3001, 4204]

def errInstanceDuplicated : Nat := 1004

def needRetry (code : Nat) : Bool := 0 < c.retryTimes && code ∈ codesWorthRetry

def retryCreateInstance : Creation :=
  { c with
    attempt := c.attempt + 1
    retryTimes := c.retryTimes - 1
    due := c.due ++ [c.attempt + 1]
    lastResponse := none }

def createResponseHandler (err : ErrorInfo) (instanceId : String) : Creation :=
  if err.code = 0 then
    { c with memStore := c.memStore.setInstanceId c.returnId instanceId }
  else if err.code = errInstanceDuplicated then
    { c with memStore := (c.memStore.setInstanceId c.returnId instanceId).setReady c.returnId }
  else if c.needRetry err.code then c.retryCreateInstance
  else { c with memStore := (c.memStore.setInstanceId c.returnId instanceId).setError c.returnId err }

/-- The request has left the manager, or the eight bits are not the current attempt's. -/
def ignores (seq : Nat) : Bool := !c.inManager || seq ≠ c.attempt % 256

def createNotifyHandler (seq : Nat) (err : ErrorInfo) : Creation :=
  if c.ignores seq then c
  else if err.code = 0 then { c with memStore := c.memStore.setReady c.returnId, inManager := false }
  else if c.needRetry err.code then c.retryCreateInstance
  else { c with memStore := c.memStore.setError c.returnId err, inManager := false }

inductive Event
  | response (attempt : Nat) (err : ErrorInfo) (instanceId : String)
  | notify (seq : Nat) (err : ErrorInfo)
deriving DecidableEq

/-- Each attempt has one response; notifies may come at any time, late and more than once. -/
def step : Event → Option (Creation × Unit)
  | .response attempt err instanceId =>
    if attempt ∈ c.due then
      some ({ c with
        due := c.due.erase attempt
        lastResponse := if attempt = c.attempt then some instanceId else c.lastResponse
        }.createResponseHandler err instanceId, ())
    else none
  | .notify seq err => some (c.createNotifyHandler seq err, ())

def created (returnId : String) (retryTimes : Int) : Creation :=
  { returnId, retryTimes, memStore := fun id => if id = returnId then some {} else none }

/-- A notify that is not ignored comes after the response, and has the creation not tried again. -/
def inOrder : Event → Bool
  | .response .. => true
  | .notify seq err => c.ignores seq || (c.due = [] && !c.needRetry err.code)

end Creation

def singleCreation : StepSystem Creation Creation.Event Unit where
  init c := ∃ returnId retryTimes, c = .created returnId retryTimes
  step := Creation.step

namespace Creation

variable {c : Creation}

def Answered (c : Creation) : Prop :=
  c.due = [] ∧ ∃ ins d, c.memStore c.returnId = some d ∧ d.instanceIds = some [ins] ∧
    c.lastResponse = some ins

def Lookable (c : Creation) : Prop :=
  (c.due = [c.attempt] ∧ c.memStore c.returnId = some {}) ∨ c.Answered

theorem Answered.of_le {m : Store} {inManager : Bool} (h : c.Answered) (hle : c.memStore.Le m) :
    { c with memStore := m, inManager }.Answered := by
  obtain ⟨hdue, ins, d, hd, hids, hlast⟩ := h
  obtain ⟨d', hd', -, hkept⟩ := hle _ d hd
  exact ⟨hdue, ins, d', hd', hkept _ hids, hlast⟩

theorem lookable_createResponseHandler (hdue : c.due = []) (hobject : c.memStore c.returnId = some {})
    (hlast : c.lastResponse = some ins) : (c.createResponseHandler err ins).Lookable := by
  have hset : c.memStore.setInstanceId c.returnId ins c.returnId = some { instanceIds := some [ins] } := by
    simp [setInstanceId, setInstanceIds, update, hobject]
  have hanswered : Answered { c with memStore := c.memStore.setInstanceId c.returnId ins } :=
    ⟨hdue, ins, _, hset, rfl, hlast⟩
  unfold createResponseHandler
  split
  · exact .inr hanswered
  split
  · exact .inr (hanswered.of_le le_setReady)
  split
  · exact .inl ⟨by simp [retryCreateInstance, hdue], hobject⟩
  · exact .inr (hanswered.of_le le_setError)

theorem Lookable.response {attempt : Nat} (h : c.Lookable)
    (hstep : c.step (.response attempt err ins) = some (c', ())) : c'.Lookable := by
  obtain ⟨hdue, ⟨⟩⟩ := ite_none_right_eq_some.mp hstep
  rcases h with ⟨hlist, hobject⟩ | ⟨hlist, -⟩
  · obtain rfl : attempt = c.attempt := by simpa [hlist] using hdue
    exact lookable_createResponseHandler (by simp [hlist]) hobject (if_pos rfl)
  · simp [hlist] at hdue

theorem Lookable.notify (h : c.Lookable) (hok : c.inOrder (.notify seq err) = true) :
    (c.createNotifyHandler seq err).Lookable := by
  simp only [inOrder, or_eq_true, and_eq_true, decide_eq_true_eq, not_eq_true'] at hok
  unfold createNotifyHandler
  split
  case isTrue => exact h
  rename_i hcurrent
  obtain ⟨hdue, hretry⟩ := hok.resolve_left hcurrent
  have hanswered : c.Answered := h.resolve_left fun hopen => by simp [hopen.1] at hdue
  split
  · exact .inr (hanswered.of_le le_setReady)
  · rw [hretry]
    exact .inr (hanswered.of_le le_setError)

end Creation

namespace Store

variable {m : Store} {id : String}

def Identified (m : Store) (id : String) : Prop :=
  ∃ d ids, m id = some d ∧ d.instanceIds = some ids ∧ ids ≠ []

/-- The promise of the object is not set, or to a list that can be indexed. -/
def Usable (m : Store) (id : String) : Prop := ∃ d, m id = some d ∧ d.instanceIds ≠ some []

theorem Identified.of_le (hle : m.Le m') (h : m.Identified id) : m'.Identified id := by
  obtain ⟨d, ids, hd, hids, hne⟩ := h
  obtain ⟨d', hd', -, hkept⟩ := hle id d hd
  exact ⟨d', ids, hd', hkept ids hids, hne⟩

theorem Identified.found (h : m.Identified id) : ∃ ins, m.getInstanceId id = .found ins := by
  obtain ⟨d, ids, hd, hids, hne⟩ := h
  obtain ⟨ins, rest, rfl⟩ := exists_cons_of_ne_nil hne
  exact ⟨ins, by simp [getInstanceId, hd, hids]⟩

theorem Usable.identified (h : m.Usable id) (hne : ids ≠ []) : (m.setInstanceIds id ids).Identified id := by
  obtain ⟨d, hd, hset⟩ := h
  cases hold : d.instanceIds with
  | none =>
    exact ⟨{ d with instanceIds := some ids }, ids, by simp [setInstanceIds, update, hd, hold], rfl, hne⟩
  | some old =>
    refine ⟨{ d with instanceIds := some old }, old, by simp [setInstanceIds, update, hd, hold], rfl, ?_⟩
    rintro rfl
    exact hset hold

theorem Usable.setInstanceIds (h : m.Usable id) (hne : ids ≠ []) : (m.setInstanceIds id' ids).Usable id := by
  by_cases heq : id = id'
  · subst heq
    obtain ⟨d, ids', hd, hids, hne'⟩ := h.identified hne
    exact ⟨d, hd, by simpa [hids] using hne'⟩
  · obtain ⟨d, hd, hset⟩ := h
    exact ⟨d, by simp [Store.setInstanceIds, update, heq, hd], hset⟩

theorem Usable.addReturnObject (h : m.Usable id) : (m.addReturnObject id').Usable id := by
  obtain ⟨d, hd, hset⟩ := h
  unfold Store.addReturnObject
  split
  · exact ⟨d, hd, hset⟩
  rename_i hnone
  have hne : id ≠ id' := by
    rintro rfl
    exact hnone (isSome_of_eq_some hd)
  exact ⟨d, by simp [hne, hd], hset⟩

end Store

namespace Group

variable {g : Group} {resps : CreateResponses}

/-- The response gives every create request an instance: one each, or some instances of the
range. -/
def fullResponse (g : Group) (resps : CreateResponses) : Bool :=
  resps.code = 0 && resps.instanceids ≠ [] &&
    (g.kind = .range || g.createSpecs.length ≤ resps.instanceids.length)

/-- The response comes first, and is a full one. -/
def answeredFirst (g : Group) : Event → Bool
  | .groupCreate => true
  | .response resps => g.fullResponse resps
  | _ => g.resps.isSome

theorem identified_createRespHandler (hrun : g.runFlag = true) (hfull : g.fullResponse resps = true)
    {id : String} (hid : id ∈ g.returnIds) (husable : g.memStore.Usable id) :
    (g.createRespHandler resps).memStore.Identified id := by
  simp only [fullResponse, and_eq_true, or_eq_true, decide_eq_true_eq] at hfull
  obtain ⟨⟨hcode, hne⟩, hlength⟩ := hfull
  simp only [createRespHandler, hrun, if_true]
  split
  case h_1 hkind =>
    obtain ⟨i, hi, rfl⟩ := mem_iff_getElem.mp hid
    have hbound : i < resps.instanceids.length := by
      have hlen := hlength.resolve_left (by simp [hkind])
      simp only [returnIds, createReqs, hkind, length_map] at hi
      omega
    simp only [namedCreateResp, hcode, ne_eq, not_true_eq_false, if_false]
    refine foldl_of_mem (x := (g.returnIds[i], resps.instanceids[i]))
      (fun _ _ => le_setInstanceIds) (fun _ _ => Store.Identified.of_le)
      (fun m p (h : m.Usable g.returnIds[i]) => h.setInstanceIds (cons_ne_nil _ _))
      (fun m (h : m.Usable _) => h.identified (cons_ne_nil _ _)) ?_ husable
    exact mem_iff_getElem.mpr ⟨i, by simp [hi, hbound], by simp⟩
  case h_2 =>
    simp only [rangeCreateResp, hcode, ne_eq, not_true_eq_false, if_false]
    generalize hinserted : (resps.instanceids.filter (· ∉ g.instanceIds)).dedup = inserted
    have hids : g.instanceIds ++ inserted ≠ [] := by
      obtain ⟨ins, rest, hcons⟩ := exists_cons_of_ne_nil hne
      by_cases hold : ins ∈ g.instanceIds
      · exact append_ne_nil_of_left_ne_nil (ne_nil_of_mem hold) _
      · refine append_ne_nil_of_right_ne_nil _ (ne_nil_of_mem (a := ins) ?_)
        simp [← hinserted, hcons, hold]
    refine foldl_of_mem (fun _ _ => le_setInstanceIds) (fun _ _ => Store.Identified.of_le)
      (fun m p (h : m.Usable id) => h.setInstanceIds hids)
      (fun m (h : m.Usable id) => h.identified hids) hid ?_
    exact List.foldlRecOn (motive := fun m : Store => m.Usable id) inserted _ husable fun m h ins _ =>
      h.addReturnObject.setInstanceIds (cons_ne_nil _ _)

def Lookable (g : Group) : Prop :=
  (g.resps = none ∧ g.runFlag = true ∧ ∀ id ∈ g.returnIds, g.memStore id = some {}) ∨
    (g.resps.isSome ∧ ∀ id ∈ g.returnIds, g.memStore.Identified id)

theorem Lookable.keeps (h : g.Lookable) (hkeeps : g.Keeps g') (hresps : g'.resps = g.resps)
    (hsome : g.resps.isSome) : g'.Lookable := by
  rcases h with ⟨hnone, -⟩ | ⟨-, hids⟩
  · simp [hnone] at hsome
  · refine .inr ⟨hresps ▸ hsome, fun id hid => ?_⟩
    exact .of_le hkeeps.memStore (hids id (hkeeps.returnIds_eq ▸ hid))

theorem group_lookable_of_reach (hreach : groupCreation.Reach (fun g e => g.answeredFirst e = true) g) :
    g.Lookable := by
  refine hreach.invariant ?_ ?_
  · rintro _ ⟨kind, returnIds, rfl⟩
    refine .inl ⟨rfl, rfl, fun id hid => ?_⟩
    have hsome := (settling_created kind returnIds).present id hid
    simpa [created] using hsome
  · intro g e g' l _ hok h hstep
    cases e with
    | groupCreate =>
      cases hstep
      exact h
    | response =>
      obtain ⟨⟨-, hnone, -⟩, ⟨⟩⟩ := ite_none_right_eq_some.mp hstep
      rcases h with ⟨-, hrun, hobjects⟩ | ⟨hsome, -⟩
      · refine .inr ⟨rfl, fun id hid => ?_⟩
        have hmem : id ∈ g.returnIds := keeps_createRespHandler.returnIds_eq ▸ hid
        exact identified_createRespHandler hrun hok hmem ⟨{}, hobjects id hmem, by simp⟩
      · simp [hnone] at hsome
    | notify err =>
      obtain ⟨-, ⟨⟩⟩ := ite_none_right_eq_some.mp hstep
      have hkeeps : g.Keeps (g.createNotifyHandler err) := keeps_createNotifyHandler
      refine h.keeps { hkeeps with } ?_ hok
      unfold createNotifyHandler
      split
      · split <;> rfl
      · rfl
    | terminate =>
      cases hstep
      exact h.keeps keeps_terminate rfl hok

end Group

/-- **Lookups end.** A single creation that is not tried again after its response is found under its
last id, and so are the objects of a group that was answered in full first. -/
theorem instanceId_lookups (c : Creation) (g : Group) :
    (singleCreation.Reach (fun c e => c.inOrder e = true) c → c.memStore.ready c.returnId = true →
      ∃ ins, c.memStore.getInstanceId c.returnId = .found ins ∧ c.lastResponse = some ins) ∧
    (groupCreation.Reach (fun g e => g.answeredFirst e = true) g → ∀ id ∈ g.returnIds,
      g.memStore.ready id = true → ∃ ins, g.memStore.getInstanceId id = .found ins) := by
  constructor
  · intro hreach hready
    have hlookable : c.Lookable := by
      refine hreach.invariant ?_ ?_
      · rintro _ ⟨returnId, retryTimes, rfl⟩
        exact .inl ⟨rfl, by simp [Creation.created]⟩
      intro c e c' l _ hok h hstep
      cases e with
      | response => exact h.response hstep
      | notify =>
        cases hstep
        exact h.notify hok
    rcases hlookable with ⟨-, hobject⟩ | ⟨-, ins, d, hd, hids, hlast⟩
    · simp [ready, hobject] at hready
    · exact ⟨ins, by simp [getInstanceId, hd, hids], hlast⟩
  · intro hreach id hid hready
    rcases Group.group_lookable_of_reach hreach with ⟨-, -, hobjects⟩ | ⟨-, hids⟩
    · simp [ready, hobjects id hid] at hready
    · exact (hids id hid).found

theorem instanceId_lookups_retried :
    ∃ c g, singleCreation.Reach (fun c e => c.inOrder e = true) c ∧ c.attempt = 1 ∧
      (∃ ins, c.memStore.getInstanceId c.returnId = .found ins ∧ c.lastResponse = some ins) ∧
      groupCreation.Reach (fun g e => g.answeredFirst e = true) g ∧ g.returnIds = ["o", "p"] ∧
      ∃ ins, g.memStore.getInstanceId "p" = .found ins := by
  obtain ⟨c, hsingle, hattempt, hdone⟩ := singleCreation.reach_of_run Creation.inOrder ⟨"o", 2, rfl⟩
    [.response 0 ⟨1002, ""⟩ "a", .notify 0 {}, .response 1 {} "b", .notify 1 {}]
    (fun c => c.attempt = 1 ∧ c.memStore.ready c.returnId = true) (by decide)
  obtain ⟨g, hgroup, hids, hready⟩ := groupCreation.reach_of_run Group.answeredFirst
    ⟨.named, ["o", "p"], rfl⟩ [.groupCreate, .response ⟨0, "", "g", ["i", "j"]⟩, .notify {}]
    (fun g => g.returnIds = ["o", "p"] ∧ g.memStore.ready "p" = true) (by decide)
  obtain ⟨hlookup, hlookups⟩ := instanceId_lookups c g
  exact ⟨c, g, hsingle, hattempt, hlookup hsingle hdone, hgroup, hids,
    hlookups hgroup "p" (by simp [hids]) hready⟩

/-- The first attempt is answered and then fails: the lookup gives its instance, not the
second's. -/
theorem first_instance_looked_up :
    ∃ c, singleCreation.Reachable c ∧ c.due = [] ∧ c.inManager = false ∧ c.lastResponse = some "b" ∧
      (c.memStore c.returnId).map (fun d => (d.ready, d.err)) = some (true, {}) ∧
      c.memStore.getInstanceId c.returnId = .found "a" :=
  singleCreation.reachable_of_run ⟨"o", 2, rfl⟩
    [.response 0 {} "a", .notify 0 ⟨3002, ""⟩, .response 1 {} "b", .notify 1 {}] _ (by decide)

end Yuanrong.Libruntime.Groups
