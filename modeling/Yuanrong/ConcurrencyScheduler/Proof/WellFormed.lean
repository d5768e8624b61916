import Yuanrong.ConcurrencyScheduler.Proof.Effect

/-!
# What holds of the scheduler's addresses

Every address leads somewhere: sessions to records filed under their own key, records to elements,
queues to the elements of the instances they name. Addresses that have not been given out are free.
-/

namespace Yuanrong.Concurrency

open AList Nat BasicConcurrencyScheduler Option

namespace InstanceQueue

variable {q : InstanceQueue} {ref : Nat} {el : InstanceElement}

theorem Holds.of_remove (h : (q.remove objID).Holds objID' ref) : q.Holds objID' ref := by
  rcases h with h | h | ⟨item, h, rfl⟩
  · exact .inl (lookup_of_erase h)
  · exact .inr (.inl (lookup_of_erase h))
  · exact .inr (.inr ⟨item, lookup_of_erase h, rfl⟩)

theorem Holds.of_file (hid : el.ins.instanceID = objID) (h : (q.file objID elem el).1.Holds objID' ref) :
    q.Holds objID' ref ∨ objID' = objID ∧ ref = elem := by
  unfold file at h
  split at h
  · rcases h with h | h | ⟨item, h, rfl⟩
    · exact .inl (.inl h)
    · exact .inl (.inr (.inl h))
    rcases lookup_of_insert h with ⟨heq, rfl⟩ | hold
    · exact .inr ⟨heq.trans hid, rfl⟩
    · exact .inl (.inr (.inr ⟨item, hold, rfl⟩))
  · split at h
    · rcases h with h | h | h
      · rcases lookup_of_insert h with ⟨heq, rfl⟩ | hold
        · exact .inr ⟨heq, rfl⟩
        · exact .inl (.inl hold)
      · exact .inl (.inr (.inl h))
      · exact .inl (.inr (.inr h))
    · split at h
      · rcases h with h | h | h
        · exact .inl (.inl h)
        · rcases lookup_of_insert h with ⟨heq, rfl⟩ | hold
          · exact .inr ⟨heq, rfl⟩
          · exact .inl (.inr (.inl hold))
        · exact .inl (.inr (.inr h))
      · exact .inl h

theorem Holds.of_updateObjByID (hid : el.ins.instanceID = objID)
    (h : (q.updateObjByID objID elem el).1.Holds objID' ref) :
    q.Holds objID' ref ∨ objID' = objID ∧ ref = elem := by
  unfold updateObjByID at h
  split at h
  · exact .inl h
  have hfile : ((q.remove objID).file objID elem el).1.Holds objID' ref := by
    split at h
    case h_1 heq =>
      rw [heq]
      exact h
    rename_i heq
    rw [heq]
    split at h
    · exact h
    split at h
    · exact h
    · exact h
  rcases hfile.of_file hid with hold | hnew
  · exact .inl hold.of_remove
  · exact .inr hnew

theorem Holds.of_pushBack (h : (q.pushBack elem el).1.Holds objID' ref) :
    q.Holds objID' ref ∨ objID' = el.ins.instanceID ∧ ref = elem := by
  unfold pushBack at h
  split at h
  · exact .inl h
  have hfile : (q.file el.ins.instanceID elem el).1.Holds objID' ref := by
    split at h
    case h_1 heq | h_2 heq =>
      rw [heq]
      exact h
  exact hfile.of_file rfl

theorem Holds.of_delByID (h : (q.delByID objID).1.Holds objID' ref) : q.Holds objID' ref := by
  unfold delByID at h
  split at h
  · rcases h with h | h | h
    · exact .inl h
    · exact .inr (.inl (lookup_of_erase h))
    · exact .inr (.inr h)
  · split at h
    · exact h
    · exact Holds.of_remove h

end InstanceQueue

structure WellFormed (cfg : Config) (bcs : BasicConcurrencyScheduler) : Prop where
  keyed : ∀ cacheKey ref, bcs.sessionMap.lookup cacheKey = some ref →
    ∃ r, bcs.records.lookup ref = some r ∧ getRecordCacheKey cfg r = cacheKey
  bound : ∀ ref r, bcs.records.lookup ref = some r → ∃ el, bcs.elems.lookup r.insElem = some el
  filed : Filed bcs
  recordRef : ∀ ref r, bcs.records.lookup ref = some r → ref < bcs.nextRef
  elemRef : ∀ ref el, bcs.elems.lookup ref = some el → ref < bcs.nextRef
  unbindRef : ∀ g u, bcs.unbinds.lookup g = some u → g < bcs.nextRef

variable {bcs : BasicConcurrencyScheduler} {g : Nat}

theorem filed_refile (hfiled : Filed bcs) (name : QueueName)
    (hel : bcs.elems.lookup ref = some el) : Filed (bcs.refile name ref el) := by
  intro name' objID ref' hholds
  rw [refile_elems]
  have hcases : (bcs.queue name').Holds objID ref' ∨ objID = el.ins.instanceID ∧ ref' = ref := by
    cases name <;> cases name'
    · exact InstanceQueue.Holds.of_updateObjByID rfl hholds
    · exact .inl hholds
    · exact .inl hholds
    · exact InstanceQueue.Holds.of_updateObjByID rfl hholds
  rcases hcases with hold | ⟨rfl, rfl⟩
  · exact hfiled name' objID ref' hold
  · exact ⟨el, hel, rfl⟩

theorem filed_setElem (hfiled : Filed bcs) (hel : bcs.elems.lookup ref = some el)
    (hid : el'.ins.instanceID = el.ins.instanceID) : Filed (bcs.setElem ref el') := by
  intro name objID ref' hholds
  obtain ⟨el₀, hel₀, hid₀⟩ := hfiled name objID ref' (by cases name <;> exact hholds)
  by_cases heq : ref' = ref
  · subst heq
    obtain rfl : el₀ = el := some.inj (hel₀.symm.trans hel)
    exact ⟨el', lookup_insert bcs.elems, hid.trans hid₀⟩
  · exact ⟨el₀, (lookup_insert_ne heq).trans hel₀, hid₀⟩

namespace WellFormed

variable {cfg : Config} {bcs : BasicConcurrencyScheduler} {bcs' : BasicConcurrencyScheduler}

theorem linked (hwf : WellFormed cfg bcs) : Linked bcs := by
  intro cacheKey ref hmap
  obtain ⟨r, hr, -⟩ := hwf.keyed cacheKey ref hmap
  exact ⟨r, hr⟩


theorem refile (hwf : WellFormed cfg bcs) (name : QueueName)
    (hel : bcs.elems.lookup ref = some el) : WellFormed cfg (bcs.refile name ref el) where
  keyed := by
    rw [refile_sessionMap, refile_records]
    exact hwf.keyed
  bound := by
    rw [refile_records, refile_elems]
    exact hwf.bound
  filed := filed_refile hwf.filed name hel
  recordRef := by
    rw [refile_records, refile_nextRef]
    exact hwf.recordRef
  elemRef := by
    rw [refile_elems, refile_nextRef]
    exact hwf.elemRef
  unbindRef := by
    rw [refile_unbinds, refile_nextRef]
    exact hwf.unbindRef

theorem setElem (hwf : WellFormed cfg bcs) (hel : bcs.elems.lookup ref = some el)
    (hid : el'.ins.instanceID = el.ins.instanceID) : WellFormed cfg (bcs.setElem ref el') :=
  { hwf with
    bound := by
      intro ref' r hr
      obtain ⟨el₀, hel₀⟩ := hwf.bound ref' r hr
      exact lookup_insert_of_some hel₀
    filed := filed_setElem hwf.filed hel hid
    elemRef := by
      exact forall_lookup_insert (hwf.elemRef _ _ hel) hwf.elemRef }

variable {r : SessionRecord} {g' : Nat} {m : FinMap Nat Unbind}

section

variable (hwf : WellFormed cfg bcs)
include hwf

theorem setRecord (hr : bcs.records.lookup ref = some r)
    (hkey : getRecordCacheKey cfg r' = getRecordCacheKey cfg r) (hins : r'.insElem = r.insElem) :
    WellFormed cfg (bcs.setRecord ref r') :=
  { hwf with
    keyed := by
      intro cacheKey ref' hmap
      obtain ⟨r₀, hr₀, hkey₀⟩ := hwf.keyed cacheKey ref' hmap
      by_cases heq : ref' = ref
      · subst heq
        obtain rfl : r₀ = r := some.inj (hr₀.symm.trans hr)
        exact ⟨r', lookup_insert bcs.records, hkey.trans hkey₀⟩
      · exact ⟨r₀, (lookup_insert_ne heq).trans hr₀, hkey₀⟩
    bound := by
      refine forall_lookup_insert ?_ fun ref' r₀ hold => ?_
      · rw [hins]
        exact hwf.bound _ _ hr
      · exact hwf.bound _ _ hold
    recordRef := by
      exact forall_lookup_insert (hwf.recordRef _ _ hr) hwf.recordRef }

theorem delSession (cacheKey : String) : WellFormed cfg (bcs.delSession cacheKey) :=
  { hwf with keyed := fun key ref hmap => hwf.keyed key ref (lookup_of_erase hmap) }

theorem addRecord (hel : bcs.elems.lookup r.insElem = some el) :
    WellFormed cfg ({ bcs.setRecord bcs.nextRef r with nextRef := bcs.nextRef + 1 }.addSession
      (getRecordCacheKey cfg r) bcs.nextRef) where
  keyed := by
    refine forall_lookup_insert ?_ fun cacheKey ref hold => ?_
    · exact ⟨r, lookup_insert bcs.records, rfl⟩
    obtain ⟨r₀, hr₀, hkey₀⟩ := hwf.keyed cacheKey ref hold
    have hne : ref ≠ bcs.nextRef := (hwf.recordRef ref r₀ hr₀).ne
    exact ⟨r₀, (lookup_insert_ne hne).trans hr₀, hkey₀⟩
  bound := by
    exact forall_lookup_insert ⟨el, hel⟩ hwf.bound
  filed := hwf.filed
  recordRef := by
    exact forall_lookup_insert (lt_succ_self _)
      fun _ _ hold => lt_succ_of_lt (hwf.recordRef _ _ hold)
  elemRef := fun ref el₀ hel₀ => lt_succ_of_lt (hwf.elemRef ref el₀ hel₀)
  unbindRef := fun g u hu => lt_succ_of_lt (hwf.unbindRef g u hu)

theorem startUnbindInstanceSession (name : QueueName) (hr : bcs.records.lookup ref = some r)
    (hkey : getRecordCacheKey cfg r' = getRecordCacheKey cfg r) (hins : r'.insElem = r.insElem) :
    WellFormed cfg (bcs.startUnbindInstanceSession name ref r') := by
  unfold BasicConcurrencyScheduler.startUnbindInstanceSession
  dsimp only
  split
  · have hset : WellFormed cfg (bcs.setRecord ref { r' with released := true, expiring := true }) :=
      hwf.setRecord hr hkey hins
    exact
      { keyed := hset.keyed, bound := hset.bound, filed := hset.filed
        recordRef := fun ref' r₀ hr₀ => lt_succ_of_lt (hset.recordRef ref' r₀ hr₀)
        elemRef := fun ref' el hel => lt_succ_of_lt (hset.elemRef ref' el hel)
        unbindRef := by
          exact forall_lookup_insert (lt_succ_self _)
            fun g u hold => lt_succ_of_lt (hset.unbindRef g u hold) }
  · exact hwf.setRecord hr hkey hins

theorem prepares (hprep : Prepares cfg d bcs bcs') : WellFormed cfg bcs' := by
  cases hprep with
  | refile name hel => exact hwf.refile name hel
  | lose hel hwithin => exact hwf.setElem hel (congrArg Instance.instanceID hwithin.ins)
  | drop cacheKey => exact hwf.delSession cacheKey
  | @bind name ref el el' threads concurrency _ hel hwithin =>
    have hfiled : WellFormed cfg ((bcs.setElem ref el').refile name ref el') :=
      (hwf.setElem hel (congrArg Instance.instanceID hwithin.ins)).refile name (lookup_insert bcs.elems)
    have hel' : ((bcs.setElem ref el').refile name ref el').elems.lookup ref = some el' := by
      rw [refile_elems]
      exact lookup_insert bcs.elems
    have hadd := hfiled.addRecord (r := newRecord cfg d.sessionID concurrency ref el threads) hel'
    rw [refile_nextRef] at hadd
    exact hadd
  | signal _ hr => exact hwf.setRecord hr rfl rfl

theorem reflTransGen_prepares (hprep : Prepared cfg d bcs bcs') :
    WellFormed cfg bcs' := by
  induction hprep with
  | refl => exact hwf
  | tail _ hlast ih => exact ih.prepares hlast

end

section

variable (hwf : WellFormed cfg bcs)
include hwf

theorem taken (name : QueueName) (hel : bcs.elems.lookup ref = some el) (pick : Nat) :
    WellFormed cfg ((bcs.setElem ref (el.taken pick)).refile name ref (el.taken pick)) :=
  (hwf.setElem hel (congrArg Instance.instanceID (el.taken_within pick).ins)).refile name
    (lookup_insert bcs.elems)

theorem obtains (hobtains : Obtains cfg d bcs alloc bcs') : WellFormed cfg bcs' := by
  cases hobtains with
  | plain name pick _ hel => exact hwf.taken name hel pick
  | session _ hr _ htakes =>
    obtain ⟨y, -, ⟨-, rfl⟩ | ⟨-, -, -, rfl⟩⟩ := htakes
    all_goals exact hwf.setRecord hr rfl rfl
  | @overAcq name ref r el pick _ _ hr _ _ hel =>
    have hr' : ((bcs.setElem r.insElem (el.taken pick)).refile name r.insElem
        (el.taken pick)).records.lookup ref = some r := by
      rw [refile_records]
      exact hr
    exact (hwf.taken name hel pick).setRecord hr' rfl rfl
  | agent _ _ hr => exact hwf.setRecord hr rfl rfl

theorem put (name : QueueName) (hel : bcs.elems.lookup eref = some el) (threadID : String) :
    WellFormed cfg ((bcs.setElem eref (el.putThreadToThreadMap threadID)).refile name eref
      (el.putThreadToThreadMap threadID)) :=
  (hwf.setElem hel (congrArg Instance.instanceID (el.putThreadToThreadMap_ins threadID))).refile name
    (lookup_insert bcs.elems)

theorem releases (hreleases : Releases cfg bcs alloc bcs') : WellFormed cfg bcs' := by
  cases hreleases with
  | nothing => exact hwf
  | marked name hel hid hsession hkey hr hover halloc
  | agent name hel _ _ _ hr =>
    refine WellFormed.refile (hwf.startUnbindInstanceSession name hr ?_ ?_) name ?_
    · rfl
    · rfl
    · rw [startUnbindInstanceSession_elems]
      exact hel
  | overAcq name hel _ _ _ hr =>
    refine WellFormed.put (hwf.startUnbindInstanceSession name hr ?_ ?_) name ?_ alloc.allocationID
    · rfl
    · rfl
    · rw [startUnbindInstanceSession_elems]
      exact hel
  | put name hel => exact hwf.put name hel alloc.allocationID

theorem setUnbinds {unbinds : FinMap Nat Unbind}
    (hsub : ∀ g u, unbinds.lookup g = some u → ∃ u', bcs.unbinds.lookup g = some u') :
    WellFormed cfg { bcs with unbinds } :=
  { hwf with
    unbindRef := by
      intro g u hu
      obtain ⟨u', hu'⟩ := hsub g u hu
      exact hwf.unbindRef g u' hu' }

end

theorem lookup_unbinds_erase (hu : (m.erase g).lookup g' = some u) : ∃ u', m.lookup g' = some u' :=
  ⟨u, lookup_of_erase hu⟩

theorem lookup_unbinds_insert (hu₀ : m.lookup g = some u₀)
    (hu : (m.insert g u₁).lookup g' = some u) : ∃ u', m.lookup g' = some u' := by
  rcases lookup_of_insert hu with ⟨rfl, -⟩ | hold
  · exact ⟨u₀, hu₀⟩
  · exact ⟨u, hold⟩

theorem eraseRecord (hwf : WellFormed cfg bcs) (hr : bcs.records.lookup ref = some r) :
    WellFormed cfg { bcs.delSession (getRecordCacheKey cfg r) with records := bcs.records.erase ref } :=
  { hwf with
    keyed := by
      intro cacheKey ref' hmap
      obtain ⟨r', hr', hkey⟩ := hwf.keyed cacheKey ref' (lookup_of_erase hmap)
      refine ⟨r', ?_, hkey⟩
      have hrefs : ref' ≠ ref := by
        rintro rfl
        rw [hr] at hr'
        cases hr'
        exact ne_of_lookup_erase hmap hkey.symm
      exact (lookup_erase_ne hrefs).trans hr'
    bound := fun ref' r' hr' => hwf.bound ref' r' (lookup_of_erase hr')
    recordRef := fun ref' r' hr' => hwf.recordRef ref' r' (lookup_of_erase hr') }

end WellFormed

theorem returnThreads_ins (el : InstanceElement) (threads : ThreadMap) (order : List String) :
    (returnThreads el threads order).ins = el.ins := by
  refine List.foldlRecOn (motive := fun el' : InstanceElement => el'.ins = el.ins) _ _ rfl ?_
  exact fun el' hel id _ => (el'.putThreadToThreadMap_ins id).trans hel

/-- The goroutine finds the session busy and goes, with a token or without, or gives it up. -/
inductive Expires (cfg : Config) (bcs : BasicConcurrencyScheduler) (g : Nat) (u : Unbind)
    (order : List String) : BasicConcurrencyScheduler → Prop
  | cancelled {r : SessionRecord} (hr : bcs.records.lookup u.record = some r)
      (hbusy : r.idle = false) (htoken : r.expireCancelCh = true) :
      Expires cfg bcs g u order
        { bcs.setRecord u.record { r with expireCancelCh := false, expiring := false } with
          unbinds := bcs.unbinds.erase g }
  | blocked {r : SessionRecord} (hr : bcs.records.lookup u.record = some r)
      (hbusy : r.idle = false) (htoken : r.expireCancelCh = false) :
      Expires cfg bcs g u order
        { bcs with unbinds := bcs.unbinds.insert g { u with pc := .blocked } }
  | expired {r : SessionRecord} {el el' : InstanceElement}
      (hr : bcs.records.lookup u.record = some r) (hidle : r.idle = true)
      (hel : bcs.elems.lookup r.insElem = some el)
      (hel' : el' = if (bcs.getByID u.insQue el.ins.instanceID).isSome then
        returnThreads el r.allocThdMap order else el) :
      Expires cfg bcs g u order
        ({ (bcs.setElem r.insElem el').delSession (getRecordCacheKey cfg r) with
          records := bcs.records.erase u.record
          unbinds := bcs.unbinds.erase g }.refile u.insQue r.insElem el')
  | stale (hr : bcs.records.lookup u.record = none) : Expires cfg bcs g u order bcs

theorem expires_unbindExpired (hwf : WellFormed cfg bcs) (g : Nat) (u : Unbind) (order : List String) :
    Expires cfg bcs g u order (bcs.unbindExpired cfg g u order) := by
  unfold unbindExpired
  cases hr : bcs.records.lookup u.record with
  | none => exact .stale hr
  | some =>
    dsimp only
    split
    case isTrue hbusy =>
      split
      case isTrue htoken => exact .cancelled hr hbusy htoken
      case isFalse htoken => exact .blocked hr hbusy (by simpa using htoken)
    case isFalse hidle =>
      obtain ⟨el, hel⟩ := hwf.bound _ _ hr
      rw [hel]
      exact .expired hr (by simpa using hidle) hel rfl

theorem WellFormed.expires (hwf : WellFormed cfg bcs) (hu : bcs.unbinds.lookup g = some u)
    (hexpires : Expires cfg bcs g u order bcs') : WellFormed cfg bcs' := by
  cases hexpires with
  | @cancelled r hr =>
    have hset : WellFormed cfg
        (bcs.setRecord u.record { r with expireCancelCh := false, expiring := false }) :=
      hwf.setRecord hr rfl rfl
    exact hset.setUnbinds fun _ _ => lookup_unbinds_erase
  | blocked => exact hwf.setUnbinds fun _ _ => lookup_unbinds_insert hu
  | @expired _ el el' hr _ hel hel' =>
    have hid : el'.ins.instanceID = el.ins.instanceID := by
      rw [hel']
      split
      · rw [returnThreads_ins]
      · rfl
    have herase := (hwf.setElem hel hid).eraseRecord hr
    exact WellFormed.refile (herase.setUnbinds fun _ _ => lookup_unbinds_erase) u.insQue
      (lookup_insert bcs.elems)
  | stale => exact hwf

theorem setQueue_elems (bcs : BasicConcurrencyScheduler) (name : QueueName) (q : InstanceQueue) :
    (bcs.setQueue name q).elems = bcs.elems := by
  cases name
  all_goals rfl

theorem handleFuncOwnerUpdate_elems {cfg : Config} (bcs : BasicConcurrencyScheduler)
    (ring : List String) (isFuncOwner : Bool) :
    (bcs.handleFuncOwnerUpdate cfg ring isFuncOwner).elems = bcs.elems := by
  unfold handleFuncOwnerUpdate
  split
  · rfl
  cases isFuncOwner
  all_goals rfl

structure SameSessions (bcs bcs' : BasicConcurrencyScheduler) : Prop where
  sessionMap : bcs'.sessionMap = bcs.sessionMap
  records : bcs'.records = bcs.records
  unbinds : bcs'.unbinds = bcs.unbinds
  nextRef : bcs.nextRef ≤ bcs'.nextRef

namespace SameSessions

variable {cfg : Config} (bcs : BasicConcurrencyScheduler)

theorem setQueue (name : QueueName) (q : InstanceQueue) : SameSessions bcs (bcs.setQueue name q) := by
  cases name
  all_goals exact ⟨rfl, rfl, rfl, le_rfl⟩

theorem pushNew (name : QueueName) (ins : Instance) (threadIDPrefix : String) :
    SameSessions bcs (bcs.pushNew name ins threadIDPrefix) := by
  unfold BasicConcurrencyScheduler.pushNew
  dsimp only
  split
  · exact ⟨rfl, rfl, rfl, le_rfl⟩
  · cases name
    all_goals exact ⟨rfl, rfl, rfl, le_succ _⟩

theorem handleInstanceUpdate (name : QueueName) (ins : Instance) (threadIDPrefix : String) :
    SameSessions bcs (bcs.handleInstanceUpdate name ins threadIDPrefix) := by
  unfold BasicConcurrencyScheduler.handleInstanceUpdate
  split
  · exact pushNew bcs name ins threadIDPrefix
  · cases name
    all_goals exact ⟨rfl, rfl, rfl, le_rfl⟩

theorem handleFuncOwnerUpdate (ring : List String) (isFuncOwner : Bool) :
    SameSessions bcs (bcs.handleFuncOwnerUpdate cfg ring isFuncOwner) := by
  unfold BasicConcurrencyScheduler.handleFuncOwnerUpdate
  split
  · exact ⟨rfl, rfl, rfl, le_rfl⟩
  · cases isFuncOwner
    all_goals exact ⟨rfl, rfl, rfl, le_rfl⟩

end SameSessions

namespace WellFormed

variable {cfg : Config} {bcs : BasicConcurrencyScheduler}

theorem setQueue (hwf : WellFormed cfg bcs) (name : QueueName) (hq : ∀ objID ref, q.Holds objID ref →
      ∃ el, bcs.elems.lookup ref = some el ∧ el.ins.instanceID = objID) :
    WellFormed cfg (bcs.setQueue name q) := by
  have hfiled : Filed (bcs.setQueue name q) := by
    intro name' objID ref hholds
    cases name <;> cases name'
    · exact hq objID ref hholds
    · exact hwf.filed .other objID ref hholds
    · exact hwf.filed .self objID ref hholds
    · exact hq objID ref hholds
  cases name
  all_goals exact { hwf with filed := hfiled }

theorem newInstanceElement_ins (ins : Instance) (threadIDPrefix : String) :
    (newInstanceElement ins threadIDPrefix).ins = ins :=
  List.foldlRecOn (motive := fun el : InstanceElement => el.ins = ins) _ _ rfl fun _ hel _ _ => hel

section

variable (hwf : WellFormed cfg bcs)
include hwf

theorem addElem (el : InstanceElement) :
    WellFormed cfg { bcs.setElem bcs.nextRef el with nextRef := bcs.nextRef + 1 } where
  keyed := hwf.keyed
  bound := by
    intro ref r hr
    obtain ⟨el₀, hel₀⟩ := hwf.bound ref r hr
    exact lookup_insert_of_some hel₀
  filed := by
    intro name objID ref hholds
    obtain ⟨el₀, hel₀, hid⟩ := hwf.filed name objID ref (by cases name <;> exact hholds)
    have hne : ref ≠ bcs.nextRef := (hwf.elemRef ref el₀ hel₀).ne
    exact ⟨el₀, (lookup_insert_ne hne).trans hel₀, hid⟩
  recordRef := fun ref r hr => lt_succ_of_lt (hwf.recordRef ref r hr)
  elemRef := by
    exact forall_lookup_insert (lt_succ_self _)
      fun ref el₀ hold => lt_succ_of_lt (hwf.elemRef ref el₀ hold)
  unbindRef := fun g u hu => lt_succ_of_lt (hwf.unbindRef g u hu)

theorem pushNew (name : QueueName) (ins : Instance)
    (threadIDPrefix : String) : WellFormed cfg (bcs.pushNew name ins threadIDPrefix) := by
  unfold BasicConcurrencyScheduler.pushNew
  dsimp only
  split
  · exact hwf
  rename_i q heq
  have hadd := hwf.addElem (newInstanceElement ins threadIDPrefix)
  have hset := hadd.setQueue name (by
    intro objID ref hholds
    have hpush : ((bcs.queue name).pushBack bcs.nextRef
        (newInstanceElement ins threadIDPrefix)).1.Holds objID ref := by
      rw [heq]
      exact hholds
    rcases hpush.of_pushBack with hold | ⟨rfl, rfl⟩
    · exact hadd.filed name objID ref (by cases name <;> exact hold)
    · exact ⟨_, lookup_insert bcs.elems, rfl⟩)
  cases name
  · exact hset
  · exact hset

theorem delInstance (ring : List String) (ins : Instance) : WellFormed cfg (bcs.delInstance cfg ring ins) :=
  hwf.setQueue _ fun objID ref hholds => hwf.filed _ objID ref hholds.of_delByID

theorem handleInstanceUpdate (name : QueueName) (ins : Instance) (threadIDPrefix : String) :
    WellFormed cfg (bcs.handleInstanceUpdate name ins threadIDPrefix) := by
  unfold BasicConcurrencyScheduler.handleInstanceUpdate
  split
  · exact hwf.pushNew name ins threadIDPrefix
  rename_i ref el hget
  obtain ⟨hel, hid⟩ := hwf.filed.getByID hget
  have hset : WellFormed cfg (bcs.setElem ref { el with ins }) := hwf.setElem hel hid.symm
  exact hset.refile name (lookup_insert bcs.elems)

end

def Owns (bcs : BasicConcurrencyScheduler) (q : InstanceQueue) : Prop :=
  ∀ objID ref, q.Holds objID ref → ∃ el, bcs.elems.lookup ref = some el ∧ el.ins.instanceID = objID

theorem owns_reassignOne (objID : String) (hacc : Owns bcs acc.1) :
    Owns bcs (bcs.reassignOne cfg ring becomeOwner src acc objID).1 := by
  have hpush : ∀ {ref el}, bcs.elems.lookup ref = some el → Owns bcs (acc.1.pushBack ref el).1 := by
    intro ref el hel objID' ref' hholds
    rcases hholds.of_pushBack with hold | ⟨rfl, rfl⟩
    · exact hacc objID' ref' hold
    · exact ⟨el, hel, rfl⟩
  unfold reassignOne
  split
  · exact hacc
  rename_i ref el hget
  have hel : bcs.elems.lookup ref = some el := by
    obtain ⟨ref', -, hmap⟩ := bind_eq_some_iff.mp hget
    obtain ⟨el', hel', ⟨⟩⟩ := map_eq_some_iff.mp hmap
    exact hel'
  split
  · exact hpush hel
  split
  · exact hacc
  · exact hpush hel

theorem reassignQueues (hwf : WellFormed cfg bcs) (ring : List String) (becomeOwner : Bool) :
    WellFormed cfg (bcs.reassignQueues cfg ring becomeOwner) := by
  have hfold : ∀ (ids : List String) (src : InstanceQueue) (acc : InstanceQueue × List String),
      Owns bcs acc.1 → Owns bcs (ids.foldl (bcs.reassignOne cfg ring becomeOwner src) acc).1 := by
    intro ids src acc hacc
    induction ids generalizing acc with
    | nil => exact hacc
    | cons id _ ih => exact ih _ (owns_reassignOne id hacc)
  have hleave : ∀ (ids : List String) (q : InstanceQueue), Owns bcs q →
      Owns bcs (ids.foldl (fun q objID => (q.delByID objID).1) q) := by
    intro ids q hq
    exact List.foldlRecOn ids _ hq fun _ hq _ _ objID ref hholds => hq objID ref hholds.of_delByID
  cases becomeOwner
  · have hdst := hwf.setQueue .other (hfold (bcs.queue .self).ids (bcs.queue .self)
      (bcs.queue .other, []) fun objID ref => hwf.filed .other objID ref)
    exact hdst.setQueue .self (hleave _ _ fun objID ref => hwf.filed .self objID ref)
  · have hdst := hwf.setQueue .self (hfold (bcs.queue .other).ids (bcs.queue .other)
      (bcs.queue .self, []) fun objID ref => hwf.filed .self objID ref)
    exact hdst.setQueue .other (hleave _ _ fun objID ref => hwf.filed .other objID ref)

theorem handleFuncOwnerUpdate (hwf : WellFormed cfg bcs) (ring : List String) (isFuncOwner : Bool) :
    WellFormed cfg (bcs.handleFuncOwnerUpdate cfg ring isFuncOwner) := by
  unfold BasicConcurrencyScheduler.handleFuncOwnerUpdate
  split
  · exact hwf
  have hfiled : Filed { bcs with isFuncOwner } := by
    intro name objID ref hholds
    exact hwf.filed name objID ref (by cases name <;> exact hholds)
  have howner : WellFormed cfg { bcs with isFuncOwner } := { hwf with filed := hfiled }
  exact howner.reassignQueues ring isFuncOwner

end WellFormed

end Yuanrong.Concurrency
