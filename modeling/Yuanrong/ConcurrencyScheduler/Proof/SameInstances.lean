import Yuanrong.ConcurrencyScheduler.Proof.LedgerRelease

/-!
# What acquires, releases and expiries leave alone

They change which threads are free, but not which instances there are. Only an acquire that
designates a thread issues one beyond an instance's own.
-/

namespace Yuanrong.Concurrency

open BasicConcurrencyScheduler AList

structure SameInstances (cfg : Config) (quiet : Prop) (bcs bcs' : BasicConcurrencyScheduler) :
    Prop where
  elems : ∀ ref el', bcs'.elems.lookup ref = some el' → ∃ el, bcs.elems.lookup ref = some el ∧
    el'.ins = el.ins ∧ (quiet → el'.overIssued = el.overIssued)
  records : ∀ ref r', bcs'.records.lookup ref = some r' →
    (∃ r, bcs.records.lookup ref = some r ∧ r'.sessionCtxID = r.sessionCtxID ∧ r'.insElem = r.insElem) ∨
      ∀ el', bcs'.elems.lookup r'.insElem = some el' → r'.sessionCtxID = contextOf cfg el'.ins

namespace SameInstances

variable {quiet : Prop} {bcs bcs' : BasicConcurrencyScheduler}

theorem trans (h : SameInstances cfg quiet bcs bcs') (h' : SameInstances cfg quiet bcs' bcs'') :
    SameInstances cfg quiet bcs bcs'' where
  elems := by
    intro ref el'' hel''
    obtain ⟨el', hel', hins', hissued'⟩ := h'.elems ref el'' hel''
    obtain ⟨el, hel, hins, hissued⟩ := h.elems ref el' hel'
    exact ⟨el, hel, hins'.trans hins, fun hquiet => (hissued' hquiet).trans (hissued hquiet)⟩
  records := by
    intro ref r'' hr''
    rcases h'.records ref r'' hr'' with ⟨r', hr', hctx', hins'⟩ | hnew
    · rcases h.records ref r' hr' with ⟨r, hr, hctx, hins⟩ | hnew
      · exact .inl ⟨r, hr, hctx'.trans hctx, hins'.trans hins⟩
      refine .inr fun el'' hel'' => ?_
      obtain ⟨el', hel', heq, -⟩ := h'.elems _ el'' hel''
      rw [hins'] at hel'
      rw [hctx', hnew el' hel', heq]
    · exact .inr hnew

def ElemsKept (quiet : Prop) (bcs bcs' : BasicConcurrencyScheduler) : Prop :=
  ∀ ref el', bcs'.elems.lookup ref = some el' → ∃ el, bcs.elems.lookup ref = some el ∧
    el'.ins = el.ins ∧ (quiet → el'.overIssued = el.overIssued)

theorem elems_same (helems : bcs'.elems = bcs.elems) : ElemsKept quiet bcs bcs' :=
  fun _ el' hel' => ⟨el', helems ▸ hel', rfl, fun _ => rfl⟩

theorem elems_insert (hel : bcs.elems.lookup ref = some el)
    (hins : el'.ins = el.ins) (hissued : quiet → el'.overIssued = el.overIssued)
    (helems : bcs'.elems = bcs.elems.insert ref el') : ElemsKept quiet bcs bcs' := by
  intro ref' el₀ hel₀
  rw [helems] at hel₀
  rcases lookup_of_insert hel₀ with ⟨rfl, rfl⟩ | hold
  · exact ⟨el, hel, hins, hissued⟩
  · exact ⟨el₀, hold, rfl, fun _ => rfl⟩

theorem of_records (helems : ElemsKept quiet bcs bcs')
    (hrecords : ∀ ref r, bcs'.records.lookup ref = some r → bcs.records.lookup ref = some r) :
    SameInstances cfg quiet bcs bcs' :=
  ⟨helems, fun ref r hr => .inl ⟨r, hrecords ref r hr, rfl, rfl⟩⟩

theorem setRecord (hr : bcs.records.lookup ref = some r) (helems : ElemsKept quiet bcs bcs')
    (hrecords : bcs'.records = bcs.records.insert ref r') (hctx : r'.sessionCtxID = r.sessionCtxID)
    (hins : r'.insElem = r.insElem) : SameInstances cfg quiet bcs bcs' where
  elems := helems
  records := by
    rw [hrecords]
    intro ref' r₀ hr₀
    rcases lookup_of_insert hr₀ with ⟨rfl, rfl⟩ | hold
    · exact .inl ⟨r, hr, hctx, hins⟩
    · exact .inl ⟨r₀, hold, rfl, rfl⟩

theorem refile (name : QueueName) (ref : Nat) (el : InstanceElement)
    (hsame : SameInstances cfg quiet bcs bcs') : SameInstances cfg quiet bcs (bcs'.refile name ref el) := by
  refine ⟨?_, ?_⟩
  · rw [refile_elems]
    exact hsame.elems
  · rw [refile_elems, refile_records]
    exact hsame.records

theorem refl : SameInstances cfg quiet bcs bcs :=
  of_records (elems_same rfl) fun _ _ h => h

theorem prepares (hprep : Prepares cfg d bcs bcs') :
    SameInstances cfg (d.designateThreadID = "") bcs bcs' := by
  cases hprep with
  | refile name => exact refl.refile name _ _
  | lose hel hwithin hissued => exact of_records (elems_insert hel hwithin.ins hissued rfl) fun _ _ h => h
  | drop => exact of_records (elems_same rfl) fun _ _ h => h
  | @bind _ _ _ _ _ _ _ hel hwithin hover =>
    refine ⟨elems_insert hel hwithin.ins (fun _ => hover) (bindTo_elems _ _ _ _ _), ?_⟩
    intro ref' r' hr'
    rw [bindTo_records] at hr'
    rcases lookup_of_insert hr' with ⟨-, rfl⟩ | hold
    · refine .inr fun el₀ hel₀ => ?_
      rw [bindTo_elems] at hel₀
      rw [lookup_insert] at hel₀
      cases hel₀
      rw [hwithin.ins]
      rfl
    · exact .inl ⟨r', hold, rfl, rfl⟩
  | signal _ hr => exact setRecord hr (elems_same rfl) rfl rfl rfl

theorem reflTransGen_prepares (hprep : Prepared cfg d bcs bcs') :
    SameInstances cfg (d.designateThreadID = "") bcs bcs' := by
  induction hprep with
  | refl => exact refl
  | tail _ hlast ih => exact ih.trans (prepares hlast)

theorem obtains (hobtains : Obtains cfg d bcs alloc bcs') :
    SameInstances cfg (d.designateThreadID = "") bcs bcs' := by
  cases hobtains with
  | @plain name _ el pick _ hel hfree =>
    refine refile name _ _ (of_records (elems_insert hel (el.taken_within pick).ins ?_ rfl) ?_)
    · exact fun hnone => el.taken_overIssued (hfree hnone)
    · exact fun _ _ h => h
  | session _ hr _ htakes =>
    obtain ⟨y, -, ⟨-, rfl⟩ | ⟨-, -, -, rfl⟩⟩ := htakes
    all_goals exact setRecord hr (elems_same rfl) rfl rfl rfl
  | @overAcq name _ r el pick _ _ hr _ _ hel hfree =>
    have hset : SameInstances cfg (d.designateThreadID = "") bcs
        ((bcs.setElem r.insElem (el.taken pick)).refile name r.insElem (el.taken pick)) := by
      refine refile name _ _ (of_records (elems_insert hel (el.taken_within pick).ins ?_ rfl) ?_)
      · exact fun hnone => el.taken_overIssued (hfree hnone)
      · exact fun _ _ h => h
    refine hset.trans (setRecord (r := r) ?_ (elems_same rfl) rfl rfl rfl)
    rw [refile_records]
    exact hr
  | agent _ _ hr => exact setRecord hr (elems_same rfl) rfl rfl rfl

theorem startUnbindInstanceSession (name : QueueName) (hr : bcs.records.lookup ref = some r)
    (hctx : r'.sessionCtxID = r.sessionCtxID) (hins : r'.insElem = r.insElem) :
    SameInstances cfg quiet bcs (bcs.startUnbindInstanceSession name ref r') := by
  obtain ⟨expiring, hrecords⟩ := startUnbindInstanceSession_records bcs name ref r'
  exact setRecord hr (elems_same (startUnbindInstanceSession_elems name ref r')) hrecords hctx hins

theorem put (name : QueueName) (hel : bcs.elems.lookup ref = some el) (threadID : String) :
    SameInstances cfg quiet bcs
      ((bcs.setElem ref (el.putThreadToThreadMap threadID)).refile name ref
        (el.putThreadToThreadMap threadID)) :=
  refile name _ _ (of_records
    (elems_insert hel (el.putThreadToThreadMap_ins threadID) (fun _ => (el.len_put_le threadID).2) rfl)
    fun _ _ h => h)

theorem releases (hreleases : Releases cfg bcs alloc bcs') : SameInstances cfg quiet bcs bcs' := by
  cases hreleases with
  | nothing => exact refl
  | marked name hel hid hsession hkey hr hover halloc
  | agent name _ _ _ _ hr =>
    refine refile name _ _ (startUnbindInstanceSession name hr ?_ ?_)
    · rfl
    · rfl
  | overAcq name hel _ _ _ hr =>
    refine (startUnbindInstanceSession name hr ?_ ?_).trans (put name ?_ alloc.allocationID)
    · rfl
    · rfl
    · rw [startUnbindInstanceSession_elems]
      exact hel
  | put name hel => exact put name hel alloc.allocationID

theorem expires (hexpires : Expires cfg bcs g u order bcs') : SameInstances cfg quiet bcs bcs' := by
  cases hexpires with
  | cancelled hr => exact setRecord hr (elems_same rfl) rfl rfl rfl
  | blocked => exact of_records (elems_same rfl) fun _ _ h => h
  | @expired r el _ _ _ hel hel' =>
    refine refile u.insQue _ _ (of_records (elems_insert hel ?_ ?_ rfl) ?_)
    · rw [hel']
      split
      · exact returnThreads_ins el r.allocThdMap order
      · rfl
    · intro _
      rw [hel']
      split
      · exact (len_returnThreads_le el r.allocThdMap order).2
      · rfl
    · exact fun _ _ h => lookup_of_erase h
  | stale => exact refl

end SameInstances

end Yuanrong.Concurrency
