import Yuanrong.ConcurrencyScheduler.Placement
import Yuanrong.PriorityQueue.RootMax

/-!
# Every instance is in one place

Within one queue an ID stands at most once. An instance that is not being evicted is on the side its
owner decides, and on no other. One that is being evicted may be on both sides, which a deletion
does not see: it looks at one queue only.
-/

namespace Yuanrong.Concurrency.Ordered

open AList List HealthyQueue Option PriorityQueue DeHeap Ordered.InstanceQueue

/-! ## Lists of elements with distinct IDs -/

abbrev InstanceElement.id (el : InstanceElement) : String := el.ins.instanceID

def InstanceElement.Evicting (el : InstanceElement) : Prop :=
  el.ins.statusCode = kernelInstanceStatusEvicting

def Distinct (els : List InstanceElement) : Prop := (els.map InstanceElement.id).Nodup

theorem Distinct.of_sublist (h : Distinct els)
    (hperm : els'.Perm els₀) (hsub : els₀.Sublist els) : Distinct els' :=
  (hperm.map _).nodup_iff.mpr (h.sublist (hsub.map _))

theorem Distinct.eq_of_id_eq (h : Distinct els) (hmem : el ∈ els) (hmem' : el' ∈ els) (heq : el.id = el'.id) :
    el = el' :=
  inj_on_of_nodup_map h hmem hmem' heq

theorem distinct_append : Distinct (els ++ els') ↔
      Distinct els ∧ Distinct els' ∧ ∀ el ∈ els, ∀ el' ∈ els', el.id ≠ el'.id := by
  unfold Distinct
  rw [map_append, nodup_append]
  refine and_congr_right fun _ => and_congr_right fun _ => ⟨?_, ?_⟩
  · exact fun h el hmem el' hmem' => h _ (mem_map_of_mem hmem) _ (mem_map_of_mem hmem')
  intro h a ha b hb
  obtain ⟨el, hmem, rfl⟩ := mem_map.mp ha
  obtain ⟨el', hmem', rfl⟩ := mem_map.mp hb
  exact h el hmem el' hmem'

structure Without (els : List InstanceElement) (objID : String) (els' : List InstanceElement) :
    Prop where
  distinct : Distinct els → Distinct els'
  mem_iff : Distinct els → ∀ el, el ∈ els' ↔ el ∈ els ∧ el.id ≠ objID

theorem Without.of_perm_cons (hperm : els.Perm (el :: els')) : Without els el.id els' := by
  have hcons (h : Distinct els) : Distinct (el :: els') := (hperm.map _).nodup_iff.mp h
  refine ⟨fun h => (nodup_cons.mp (hcons h)).2, fun h el' => ?_⟩
  have hnot := (nodup_cons.mp (hcons h)).1
  rw [hperm.mem_iff, mem_cons]
  constructor
  · exact fun hmem => ⟨.inr hmem, fun heq => hnot (heq ▸ mem_map_of_mem hmem)⟩
  rintro ⟨rfl | hmem, hne⟩
  · exact absurd rfl hne
  · exact hmem

theorem Without.of_absent (habsent : ∀ el ∈ els, el.id ≠ objID) : Without els objID els :=
  ⟨fun h => h, fun _ el => ⟨fun hmem => ⟨hmem, habsent el hmem⟩, fun h => h.1⟩⟩

/-! ## One queue -/

namespace HealthyQueue

variable {h : HealthyQueue} {kind : SchedulerKind} {updating : Bool} {el : InstanceElement}
  {objID : String}

def Keyed (h : HealthyQueue) : Prop := ∀ item ∈ h.queue, item.objID = item.obj.id

theorem elements_pushBack : (h.pushBack kind updating el).elements.Perm (el :: h.elements) := by
  unfold pushBack elements
  split
  · rw [← append_assoc]
    exact perm_append_singleton _ _
  · exact (push_perm.map _).append_right _

theorem Keyed.pushBack (hkeyed : h.Keyed) : (h.pushBack kind updating el).Keyed := by
  unfold HealthyQueue.pushBack
  split
  · exact hkeyed
  intro item hmem
  rcases mem_cons.mp (push_perm.mem_iff.mp hmem) with rfl | hmem
  · rfl
  · exact hkeyed item hmem

theorem Keyed.remove (hkeyed : h.Keyed) : ({ h with queue := h.queue.remove i } : HealthyQueue).Keyed :=
  fun item hmem => hkeyed item (mem_of_mem_remove hmem)

theorem elements_remove (hi : i < h.queue.length) :
    h.elements.Perm (h.queue[i].obj :: ({ h with queue := h.queue.remove i } : HealthyQueue).elements) :=
  ((perm_cons_remove hi).map _).append_right _

theorem Keyed.delByID (hkeyed : h.Keyed) : (h.delByID objID).Keyed := by
  unfold HealthyQueue.delByID
  split
  · exact hkeyed.remove
  · exact hkeyed

theorem without_delByID (hkeyed : h.Keyed) : Without h.elements objID (h.delByID objID).elements := by
  unfold delByID
  split
  case h_1 i hindex =>
    obtain ⟨hlt, heq, -⟩ := findIdx?_eq_some_iff_getElem.mp hindex
    have hid : h.queue[i].obj.id = objID := by
      rw [← hkeyed _ (getElem_mem hlt)]
      exact of_decide_eq_true heq
    exact hid ▸ Without.of_perm_cons (elements_remove hlt)
  case h_2 hindex =>
    have hqueue : ∀ item ∈ h.queue, item.obj.id ≠ objID := by
      intro item hmem heq
      have hfalse := findIdx?_eq_none_iff.mp hindex item hmem
      rw [hkeyed item hmem, heq] at hfalse
      simp at hfalse
    by_cases hexists : ∃ el ∈ h.buffer, el.ins.instanceID = objID
    · obtain ⟨el, hmem, heq⟩ := hexists
      obtain ⟨el', l₁, l₂, -, heq', hbuffer, herase⟩ :=
        exists_of_eraseP (p := fun el => decide (el.ins.instanceID = objID)) hmem (by simpa using heq)
      have hid : el'.id = objID := of_decide_eq_true heq'
      rw [← hid]
      refine Without.of_perm_cons ?_
      simp only [hid]
      unfold elements
      rw [herase, hbuffer, ← append_assoc, ← append_assoc]
      exact perm_middle
    · have hsame : h.buffer.eraseP (fun el => decide (el.ins.instanceID = objID)) = h.buffer :=
        eraseP_of_forall_not fun el hmem heq => hexists ⟨el, hmem, of_decide_eq_true heq⟩
      rw [hsame]
      refine Without.of_absent fun el hmem heq => ?_
      rcases mem_append.mp hmem with hmem | hmem
      · obtain ⟨item, hitem, rfl⟩ := mem_map.mp hmem
        exact hqueue item hitem heq
      · exact hexists ⟨el, hmem, heq⟩

theorem getByID_eq_some (hkeyed : h.Keyed) (hget : h.getByID objID = some el) :
    el ∈ h.elements ∧ el.id = objID := by
  unfold getByID at hget
  split at hget
  case h_1 item hfind =>
    cases hget
    have hmem := mem_of_find?_eq_some hfind
    refine ⟨mem_append_left _ (mem_map_of_mem hmem), ?_⟩
    rw [← hkeyed item hmem]
    simpa using find?_some hfind
  case h_2 => exact ⟨mem_append_right _ (mem_of_find?_eq_some hget), by simpa using find?_some hget⟩

def Pops (h h' : HealthyQueue) : Prop :=
  h'.Keyed ∧ (h' = h ∨ ∃ el, h.elements.Perm (el :: h'.elements))

theorem pops_remove (hkeyed : h.Keyed) (hi : i < h.queue.length) :
    h.Pops { h with queue := h.queue.remove i } :=
  ⟨hkeyed.remove, .inr ⟨_, elements_remove hi⟩⟩

theorem pops_popFront (hkeyed : h.Keyed) : h.Pops h.popFront := by
  unfold popFront
  split
  case isTrue hne => exact pops_remove hkeyed (Nat.pos_of_ne_zero hne)
  refine ⟨hkeyed, ?_⟩
  cases hbuffer : h.buffer with
  | nil =>
    left
    rw [tail_nil, ← hbuffer]
  | cons el =>
    refine .inr ⟨el, ?_⟩
    unfold elements
    rw [hbuffer]
    exact perm_middle

theorem pops_popBack (hkeyed : h.Keyed) : h.Pops h.popBack := by
  unfold popBack
  split
  case isTrue hne =>
    apply pops_remove hkeyed
    unfold minIndex
    split
    · omega
    · split <;> omega
  refine ⟨hkeyed, ?_⟩
  rcases eq_nil_or_concat h.buffer with hbuffer | ⟨buffer, el, hbuffer⟩
  · left
    rw [hbuffer, dropLast_nil, ← hbuffer]
  refine .inr ⟨el, ?_⟩
  unfold elements
  rw [hbuffer, concat_eq_append, dropLast_concat, ← append_assoc]
  exact perm_append_singleton _ _

end HealthyQueue

abbrev recordElements (record : FinMap String InstanceElement) : List InstanceElement :=
  record.entries.map Sigma.snd

def RecordKeyed (record : FinMap String InstanceElement) : Prop :=
  ∀ objID el, record.lookup objID = some el → el.id = objID

variable {el : InstanceElement} {objID : String}
  {els : List InstanceElement} {q' : InstanceQueue}

theorem mem_recordElements : el ∈ recordElements record ↔ ∃ objID, record.lookup objID = some el := by
  constructor
  · intro hmem
    obtain ⟨⟨objID, el⟩, hentry, rfl⟩ := mem_map.mp hmem
    exact ⟨objID, mem_entries_iff.mp hentry⟩
  · rintro ⟨objID, hlookup⟩
    exact mem_map.mpr ⟨⟨objID, el⟩, mem_entries_iff.mpr hlookup, rfl⟩

theorem RecordKeyed.erase (hkeyed : RecordKeyed record) : RecordKeyed (record.erase objID) :=
  fun objID' el hlookup => hkeyed objID' el (lookup_of_erase hlookup)

theorem RecordKeyed.insert (hkeyed : RecordKeyed record) : RecordKeyed (record.insert el.id el) := by
  refine forall_lookup_insert ?_ fun objID el' hlookup => ?_
  · rfl
  · exact hkeyed objID el' hlookup

theorem without_erase (hkeyed : RecordKeyed record) :
    Without (recordElements record) objID (recordElements (record.erase objID)) := by
  refine ⟨fun h => h.of_sublist (List.Perm.refl _) ((kerase_sublist _ _).map _), fun _ el => ?_⟩
  rw [mem_recordElements, mem_recordElements]
  constructor
  · rintro ⟨objID', hlookup⟩
    have hold := lookup_of_erase hlookup
    refine ⟨⟨objID', hold⟩, fun heq => ?_⟩
    rw [hkeyed objID' el hold] at heq
    exact ne_of_lookup_erase hlookup heq
  · rintro ⟨⟨objID', hlookup⟩, hne⟩
    rw [hkeyed objID' el hlookup] at hne
    exact ⟨objID', by rw [lookup_erase_ne hne, hlookup]⟩

theorem recordElements_insert (habsent : record.lookup el.id = none) :
    recordElements (record.insert el.id el) = el :: recordElements record := by
  unfold recordElements
  rw [entries_insert_of_notMem (lookup_eq_none.mp habsent), map_cons]

theorem Without.append (h : Without els objID els') (h₁ : Without els₁ objID els₁') :
    Without (els ++ els₁) objID (els' ++ els₁') := by
  constructor
  · intro hd
    obtain ⟨hdl, hdr, hne⟩ := distinct_append.mp hd
    refine distinct_append.mpr ⟨h.distinct hdl, h₁.distinct hdr, fun el hmem el' hmem' => ?_⟩
    exact hne el ((h.mem_iff hdl el).mp hmem).1 el' ((h₁.mem_iff hdr el').mp hmem').1
  · intro hd el
    obtain ⟨hdl, hdr, -⟩ := distinct_append.mp hd
    rw [mem_append, mem_append, h.mem_iff hdl, h₁.mem_iff hdr, or_and_right]

namespace InstanceQueue

variable {q : InstanceQueue} {kind : SchedulerKind} {updating : Bool} {el : InstanceElement}
  {objID : String}

/-- Everything stands under its own ID, once, and only evictions are being evicted. -/
structure Keyed (q : InstanceQueue) : Prop where
  healthy : q.instanceQueue.Keyed
  subHealth : RecordKeyed q.subHealthRecord
  evicting : RecordKeyed q.evictingRecord
  active : ∀ el ∈ q.instanceQueue.elements ++ recordElements q.subHealthRecord, ¬ el.Evicting
  distinct : Distinct q.instances

theorem getByID_some (hkeyed : q.Keyed) (hget : q.getByID objID = some el) :
    el ∈ q.instances ∧ el.id = objID := by
  unfold getByID at hget
  split at hget
  case h_1 el' hlookup =>
    cases hget
    exact ⟨mem_append_left _ (mem_append_right _ (mem_recordElements.mpr ⟨objID, hlookup⟩)),
      hkeyed.subHealth objID _ hlookup⟩
  case h_2 =>
    split at hget
    case h_1 el' hlookup =>
      cases hget
      exact ⟨mem_append_right _ (mem_recordElements.mpr ⟨objID, hlookup⟩), hkeyed.evicting objID _ hlookup⟩
    case h_2 =>
      obtain ⟨hmem, hid⟩ := getByID_eq_some hkeyed.healthy hget
      exact ⟨mem_append_left _ (mem_append_left _ hmem), hid⟩

theorem getByID_none (hkeyed : q.Keyed) (hget : q.getByID objID = none) :
    ∀ el ∈ q.instances, el.id ≠ objID := by
  unfold getByID at hget
  split at hget
  case h_1 => cases hget
  rename_i hsub
  split at hget
  case h_1 => cases hget
  rename_i hevicting
  intro el hmem heq
  rcases mem_append.mp hmem with hmem | hmem
  · rcases mem_append.mp hmem with hmem | hmem
    · unfold HealthyQueue.getByID at hget
      split at hget
      case h_1 => cases hget
      rename_i hfind
      rcases mem_append.mp hmem with hmem | hmem
      · obtain ⟨item, hitem, rfl⟩ := mem_map.mp hmem
        have hfalse := find?_eq_none.mp hfind item hitem
        rw [hkeyed.healthy item hitem, heq] at hfalse
        simp at hfalse
      · exact find?_eq_none.mp hget el hmem (by simpa using heq)
    · obtain ⟨objID', hlookup⟩ := mem_recordElements.mp hmem
      rw [← hkeyed.subHealth objID' el hlookup, heq, hsub] at hlookup
      cases hlookup
  · obtain ⟨objID', hlookup⟩ := mem_recordElements.mp hmem
    rw [← hkeyed.evicting objID' el hlookup, heq, hevicting] at hlookup
    cases hlookup

def Has (q : InstanceQueue) (objID : String) : Prop := ∃ el ∈ q.instances, el.id = objID

section

variable (hkeyed : q.Keyed)
include hkeyed

theorem has_iff_getByID : q.Has objID ↔ (q.getByID objID).isSome = true := by
  cases hget : q.getByID objID with
  | none =>
    refine ⟨?_, nofun⟩
    rintro ⟨el, hmem, hid⟩
    exact absurd hid (getByID_none hkeyed hget el hmem)
  | some el =>
    obtain ⟨hmem, hid⟩ := getByID_some hkeyed hget
    exact ⟨fun _ => rfl, fun _ => ⟨el, hmem, hid⟩⟩

theorem without_remove : Without q.instances objID (q.remove objID).instances :=
  ((without_delByID hkeyed.healthy).append (without_erase hkeyed.subHealth)).append
    (without_erase hkeyed.evicting)

theorem Keyed.remove : (q.remove objID).Keyed where
  healthy := hkeyed.healthy.delByID
  subHealth := hkeyed.subHealth.erase
  evicting := hkeyed.evicting.erase
  active := by
    have hdistinct : Distinct (q.instanceQueue.elements ++ recordElements q.subHealthRecord) :=
      hkeyed.distinct.of_sublist (List.Perm.refl _) (sublist_append_left _ _)
    have hwithout : Without (q.instanceQueue.elements ++ recordElements q.subHealthRecord) objID
        ((q.remove objID).instanceQueue.elements ++ recordElements (q.remove objID).subHealthRecord) :=
      (without_delByID hkeyed.healthy).append (without_erase hkeyed.subHealth)
    exact fun el hmem => hkeyed.active el ((hwithout.mem_iff hdistinct el).mp hmem).1
  distinct := (without_remove hkeyed).distinct hkeyed.distinct

theorem Keyed.active_of_perm (hel : ¬ el.Evicting)
    (hperm : els.Perm (el :: (q.instanceQueue.elements ++ recordElements q.subHealthRecord))) :
    ∀ el' ∈ els, ¬ el'.Evicting := by
  intro el' hmem
  rcases mem_cons.mp (hperm.mem_iff.mp hmem) with rfl | hmem
  · exact hel
  · exact hkeyed.active el' hmem

theorem file_cases (habsent : ∀ el' ∈ q.instances, el'.id ≠ el.id) :
    ((q.file kind updating el.id el).1.Keyed ∧ (q.file kind updating el.id el).2 = none ∧
      (q.file kind updating el.id el).1.instances.Perm (el :: q.instances)) ∨
    (q.file kind updating el.id el = (q, some .internal) ∧ ¬ el.Evicting) := by
  have hdistinct : Distinct (el :: q.instances) := by
    refine nodup_cons.mpr ⟨fun hmem => ?_, hkeyed.distinct⟩
    obtain ⟨el', hmem', heq⟩ := mem_map.mp hmem
    exact habsent el' hmem' heq
  have hdone {q' : InstanceQueue} (hperm : q'.instances.Perm (el :: q.instances)) :
      Distinct q'.instances := (hperm.map _).nodup_iff.mpr hdistinct
  have hnone {record : FinMap String InstanceElement} (hrecord : RecordKeyed record)
      (hsub : ∀ el' ∈ recordElements record, el' ∈ q.instances) : record.lookup el.id = none := by
    cases hlookup : record.lookup el.id with
    | none => rfl
    | some el' =>
      have hmem := hsub el' (mem_recordElements.mpr ⟨_, hlookup⟩)
      exact absurd (hrecord _ _ hlookup) (habsent el' hmem)
  unfold file
  split
  case isTrue hrunning =>
    have hactive := (@elements_pushBack q.instanceQueue kind updating el).append_right
      (recordElements q.subHealthRecord)
    have hperm : instances { q with
          instanceQueue := q.instanceQueue.pushBack kind updating el } |>.Perm (el :: q.instances) :=
      hactive.append_right _
    refine .inl ⟨⟨hkeyed.healthy.pushBack, hkeyed.subHealth, hkeyed.evicting,
      hkeyed.active_of_perm ?_ hactive, hdone hperm⟩, rfl, hperm⟩
    unfold InstanceElement.Evicting
    rw [hrunning]
    decide
  · split
    case isTrue hsub =>
      have hinsert := recordElements_insert (hnone hkeyed.subHealth fun el' hmem =>
        mem_append_left _ (mem_append_right _ hmem))
      have hactive : (q.instanceQueue.elements ++ recordElements (q.subHealthRecord.insert el.id el)).Perm
          (el :: (q.instanceQueue.elements ++ recordElements q.subHealthRecord)) := by
        rw [hinsert]
        exact perm_middle
      have hperm : instances { q with
            subHealthRecord := q.subHealthRecord.insert el.id el } |>.Perm (el :: q.instances) :=
        hactive.append_right _
      refine .inl ⟨⟨hkeyed.healthy, hkeyed.subHealth.insert, hkeyed.evicting,
        hkeyed.active_of_perm ?_ hactive, hdone hperm⟩, rfl, hperm⟩
      unfold InstanceElement.Evicting
      rw [hsub]
      decide
    · split
      case isTrue =>
        have hinsert := recordElements_insert (hnone hkeyed.evicting fun el' hmem => mem_append_right _ hmem)
        have hperm : instances { q with
              evictingRecord := q.evictingRecord.insert el.id el } |>.Perm (el :: q.instances) := by
          unfold instances
          simp only [hinsert]
          exact perm_middle
        exact .inl ⟨⟨hkeyed.healthy, hkeyed.subHealth, hkeyed.evicting.insert, hkeyed.active,
          hdone hperm⟩, rfl, hperm⟩
      case isFalse hnot => exact .inr ⟨rfl, hnot⟩

theorem pushBack_cases : ((q.pushBack kind updating el).1.Keyed ∧ ¬ q.Has el.id ∧
      (q.pushBack kind updating el).1.instances.Perm (el :: q.instances)) ∨
    ((q.pushBack kind updating el).1 = q ∧ (q.Has el.id ∨ ¬ el.Evicting)) := by
  unfold pushBack
  split
  case isTrue hsome => exact .inr ⟨rfl, .inl ((has_iff_getByID hkeyed).mpr hsome)⟩
  rename_i hnone
  have hnot : ¬ q.Has el.id := fun hhas => hnone ((has_iff_getByID hkeyed).mp hhas)
  rcases file_cases hkeyed
      (fun el' hmem heq => hnot ⟨el', hmem, heq⟩) with ⟨hkeyed', -, hperm⟩ | ⟨heq, hevicting⟩
  · exact .inl ⟨hkeyed', hnot, hperm⟩
  · exact .inr ⟨congrArg Prod.fst heq, .inr hevicting⟩

end

structure Touches (q : InstanceQueue) (objID : String) (q' : InstanceQueue) : Prop where
  keyed : q'.Keyed
  frame : ∀ el, el.id ≠ objID → (el ∈ q'.instances ↔ el ∈ q.instances)

structure Drops (q : InstanceQueue) (objID : String) (q' : InstanceQueue) : Prop
    extends Touches q objID q' where
  gone : ¬ q'.Has objID

theorem Keyed.touches (hkeyed : q.Keyed) : q.Touches objID q := ⟨hkeyed, fun _ _ => Iff.rfl⟩

theorem touches_of_perm (hkeyed' : q'.Keyed)
    (hperm : q'.instances.Perm (el :: q.instances)) : q.Touches el.id q' := by
  refine ⟨hkeyed', fun el' hne => ?_⟩
  rw [hperm.mem_iff, mem_cons]
  exact ⟨fun h => h.resolve_left fun heq => hne (heq ▸ rfl), .inr⟩

theorem drops_of_without (hkeyed : q.Keyed) (hkeyed' : q'.Keyed)
    (hwithout : Without q.instances objID q'.instances) : q.Drops objID q' := by
  have hmem := hwithout.mem_iff hkeyed.distinct
  refine ⟨⟨hkeyed', fun el hne => ?_⟩, ?_⟩
  · rw [hmem el]
    exact ⟨fun h => h.1, fun h => ⟨h, hne⟩⟩
  · rintro ⟨el, hel, hid⟩
    exact ((hmem el).mp hel).2 hid

theorem drops_remove (hkeyed : q.Keyed) : q.Drops objID (q.remove objID) :=
  drops_of_without hkeyed hkeyed.remove (without_remove hkeyed)

theorem touches_pushBack (hkeyed : q.Keyed) : q.Touches el.id (q.pushBack kind updating el).1 := by
  rcases pushBack_cases hkeyed with
    ⟨hkeyed', -, hperm⟩ | ⟨heq, -⟩
  · exact touches_of_perm hkeyed' hperm
  · rw [heq]
    exact hkeyed.touches

theorem updateObjByID_cases (hkeyed : q.Keyed) (hhas : q.Has el.id) :
    q.Touches el.id (q.updateObjByID kind updating el.id el).1 ∧
      (∀ el' ∈ (q.updateObjByID kind updating el.id el).1.instances, el'.id = el.id → el' = el) ∧
      (el.Evicting → (q.updateObjByID kind updating el.id el).1.Has el.id) := by
  have hsome := (has_iff_getByID hkeyed).mp hhas
  have habsent : ∀ el' ∈ (q.remove el.id).instances, el'.id ≠ el.id :=
    fun el' hmem heq => (drops_remove hkeyed).gone ⟨el', hmem, heq⟩
  unfold updateObjByID
  rw [if_neg (by simp [isNone_iff_eq_none, isSome_iff_ne_none.mp hsome])]
  rcases file_cases hkeyed.remove habsent with
    ⟨hkeyed', -, hperm⟩ | ⟨heq, hevicting⟩
  · refine ⟨⟨hkeyed', fun el' hne => ?_⟩, fun el' hmem hid => ?_, fun _ => ?_⟩
    · rw [(touches_of_perm hkeyed' hperm).frame el' hne, (drops_remove hkeyed).frame el' hne]
    · rcases mem_cons.mp (hperm.mem_iff.mp hmem) with rfl | hmem
      · rfl
      · exact absurd hid (habsent el' hmem)
    · exact ⟨el, hperm.mem_iff.mpr mem_cons_self, rfl⟩
  · rw [heq]
    exact ⟨(drops_remove hkeyed).toTouches, fun el' hmem hid => absurd hid (habsent el' hmem),
      fun h => absurd h hevicting⟩

theorem drops_erase_evicting (hkeyed : q.Keyed) (hsome : (q.evictingRecord.lookup objID).isSome = true) :
    q.Drops objID { q with evictingRecord := q.evictingRecord.erase objID } := by
  obtain ⟨el₀, hlookup⟩ := isSome_iff_exists.mp hsome
  have habsent : ∀ el ∈ q.instanceQueue.elements ++ recordElements q.subHealthRecord, el.id ≠ objID := by
    intro el hmem
    rw [← hkeyed.evicting objID el₀ hlookup]
    exact (distinct_append.mp hkeyed.distinct).2.2 el hmem el₀ (mem_recordElements.mpr ⟨objID, hlookup⟩)
  have hwithout : Without q.instances objID
      (instances { q with evictingRecord := q.evictingRecord.erase objID }) :=
    (Without.of_absent habsent).append (without_erase hkeyed.evicting)
  exact drops_of_without hkeyed ⟨hkeyed.healthy, hkeyed.subHealth, hkeyed.evicting.erase,
    hkeyed.active, hwithout.distinct hkeyed.distinct⟩ hwithout

theorem drops_delByID (isSelf : Bool) (hkeyed : q.Keyed) :
    q.Drops objID (Queues.delByID isSelf q objID).1 := by
  have hplain : q.Drops objID (q.delByID objID).1 := by
    unfold delByID
    split
    case isTrue hnone =>
      refine ⟨hkeyed.touches, fun hhas => ?_⟩
      have hsome := (has_iff_getByID hkeyed).mp hhas
      rw [isNone_iff_eq_none.mp hnone] at hsome
      cases hsome
    case isFalse => exact drops_remove hkeyed
  unfold Queues.delByID
  split
  · unfold delByIDObserved
    split
    case isTrue hevicting => exact drops_erase_evicting hkeyed hevicting
    case isFalse => exact hplain
  · exact hplain

def Pops (q q' : InstanceQueue) : Prop :=
  q' = q ∨ ∃ el ∈ q.instances, ¬ el.Evicting ∧ q.Drops el.id q'

theorem pops_popInstanceElement {force : Bool} {pick : Nat} (hkeyed : q.Keyed) :
    q.Pops (q.popInstanceElement kind force pick) := by
  obtain ⟨hqueue, hsub⟩ := forall_mem_append.mp hkeyed.active
  have hhealthy {h' : HealthyQueue} (hpops : q.instanceQueue.Pops h') :
      q.Pops { q with instanceQueue := h' } := by
    obtain ⟨hkeyed', rfl | ⟨el, hperm⟩⟩ := hpops
    · exact .inl rfl
    have hall : q.instances.Perm (el :: instances { q with instanceQueue := h' }) :=
      (hperm.append_right _).append_right _
    have hwithout := Without.of_perm_cons hall
    have hmem : el ∈ q.instanceQueue.elements := hperm.mem_iff.mpr mem_cons_self
    refine .inr ⟨el, hall.mem_iff.mpr mem_cons_self,
      hqueue el hmem, drops_of_without hkeyed ?_ hwithout⟩
    refine ⟨hkeyed', hkeyed.subHealth, hkeyed.evicting,
      forall_mem_append.mpr ⟨fun el' hmem' => ?_, hsub⟩, hwithout.distinct hkeyed.distinct⟩
    exact hqueue el' (hperm.mem_iff.mpr (mem_cons_of_mem _ hmem'))
  unfold popInstanceElement
  split
  case h_1 objID hpick =>
    obtain ⟨el, hlookup⟩ := lookup_of_pick hpick
    have hmem : el ∈ recordElements q.subHealthRecord := mem_recordElements.mpr ⟨objID, hlookup⟩
    have hid := hkeyed.subHealth objID el hlookup
    obtain ⟨hactive, -, hevicting⟩ := distinct_append.mp hkeyed.distinct
    have hwithout : Without q.instances objID
        (instances { q with subHealthRecord := q.subHealthRecord.erase objID }) := by
      refine ((Without.of_absent fun el' hmem' => ?_).append (without_erase hkeyed.subHealth)).append
        (Without.of_absent fun el' hmem' heq => ?_)
      · rw [← hid]
        exact (distinct_append.mp hactive).2.2 el' hmem' el hmem
      · exact hevicting el (mem_append_right _ hmem) el' hmem' (hid.trans heq.symm)
    refine .inr ⟨el, mem_append_left _ (mem_append_right _ hmem), hsub el hmem, ?_⟩
    rw [hid]
    refine drops_of_without hkeyed ⟨hkeyed.healthy, hkeyed.subHealth.erase, hkeyed.evicting,
      forall_mem_append.mpr ⟨hqueue, fun el' hmem' => ?_⟩, hwithout.distinct hkeyed.distinct⟩ hwithout
    have hold := ((without_erase hkeyed.subHealth).mem_iff (distinct_append.mp hactive).2.1 el').mp hmem'
    exact hsub el' hold.1
  case h_2 =>
    split
    · exact hhealthy (pops_popFront hkeyed.healthy)
    split
    · exact hhealthy (pops_popBack hkeyed.healthy)
    · exact .inl rfl

end InstanceQueue

/-! ## Two queues -/

namespace Queues

variable {m : Membership} {kind : SchedulerKind} {updating : Bool} {s : Queues} {b : Bool}
  {q : InstanceQueue}

@[simp] theorem queue_setQueue_same : (s.setQueue b q).queue b = q := by
  cases b <;> rfl

@[simp] theorem queue_setQueue_not : (s.setQueue b q).queue (!b) = s.queue (!b) := by
  cases b <;> rfl

@[simp] theorem isFuncOwner_setQueue : (s.setQueue b q).isFuncOwner = s.isFuncOwner := by
  cases b <;> rfl

/-- An instance that is not being evicted is on the side that the ownership decides and no other. -/
structure Placed (m : Membership) (s : Queues) : Prop where
  keyed : ∀ b, (s.queue b).Keyed
  active : ∀ b, ∀ el ∈ (s.queue b).instances, ¬ el.Evicting →
    m.checkSelfInstance s.isFuncOwner el.id = b ∧ ¬ (s.queue (!b)).Has el.id
  held : ∀ b id, (s.queue b).Has id → (s.queue (m.checkSelfInstance s.isFuncOwner id)).Has id

variable {id : String}

/-- One queue changes at one ID, on its side. The other side has the ID only as being evicted. -/
theorem Placed.change (hplaced : s.Placed m)
    (hside : m.checkSelfInstance s.isFuncOwner id = b) (htouches : (s.queue b).Touches id q)
    (hboth : (s.queue (!b)).Has id → q.Has id ∧ ∀ el ∈ q.instances, el.id = id → el.Evicting) :
    (s.setQueue b q).Placed m := by
  have hframe : ∀ b' el, el.id ≠ id →
      (el ∈ ((s.setQueue b q).queue b').instances ↔ el ∈ (s.queue b').instances) := by
    intro b' el hne
    rcases Bool.eq_or_eq_not b' b with rfl | rfl
    · rw [queue_setQueue_same]
      exact htouches.frame el hne
    · rw [queue_setQueue_not]
  have hhas : ∀ b' id', id' ≠ id → (((s.setQueue b q).queue b').Has id' ↔ (s.queue b').Has id') := by
    intro b' id' hne
    refine exists_congr fun el => and_congr_left ?_
    rintro rfl
    exact hframe b' el hne
  constructor
  · intro b'
    rcases Bool.eq_or_eq_not b' b with rfl | rfl
    · rw [queue_setQueue_same]
      exact htouches.keyed
    · rw [queue_setQueue_not]
      exact hplaced.keyed _
  · intro b' el hmem hactive
    rw [isFuncOwner_setQueue]
    by_cases hid : el.id = id
    · rcases Bool.eq_or_eq_not b' b with rfl | rfl
      · rw [queue_setQueue_same] at hmem
        rw [queue_setQueue_not]
        exact ⟨hid ▸ hside, fun hother => hactive ((hboth (hid ▸ hother)).2 el hmem hid)⟩
      · rw [queue_setQueue_not] at hmem
        have hcheck := (hplaced.active _ el hmem hactive).1
        rw [hid, hside] at hcheck
        simp at hcheck
    · rw [hframe b' el hid] at hmem
      rw [hhas _ _ hid]
      exact hplaced.active b' el hmem hactive
  · intro b' id' hthere
    rw [isFuncOwner_setQueue]
    by_cases hid : id' = id
    · subst hid
      rw [hside, queue_setQueue_same]
      rcases Bool.eq_or_eq_not b' b with rfl | rfl
      · rwa [queue_setQueue_same] at hthere
      · rw [queue_setQueue_not] at hthere
        exact (hboth hthere).1
    · rw [hhas _ _ hid] at hthere ⊢
      exact hplaced.held b' id' hthere

variable {el : InstanceElement}

section

variable (hplaced : s.Placed m)
include hplaced

theorem Placed.pushBack (hside : m.checkSelfInstance s.isFuncOwner el.id = b) :
    (s.setQueue b ((s.queue b).pushBack kind updating el).1).Placed m := by
  refine hplaced.change hside (touches_pushBack (hplaced.keyed b)) fun hother => ?_
  have hhas : (s.queue b).Has el.id := hside ▸ hplaced.held _ _ hother
  rcases pushBack_cases (hplaced.keyed b) with ⟨-, hnot, -⟩ | ⟨heq, -⟩
  · exact absurd hhas hnot
  rw [heq]
  refine ⟨hhas, fun el' hmem hid => ?_⟩
  by_contra hactive
  exact (hplaced.active _ el' hmem hactive).2 (hid ▸ hother)

theorem Placed.handleInstanceUpdate
    (hevicting : (s.queue (!m.checkSelfInstance s.isFuncOwner ins.instanceID)).Has ins.instanceID →
      ins.statusCode = kernelInstanceStatusEvicting) :
    (s.handleInstanceUpdate m kind updating s.isFuncOwner ins isNewInstance
      isPriorityAZ).1.Placed m := by
  unfold Queues.handleInstanceUpdate InstanceQueue.handleInstanceUpdate
  simp only
  split
  case h_1 => exact hplaced.pushBack rfl
  rename_i el hget
  obtain ⟨hmem, hid⟩ := InstanceQueue.getByID_some (hplaced.keyed _) hget
  obtain ⟨htouches, honly, hthere⟩ := @InstanceQueue.updateObjByID_cases _ kind updating
    { el with ins, isNewInstance, isPriorityAZ } (hplaced.keyed _) ⟨el, hmem, hid⟩
  refine hplaced.change rfl htouches fun hother => ?_
  have hstatus := hevicting hother
  refine ⟨hthere hstatus, fun el' hmem' hid' => ?_⟩
  rw [honly el' hmem' hid']
  exact hstatus

theorem Placed.delInstance
    (hsole : ¬ (s.queue (!m.checkSelfInstance s.isFuncOwner instanceID)).Has instanceID) :
    (s.delInstance m instanceID).1.Placed m ∧
      ∀ b, ¬ ((s.delInstance m instanceID).1.queue b).Has instanceID := by
  obtain ⟨htouches, hgone⟩ := @drops_delByID _ instanceID
    (m.checkSelfInstance s.isFuncOwner instanceID) (hplaced.keyed _)
  refine ⟨hplaced.change rfl htouches fun hother => absurd hother hsole, fun b => ?_⟩
  unfold Queues.delInstance
  by_cases hb : b = m.checkSelfInstance s.isFuncOwner instanceID
  · rw [hb, queue_setQueue_same]
    exact hgone
  · rw [Bool.eq_not.mpr hb, queue_setQueue_not]
    exact hsole

theorem Placed.popInstance {force : Bool} {pick : Nat} :
    (s.popInstance kind force pick).Placed m := by
  rcases @pops_popInstanceElement _ kind force pick (hplaced.keyed true) with
    hsame | ⟨el, hmem, hactive, hdrops⟩
  · have heq : s.popInstance kind force pick = s := by
      change { s with selfInstanceQueue := (s.queue true).popInstanceElement kind force pick } = s
      rw [hsame]
      rfl
    rw [heq]
    exact hplaced
  · obtain ⟨hside, hnot⟩ := hplaced.active true el hmem hactive
    exact hplaced.change hside hdrops.toTouches fun hother => absurd hother hnot

end

/-! ## A change of the ownership -/

variable {isFuncOwner toSelf o : Bool}

theorem pushReassigned_cases : ∀ {dst : InstanceQueue}, dst.Keyed →
      (pushReassigned m kind updating isFuncOwner toSelf els dst).Keyed ∧
        (∀ el ∈ dst.instances,
          el ∈ (pushReassigned m kind updating isFuncOwner toSelf els dst).instances) ∧
        (∀ el ∈ (pushReassigned m kind updating isFuncOwner toSelf els dst).instances,
          el ∈ dst.instances ∨ (el ∈ els ∧ (el.Evicting ∨ reassigned m isFuncOwner toSelf el = true))) ∧
        ∀ el ∈ els, el.Evicting →
          (pushReassigned m kind updating isFuncOwner toSelf els dst).Has el.id := by
  induction els with
  | nil =>
    intro dst hkeyed
    exact ⟨hkeyed, fun _ h => h, fun _ h => .inl h, nofun⟩
  | cons el _ ih =>
    intro dst hkeyed
    unfold pushReassigned
    rw [foldl_cons]
    split
    case isTrue hmoves =>
      have hkeyed₁ := (@touches_pushBack _ kind updating el hkeyed).keyed
      obtain ⟨hkeyed', hkept, hfrom, hthere⟩ := ih hkeyed₁
      rcases pushBack_cases hkeyed with ⟨-, -, hperm⟩ | ⟨hsame, hrefused⟩
      · refine ⟨hkeyed', fun el' hmem => ?_, fun el' hmem => ?_, fun el' hmem hevicting => ?_⟩
        · exact hkept el' (hperm.mem_iff.mpr (mem_cons_of_mem _ hmem))
        · rcases hfrom el' hmem with hmem | hmem
          · rcases mem_cons.mp (hperm.mem_iff.mp hmem) with rfl | hmem
            · exact .inr ⟨mem_cons_self, hmoves⟩
            · exact .inl hmem
          · exact .inr ⟨mem_cons_of_mem _ hmem.1, hmem.2⟩
        · rcases mem_cons.mp hmem with rfl | hmem
          · exact ⟨el', hkept el' (hperm.mem_iff.mpr mem_cons_self), rfl⟩
          · exact hthere el' hmem hevicting
      · rw [hsame] at hkeyed' hkept hfrom hthere ⊢
        refine ⟨hkeyed', hkept, fun el' hmem => ?_, fun el' hmem hevicting => ?_⟩
        · exact (hfrom el' hmem).imp_right fun h => ⟨mem_cons_of_mem _ h.1, h.2⟩
        rcases mem_cons.mp hmem with rfl | hmem
        · obtain ⟨el₀, hmem₀, hid⟩ := hrefused.resolve_right fun h => h hevicting
          exact ⟨el₀, hkept el₀ hmem₀, hid⟩
        · exact hthere el' hmem hevicting
    case isFalse hstays =>
      obtain ⟨hkeyed', hkept, hfrom, hthere⟩ := ih hkeyed
      refine ⟨hkeyed', hkept, fun el' hmem => ?_, fun el' hmem hevicting => ?_⟩
      · exact (hfrom el' hmem).imp_right fun h => ⟨mem_cons_of_mem _ h.1, h.2⟩
      rcases mem_cons.mp hmem with rfl | hmem
      · exact absurd (.inl hevicting) hstays
      · exact hthere el' hmem hevicting

theorem delAll_cases : ∀ {src : InstanceQueue}, src.Keyed → (delAll isSelf ids src).Keyed ∧
        ∀ el, el ∈ (delAll isSelf ids src).instances ↔ el ∈ src.instances ∧ el.id ∉ ids := by
  induction ids with
  | nil =>
    intro src hkeyed
    exact ⟨hkeyed, fun el => ⟨fun h => ⟨h, not_mem_nil⟩, fun h => h.1⟩⟩
  | cons objID _ ih =>
    intro src hkeyed
    obtain ⟨htouches, hgone⟩ := @drops_delByID _ objID isSelf hkeyed
    obtain ⟨hkeyed', hmem⟩ := ih htouches.keyed
    refine ⟨hkeyed', fun el => ?_⟩
    unfold delAll
    rw [foldl_cons, mem_cons, not_or]
    refine (hmem el).trans ?_
    by_cases hid : el.id = objID
    · exact ⟨fun h => absurd ⟨el, h.1, hid⟩ hgone, fun h => absurd hid h.2.1⟩
    · rw [htouches.frame el hid]
      exact ⟨fun h => ⟨h.1, hid, h.2⟩, fun h => ⟨h.1, h.2.2⟩⟩

theorem checkSelfInstance_change (h : m.checkSelfInstance (!o) id = o) : m.checkSelfInstance o id = o := by
  unfold Membership.checkSelfInstance at h ⊢
  cases o <;> split at h <;> simp_all

theorem reassigned_iff : reassigned m isFuncOwner toSelf el = true ↔
      ¬ el.Evicting ∧ m.checkSelfInstance isFuncOwner el.id = toSelf := by
  unfold reassigned InstanceElement.Evicting
  rw [Bool.and_eq_true, decide_eq_true_eq, beq_iff_eq]

theorem placed_of_reassigned {s' : Queues} (hplaced : s.Placed m) (howner : s.isFuncOwner = !o)
    (howner' : s'.isFuncOwner = o) (hkeyed : ∀ b, (s'.queue b).Keyed)
    (hkept : ∀ el ∈ (s.queue o).instances, el ∈ (s'.queue o).instances)
    (hfrom : ∀ el ∈ (s'.queue o).instances, el ∈ (s.queue o).instances ∨
      (el ∈ (s.queue (!o)).instances ∧ (el.Evicting ∨ reassigned m o o el = true)))
    (hthere : ∀ el ∈ (s.queue (!o)).instances, el.Evicting → (s'.queue o).Has el.id)
    (hmem : ∀ el, el ∈ (s'.queue (!o)).instances ↔ el ∈ (s.queue (!o)).instances ∧
      ¬ reassigned m o o el = true) :
    s'.Placed m := by
  -- an ID that now belongs to the source's side did so before
  have hback {id : String} (hnew : m.checkSelfInstance o id = !o) :
      m.checkSelfInstance s.isFuncOwner id = !o := by
    rw [howner]
    rcases Bool.eq_or_eq_not (m.checkSelfInstance (!o) id) o with heq | heq
    · rw [checkSelfInstance_change heq] at hnew
      simp at hnew
    · exact heq
  have hstays {el : InstanceElement} (hel : el ∈ (s.queue (!o)).instances)
      (hnew : m.checkSelfInstance o el.id = !o) : el ∈ (s'.queue (!o)).instances := by
    refine (hmem el).mpr ⟨hel, fun hmoves => ?_⟩
    rw [(reassigned_iff.mp hmoves).2] at hnew
    simp at hnew
  refine ⟨hkeyed, ?_, ?_⟩
  · intro b el hel hactive
    rw [howner']
    rcases b.eq_or_eq_not o with rfl | rfl
    · rcases hfrom el hel with hold | ⟨hold, hmoves⟩
      · obtain ⟨hcheck, hnot⟩ := hplaced.active _ el hold hactive
        rw [howner] at hcheck
        refine ⟨checkSelfInstance_change hcheck, ?_⟩
        rintro ⟨el', hel', hid⟩
        exact hnot ⟨el', ((hmem el').mp hel').1, hid⟩
      · have hmoved := hmoves.resolve_left hactive
        refine ⟨(reassigned_iff.mp hmoved).2, ?_⟩
        rintro ⟨el', hel', hid⟩
        obtain ⟨hsrc, hnot⟩ := (hmem el').mp hel'
        have heq := (hplaced.keyed _).distinct.eq_of_id_eq hsrc hold hid
        exact hnot (heq ▸ hmoved)
    · obtain ⟨hsrc, hnot⟩ := (hmem el).mp hel
      have hside : m.checkSelfInstance o el.id = !o := by
        rcases Bool.eq_or_eq_not (m.checkSelfInstance o el.id) o with heq | heq
        · exact absurd (reassigned_iff.mpr ⟨hactive, heq⟩) hnot
        · exact heq
      refine ⟨hside, ?_⟩
      rw [Bool.not_not]
      rintro ⟨el', hel', hid⟩
      rcases hfrom el' hel' with hold | ⟨hold, hmoves⟩
      · have hother := (hplaced.active _ el hsrc hactive).2
        rw [Bool.not_not] at hother
        exact hother ⟨el', hold, hid⟩
      · have heq := (hplaced.keyed _).distinct.eq_of_id_eq hold hsrc hid
        subst heq
        exact hmoves.elim hactive hnot
  · rintro b id ⟨el, hel, rfl⟩
    rw [howner']
    rcases Bool.eq_or_eq_not (m.checkSelfInstance o el.id) o with hnew | hnew
    · rw [hnew]
      rcases b.eq_or_eq_not o with rfl | rfl
      · exact ⟨el, hel, rfl⟩
      obtain ⟨hsrc, hnot⟩ := (hmem el).mp hel
      by_cases hevicting : el.Evicting
      · exact hthere el hsrc hevicting
      · exact absurd (reassigned_iff.mpr ⟨hevicting, hnew⟩) hnot
    · rw [hnew]
      rcases b.eq_or_eq_not o with rfl | rfl
      · rcases hfrom el hel with hold | ⟨hold, -⟩
        · obtain ⟨el', hel', hid⟩ := hback hnew ▸ hplaced.held _ el.id ⟨el, hold, rfl⟩
          exact ⟨el', hstays hel' (hid ▸ hnew), hid⟩
        · exact ⟨el, hstays hold hnew, rfl⟩
      · exact ⟨el, hel, rfl⟩

theorem Placed.handleFuncOwnerUpdate (hplaced : s.Placed m) :
    (s.handleFuncOwnerUpdate m kind updating o).Placed m := by
  unfold Queues.handleFuncOwnerUpdate
  split
  case isTrue => exact hplaced
  rename_i hne
  have howner : s.isFuncOwner = !o := Bool.eq_not.mpr hne
  obtain ⟨hdst, hkept, hfrom, hthere⟩ := @pushReassigned_cases (s.queue (!o)).instances m kind
    updating o o (s.queue o) (hplaced.keyed o)
  obtain ⟨hsrc, hmem⟩ := @delAll_cases (!o)
    (((s.queue (!o)).instances.filter (reassigned m o o)).map fun el => el.ins.instanceID)
    (s.queue (!o)) (hplaced.keyed (!o))
  have hmoved (el : InstanceElement) (hel : el ∈ (s.queue (!o)).instances) :
      el.id ∈ ((s.queue (!o)).instances.filter (reassigned m o o)).map
        (fun el => el.ins.instanceID) ↔ reassigned m o o el = true := by
    constructor
    · intro hid
      obtain ⟨el', hel', heq⟩ := mem_map.mp hid
      obtain ⟨hin, hmoves⟩ := mem_filter.mp hel'
      exact (hplaced.keyed _).distinct.eq_of_id_eq hin hel heq ▸ hmoves
    · exact fun hmoves => mem_map_of_mem (mem_filter.mpr ⟨hel, hmoves⟩)
  have hqueues (dst src : InstanceQueue) :
      (({ s with isFuncOwner := o }.setQueue o dst).setQueue (!o) src).queue o = dst ∧
        (({ s with isFuncOwner := o }.setQueue o dst).setQueue (!o) src).queue (!o) = src ∧
        (({ s with isFuncOwner := o }.setQueue o dst).setQueue (!o) src).isFuncOwner = o := by
    cases o <;> exact ⟨rfl, rfl, rfl⟩
  obtain ⟨hqdst, hqsrc, howner'⟩ := hqueues
    (pushReassigned m kind updating o o (s.queue (!o)).instances (s.queue o))
    (delAll (!o) (((s.queue (!o)).instances.filter (reassigned m o o)).map
      fun el => el.ins.instanceID) (s.queue (!o)))
  refine placed_of_reassigned hplaced howner howner' ?_ ?_ ?_ ?_ ?_
  · intro b
    rcases b.eq_or_eq_not o with rfl | rfl
    · rw [hqdst]
      exact hdst
    · rw [hqsrc]
      exact hsrc
  · rw [hqdst]
    exact hkept
  · rw [hqdst]
    exact hfrom
  · rw [hqdst]
    exact hthere
  · rw [hqsrc]
    intro el
    rw [hmem el]
    exact and_congr_right fun hel => not_congr (hmoved el hel)

/-! ## The result -/

/-- A deletion finds the instance on one side only, and an update does or leaves it being
evicted. -/
def oneSided (m : Membership) (s : Queues) (e : PlacementEvent) : Bool :=
  match e.operation with
  | .handleInstanceUpdate ownerSeen ins _ _ =>
    ownerSeen == s.isFuncOwner &&
      (decide (ins.statusCode = kernelInstanceStatusEvicting) ||
        ((s.queue (!m.checkSelfInstance s.isFuncOwner ins.instanceID)).getByID ins.instanceID).isNone)
  | .delInstance instanceID =>
    ((s.queue (!m.checkSelfInstance s.isFuncOwner instanceID)).getByID instanceID).isNone
  | _ => true

theorem not_has_of_isNone (hplaced : s.Placed m)
    (hnone : ((s.queue b).getByID id).isNone = true) : ¬ (s.queue b).Has id := by
  intro hhas
  have hsome := (has_iff_getByID (hplaced.keyed b)).mp hhas
  rw [isNone_iff_eq_none.mp hnone] at hsome
  cases hsome

theorem Placed.perform (hplaced : s.Placed m) (hone : oneSided m s e = true) :
    (s.perform m kind e).1.Placed m := by
  unfold Queues.perform
  unfold oneSided at hone
  cases hop : e.operation with
  | addInstance => exact hplaced.pushBack rfl
  | handleInstanceUpdate =>
    rw [hop] at hone
    simp only [Bool.and_eq_true, beq_iff_eq, Bool.or_eq_true, decide_eq_true_eq] at hone
    obtain ⟨rfl, hor⟩ := hone
    refine hplaced.handleInstanceUpdate fun hhas => ?_
    exact hor.resolve_right fun hnone => not_has_of_isNone hplaced hnone hhas
  | delInstance =>
    rw [hop] at hone
    exact (hplaced.delInstance (not_has_of_isNone hplaced hone)).1
  | popInstance => exact hplaced.popInstance
  | handleFuncOwnerUpdate => exact hplaced.handleFuncOwnerUpdate

theorem placed_of_reach (hrun : (placement m kind).Reach (fun s e => oneSided m s e = true) s) :
    s.Placed m := by
  refine hrun.invariant ?_ ?_
  · rintro s ⟨isFuncOwner, rfl⟩
    have hempty (b : Bool) : ({ isFuncOwner } : Queues).queue b = {} := by cases b <;> rfl
    refine ⟨fun b => ?_, fun b el hel => ?_, fun b id hhas => ?_⟩
    · rw [hempty]
      exact ⟨nofun, fun _ _ hlookup => (by cases hlookup), nofun, nofun, nodup_nil⟩
    · rw [hempty] at hel
      cases hel
    rw [hempty] at hhas
    obtain ⟨el, hel, -⟩ := hhas
    cases hel
  · intro s e s' l _ hone hplaced hstep
    obtain rfl : (s.perform m kind e).1 = s' := congrArg Prod.fst (some.inj hstep)
    exact hplaced.perform hone

theorem routeDesignateInstance_of_gone (hplaced : s.Placed m)
    (hgone : ∀ b, ¬ (s.queue b).Has id) : s.routeDesignateInstance id useSelfInstance = useSelfInstance := by
  have hself : ¬ (s.selfInstanceQueue.getByID id).isSome = true := fun hsome =>
    hgone true ((has_iff_getByID (hplaced.keyed true)).mpr hsome)
  have hother : ¬ (s.otherInstanceQueue.getByID id).isSome = true := fun hsome =>
    hgone false ((has_iff_getByID (hplaced.keyed false)).mpr hsome)
  unfold routeDesignateInstance
  split <;> rfl

end Queues

/-- In such runs an ID stands once in a queue, an instance not being evicted is where the ownership
decides, and a deleted one is in neither queue. -/
theorem instance_in_one_place {m : Membership} {kind : SchedulerKind} {s : Queues}
    (hrun : (placement m kind).Reach (fun s e => Queues.oneSided m s e = true) s) :
    (∀ b, ((s.queue b).instances.map fun el => el.ins.instanceID).Nodup) ∧
    (∀ b, ∀ el ∈ (s.queue b).instances, el.ins.statusCode ≠ kernelInstanceStatusEvicting →
      m.checkSelfInstance s.isFuncOwner el.ins.instanceID = b ∧
        ∀ el' ∈ (s.queue (!b)).instances, el'.ins.instanceID ≠ el.ins.instanceID) ∧
    ∀ instanceID, Queues.oneSided m s { operation := .delInstance instanceID } = true →
      (∀ b, ∀ el ∈ ((s.delInstance m instanceID).1.queue b).instances, el.ins.instanceID ≠ instanceID) ∧
      ∀ useSelfInstance,
        (s.delInstance m instanceID).1.routeDesignateInstance instanceID useSelfInstance =
          useSelfInstance := by
  have hplaced := Queues.placed_of_reach hrun
  refine ⟨fun b => (hplaced.keyed b).distinct, fun b el hel hactive => ?_, fun instanceID hone => ?_⟩
  · obtain ⟨hside, hnot⟩ := hplaced.active b el hel hactive
    exact ⟨hside, fun el' hel' hid => hnot ⟨el', hel', hid⟩⟩
  obtain ⟨hplaced', hgone⟩ := hplaced.delInstance (Queues.not_has_of_isNone hplaced hone)
  exact ⟨fun b el hel hid => hgone b ⟨el, hel, hid⟩,
    fun useSelfInstance => Queues.routeDesignateInstance_of_gone hplaced' hgone⟩

def noPermanent : Membership :=
  { schedulerProxyName := "scheduler", contains := fun _ => true, permanent := fun _ => false,
    createSchedulerID := fun _ => "" }

def addedAs (statusCode : Int) : Instance := { instanceID := "a", concurrentNum := 1, statusCode }

theorem instance_in_one_place_moved : ∃ s, (placement noPermanent .reserved).Reach
        (fun s e => Queues.oneSided noPermanent s e = true) s ∧
      s.isFuncOwner = false ∧ s.otherInstanceQueue.instances.length = 1 ∧
      (∀ b, ∀ el ∈ (s.queue b).instances, el.ins.statusCode ≠ kernelInstanceStatusEvicting →
        noPermanent.checkSelfInstance s.isFuncOwner el.ins.instanceID = b ∧
          ∀ el' ∈ (s.queue (!b)).instances, el'.ins.instanceID ≠ el.ins.instanceID) := by
  obtain ⟨s, hreach, howner, hlength⟩ := (placement noPermanent .reserved).reach_of_run
    (fun s e => Queues.oneSided noPermanent s e) ⟨true, rfl⟩
    [{ operation := .addInstance (addedAs kernelInstanceStatusRunning) false false },
      { operation := .handleFuncOwnerUpdate false }]
    (fun s => s.isFuncOwner = false ∧ s.otherInstanceQueue.instances.length = 1) (by decide +kernel)
  exact ⟨s, hreach, howner, hlength, (instance_in_one_place hreach).2.1⟩

/-- An instance being evicted at the change is in both queues, and is deleted from one only. -/
theorem deleted_instance_still_routed : ∃ s, (placement noPermanent .reserved).Reachable s ∧
      (s.delInstance noPermanent "a").2 = none ∧
      ((s.delInstance noPermanent "a").1.selfInstanceQueue.getByID "a").isSome = true ∧
      (s.delInstance noPermanent "a").1.routeDesignateInstance "a" false = true :=
  (placement noPermanent .reserved).reachable_of_run ⟨true, rfl⟩
    [{ operation := .addInstance (addedAs kernelInstanceStatusRunning) false false },
      { operation := .handleInstanceUpdate true (addedAs kernelInstanceStatusEvicting) false false },
      { operation := .handleFuncOwnerUpdate false }] _ (by decide +kernel)

end Yuanrong.Concurrency.Ordered
