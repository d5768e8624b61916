import Yuanrong.ConcurrencyScheduler.OrderedQueue
import Yuanrong.PriorityQueue.RootMax

/-!
# A refused acquire finds every instance exhausted

An acquire looks at the front of the queue only. For a scaled scheduler this is right in every run,
since instances without a free thread wait in the buffer. For a reserved one it rests on the heap
having the largest item at its root, which a removal of the root restores only if it can see all
other items.
-/

namespace Yuanrong.Concurrency.Ordered

open AList List PriorityQueue DeHeap Bool Ordered.InstanceQueue Ordered.InstanceElement

def Operation.concurrentNum : Operation → Option Int
  | .addInstance ins _ _ => some ins.concurrentNum
  | .handleInstanceUpdate ins _ _ => some ins.concurrentNum
  | .refile el => some el.ins.concurrentNum
  | _ => none

namespace InstanceQueue

variable (q : InstanceQueue)

def takesFront (operation : Operation) : Bool :=
  q.instanceQueue.queue.head?.any fun item =>
    match operation with
    | .addInstance _ _ _ => false
    | .handleInstanceUpdate ins _ _ => decide (ins.instanceID = item.objID)
    | .acquire => true
    | .release objID => decide (objID = item.objID)
    | .refile el => decide (el.ins.instanceID = item.objID)
    | .delInstance objID => decide (objID = item.objID)
    | .popInstance _ _ => true

/-- The front is taken out of at most eight items, and no concurrency is negative. -/
def frontInReach (kind : SchedulerKind) (e : Event) : Bool :=
  match kind with
  | .scaled _ => true
  | .reserved =>
    (decide (q.instanceQueue.queue.length ≤ 8) || !q.takesFront e.operation) &&
      e.operation.concurrentNum.all fun concurrentNum => decide (0 ≤ concurrentNum)

end InstanceQueue

theorem InstanceElement.threads_le_priority {el : InstanceElement} (h : 0 ≤ el.ins.concurrentNum) :
    el.threads ≤ el.priorityFuncForReservedInstance := by
  unfold priorityFuncForReservedInstance getInstancePriorityBonus
  split <;> split <;> omega

namespace HealthyQueue

def FrontTells (h : HealthyQueue) : SchedulerKind → Prop
  | .reserved =>
    h.buffer = [] ∧ h.queue.RootMax ∧
      ∀ item ∈ h.queue, item.priority = item.obj.priorityFuncForReservedInstance ∧
        0 ≤ item.obj.ins.concurrentNum
  | .scaled _ => (∀ item ∈ h.queue, 0 < item.obj.threads) ∧ ∀ el ∈ h.buffer, el.threads = 0

variable {h : HealthyQueue} {kind : SchedulerKind} {updating : Bool} {el : InstanceElement}
  {objID : String}

section

variable (htells : h.FrontTells kind)
include htells

theorem FrontTells.pushBack (hnonneg : kind = .reserved → 0 ≤ el.ins.concurrentNum) :
    (h.pushBack kind updating el).FrontTells kind := by
  cases kind with
  | reserved =>
    obtain ⟨hbuffer, hroot, hitems⟩ := htells
    refine ⟨hbuffer, hroot.push, fun item hmem => ?_⟩
    rcases mem_cons.mp (push_perm.mem_iff.mp hmem) with rfl | hmem
    · exact ⟨rfl, hnonneg rfl⟩
    · exact hitems item hmem
  | scaled =>
    obtain ⟨hqueue, hbuffer⟩ := htells
    unfold HealthyQueue.pushBack
    split
    case isTrue hnone =>
      exact ⟨hqueue, forall_mem_append.mpr ⟨hbuffer, forall_mem_singleton.mpr hnone.2⟩⟩
    case isFalse hsome =>
      refine ⟨fun item hmem => ?_, hbuffer⟩
      rcases mem_cons.mp (push_perm.mem_iff.mp hmem) with rfl | hmem
      · exact Nat.pos_of_ne_zero fun hzero => hsome ⟨nofun, hzero⟩
      · exact hqueue item hmem

theorem FrontTells.remove (hsmall : kind = .reserved → i = 0 → h.queue.length ≤ 8) :
    ({ h with queue := h.queue.remove i } : HealthyQueue).FrontTells kind := by
  cases kind with
  | reserved =>
    obtain ⟨hbuffer, hroot, hitems⟩ := htells
    exact ⟨hbuffer, hroot.remove (hsmall rfl), fun item hmem => hitems item (mem_of_mem_remove hmem)⟩
  | scaled => exact ⟨fun item hmem => htells.1 item (mem_of_mem_remove hmem), htells.2⟩

theorem FrontTells.sublist {buffer : List InstanceElement} (hsub : buffer.Sublist h.buffer) :
    ({ h with buffer := buffer } : HealthyQueue).FrontTells kind := by
  cases kind with
  | reserved =>
    obtain ⟨hbuffer, hrest⟩ := htells
    rw [hbuffer] at hsub
    exact ⟨sublist_nil.mp hsub, hrest⟩
  | scaled => exact ⟨htells.1, fun el hmem => htells.2 el (hsub.mem hmem)⟩

def FrontInReach (h : HealthyQueue) (kind : SchedulerKind) (objID : String) : Prop :=
  kind = .reserved → (h.queue.head?.any fun item => objID = item.objID) = true → h.queue.length ≤ 8

theorem FrontTells.delByID (hsmall : h.FrontInReach kind objID) : (h.delByID objID).FrontTells kind := by
  unfold HealthyQueue.delByID
  split
  case h_1 i hindex =>
    refine htells.remove fun hkind hzero => hsmall hkind ?_
    obtain ⟨hlt, heq, -⟩ := findIdx?_eq_some_iff_getElem.mp hindex
    subst hzero
    rw [head?_eq_getElem?, getElem?_eq_getElem hlt]
    simpa using (of_decide_eq_true heq).symm
  case h_2 => exact htells.sublist eraseP_sublist

theorem FrontTells.popFront (hsmall : kind = .reserved → h.queue.length ≤ 8) :
    h.popFront.FrontTells kind := by
  unfold HealthyQueue.popFront
  split
  · exact htells.remove fun hkind _ => hsmall hkind
  · exact htells.sublist (tail_sublist _)

end

theorem FrontTells.popBack (htells : h.FrontTells (.scaled concurrency)) :
    h.popBack.FrontTells (.scaled concurrency) := by
  unfold HealthyQueue.popBack
  split
  · exact htells.remove nofun
  · exact htells.sublist (dropLast_sublist _)

/-- If the front has no free thread, or there is none, then no healthy instance has one. -/
theorem FrontTells.exhausted (htells : h.FrontTells kind) (hfront : ∀ el ∈ h.front, el.threads = 0) :
    ∀ el ∈ h.elements, el.threads = 0 := by
  have hroot : ∀ item ∈ h.queue, ∃ root ∈ h.queue, h.queue.key 0 = root.priority ∧ root.obj.threads = 0 := by
    intro item hitem
    obtain ⟨root, hget⟩ : ∃ root, h.queue[0]? = some root :=
      ⟨_, getElem?_eq_getElem (length_pos_of_mem hitem)⟩
    unfold front getMax at hfront
    rw [hget] at hfront
    exact ⟨root, mem_of_getElem? hget, key_of_getElem? hget, hfront _ rfl⟩
  intro el hmem
  cases kind with
  | reserved =>
    obtain ⟨hbuffer, hmax, hitems⟩ := htells
    rw [elements, hbuffer, append_nil] at hmem
    obtain ⟨item, hitem, rfl⟩ := mem_map.mp hmem
    obtain ⟨hpriority, hnonneg⟩ := hitems item hitem
    obtain ⟨root, hrootmem, hkey, hthreads⟩ := hroot item hitem
    have hle := rootMax_iff_forall_mem.mp hmax item hitem
    have hzero : root.priority = 0 := by
      rw [(hitems root hrootmem).1]
      simp [priorityFuncForReservedInstance, getInstancePriorityBonus, hthreads]
    have hown := threads_le_priority hnonneg
    omega
  | scaled =>
    obtain ⟨hqueue, hbuffer⟩ := htells
    rcases mem_append.mp hmem with hmem | hmem
    · obtain ⟨item, hitem, rfl⟩ := mem_map.mp hmem
      obtain ⟨root, hrootmem, -, hthreads⟩ := hroot item hitem
      exact absurd hthreads (hqueue root hrootmem).ne'
    · exact hbuffer el hmem

end HealthyQueue

namespace InstanceQueue

variable {q : InstanceQueue} {kind : SchedulerKind} {updating : Bool} {el : InstanceElement}

structure Filed (q : InstanceQueue) (kind : SchedulerKind) : Prop where
  front : q.instanceQueue.FrontTells kind
  subHealth : ∀ objID el, q.subHealthRecord.lookup objID = some el →
    el.ins.statusCode = kernelInstanceStatusSubHealth
  evicting : ∀ objID el, q.evictingRecord.lookup objID = some el →
    el.ins.statusCode = kernelInstanceStatusEvicting

section

variable (hfiled : q.Filed kind)
include hfiled

theorem Filed.file (hnonneg : kind = .reserved → el.ins.statusCode = kernelInstanceStatusRunning →
      0 ≤ el.ins.concurrentNum) : (q.file kind updating objID el).1.Filed kind := by
  unfold InstanceQueue.file
  split
  case isTrue hrunning =>
    exact { hfiled with front := hfiled.front.pushBack fun hkind => hnonneg hkind hrunning }
  split
  case isTrue hsub =>
    refine { hfiled with subHealth := fun objID el' hlookup => ?_ }
    rcases lookup_of_insert hlookup with ⟨-, rfl⟩ | hlookup
    · exact hsub
    · exact hfiled.subHealth objID el' hlookup
  · split
    case isTrue hevicting =>
      refine { hfiled with evicting := fun objID el' hlookup => ?_ }
      rcases lookup_of_insert hlookup with ⟨-, rfl⟩ | hlookup
      · exact hevicting
      · exact hfiled.evicting objID el' hlookup
    · exact hfiled

theorem Filed.remove (hsmall : q.instanceQueue.FrontInReach kind objID) : (q.remove objID).Filed kind where
  front := hfiled.front.delByID hsmall
  subHealth objID' el hlookup := hfiled.subHealth objID' el (lookup_of_erase hlookup)
  evicting objID' el hlookup := hfiled.evicting objID' el (lookup_of_erase hlookup)

section

variable (hnonneg : kind = .reserved → el.ins.statusCode = kernelInstanceStatusRunning →
  0 ≤ el.ins.concurrentNum)
include hnonneg

theorem Filed.pushBack : (q.pushBack kind updating el).1.Filed kind := by
  unfold InstanceQueue.pushBack
  split
  · exact hfiled
  · exact hfiled.file hnonneg

theorem Filed.updateObjByID (hsmall : q.instanceQueue.FrontInReach kind objID) :
    (q.updateObjByID kind updating objID el).1.Filed kind := by
  unfold InstanceQueue.updateObjByID
  split
  · exact hfiled
  · exact (hfiled.remove hsmall).file hnonneg

end

theorem Filed.delByID (hsmall : q.instanceQueue.FrontInReach kind objID) :
    (q.delByID objID).1.Filed kind := by
  unfold InstanceQueue.delByID
  split
  · exact hfiled
  · exact hfiled.remove hsmall

theorem Filed.popInstanceElement {force : Bool} {pick : Nat}
    (hsmall : kind = .reserved → q.instanceQueue.queue.length ≤ 8) :
    (q.popInstanceElement kind force pick).Filed kind := by
  unfold InstanceQueue.popInstanceElement
  split
  case h_1 =>
    exact { hfiled with
      subHealth := fun objID el hlookup => hfiled.subHealth objID el (lookup_of_erase hlookup) }
  cases kind with
  | reserved => exact { hfiled with front := hfiled.front.popFront hsmall }
  | scaled =>
    simp only
    split
    · exact { hfiled with front := hfiled.front.popBack }
    · exact hfiled

end

theorem Filed.nonneg_of_getByID (hfiled : q.Filed .reserved) (hget : q.getByID objID = some el)
    (hrunning : el.ins.statusCode = kernelInstanceStatusRunning) : 0 ≤ el.ins.concurrentNum := by
  unfold getByID at hget
  split at hget
  case h_1 el' hlookup =>
    cases hget
    rw [hfiled.subHealth objID _ hlookup] at hrunning
    exact absurd hrunning (by decide)
  case h_2 =>
    split at hget
    case h_1 el' hlookup =>
      cases hget
      rw [hfiled.evicting objID _ hlookup] at hrunning
      exact absurd hrunning (by decide)
    case h_2 =>
      obtain ⟨hbuffer, -, hitems⟩ := hfiled.front
      unfold HealthyQueue.getByID at hget
      rw [hbuffer] at hget
      split at hget
      case h_1 item hfind =>
        cases hget
        exact (hitems item (mem_of_find?_eq_some hfind)).2
      case h_2 => cases hget

theorem length_le_of_takes (heap : DeHeap InstanceElement)
    (hsmall : (heap.head?.any fun _ => true) = true → heap.length ≤ 8) : heap.length ≤ 8 := by
  cases heap with
  | nil => exact Nat.zero_le 8
  | cons => exact hsmall rfl

theorem Filed.acquireDefaultInstance (hfiled : q.Filed kind)
    (hsmall : kind = .reserved → q.instanceQueue.queue.length ≤ 8) :
    (q.acquireDefaultInstance kind updating).1.Filed kind := by
  unfold InstanceQueue.acquireDefaultInstance
  split
  case h_1 => exact hfiled
  rename_i el hfront
  split
  · exact hfiled
  refine hfiled.updateObjByID (fun hkind _ => ?_) fun hkind _ => hsmall hkind
  subst hkind
  obtain ⟨hbuffer, -, hitems⟩ := hfiled.front
  unfold HealthyQueue.front getMax at hfront
  rw [hbuffer] at hfront
  split at hfront
  case h_1 item hget =>
    cases hfront
    exact (hitems item (mem_of_getElem? hget)).2
  case h_2 => cases hfront

theorem Filed.releaseInstance (hfiled : q.Filed kind) (hsmall : q.instanceQueue.FrontInReach kind objID) :
    (q.releaseInstance kind updating objID).1.Filed kind := by
  unfold InstanceQueue.releaseInstance
  split
  case h_1 => exact hfiled
  rename_i el hget
  refine hfiled.updateObjByID (fun hkind hrunning => ?_) hsmall
  subst hkind
  have hins : el.putThreadToThreadMap.ins = el.ins := by
    unfold putThreadToThreadMap
    split <;> rfl
  rw [hins] at hrunning ⊢
  exact hfiled.nonneg_of_getByID hget hrunning

theorem Filed.perform (hfiled : q.Filed kind) (hreach : q.frontInReach kind e = true) :
    (q.perform kind e).1.Filed kind := by
  have hcond : kind = .reserved → (q.takesFront e.operation = true → q.instanceQueue.queue.length ≤ 8) ∧
        ∀ n ∈ e.operation.concurrentNum, 0 ≤ n := by
    rintro rfl
    simp only [frontInReach, and_eq_true, or_eq_true, decide_eq_true_eq,
      not_eq_true', Option.all_eq_true] at hreach
    refine ⟨fun htakes => hreach.1.resolve_right fun hnot => ?_, hreach.2⟩
    rw [htakes] at hnot
    cases hnot
  unfold InstanceQueue.perform
  cases hop : e.operation with
  | addInstance =>
    rw [hop] at hcond
    exact hfiled.pushBack fun hkind _ => (hcond hkind).2 _ rfl
  | handleInstanceUpdate =>
    rw [hop] at hcond
    simp only [handleInstanceUpdate]
    split
    · exact hfiled.pushBack fun hkind _ => (hcond hkind).2 _ rfl
    · exact hfiled.updateObjByID (fun hkind _ => (hcond hkind).2 _ rfl) fun hkind => (hcond hkind).1
  | acquire =>
    rw [hop] at hcond
    exact hfiled.acquireDefaultInstance fun hkind => length_le_of_takes _ (hcond hkind).1
  | release =>
    rw [hop] at hcond
    exact hfiled.releaseInstance fun hkind => (hcond hkind).1
  | refile =>
    rw [hop] at hcond
    exact hfiled.updateObjByID (fun hkind _ => (hcond hkind).2 _ rfl) fun hkind => (hcond hkind).1
  | delInstance =>
    rw [hop] at hcond
    exact hfiled.delByID fun hkind => (hcond hkind).1
  | popInstance =>
    rw [hop] at hcond
    exact hfiled.popInstanceElement fun hkind => length_le_of_takes _ (hcond hkind).1

theorem front_of_refused (hrefused : (q.acquireDefaultInstance kind updating).2 = some .noInsAvailable) :
    ∀ el ∈ q.instanceQueue.front, el.threads = 0 := by
  unfold acquireDefaultInstance at hrefused
  split at hrefused
  case h_1 hfront =>
    rw [hfront]
    nofun
  rename_i el hfront
  split at hrefused
  case isTrue hzero =>
    rw [hfront]
    rintro _ ⟨⟩
    exact hzero
  case isFalse =>
    unfold updateObjByID at hrefused
    split at hrefused
    · cases hrefused
    refine absurd hrefused ?_
    unfold file
    split
    · nofun
    · split
      · nofun
      · split <;> nofun

theorem Filed.threads_eq_zero (hfiled : q.Filed kind) (hfront : ∀ el ∈ q.instanceQueue.front, el.threads = 0)
    (hmem : el ∈ q.instances) (hrunning : el.ins.statusCode = kernelInstanceStatusRunning) :
    el.threads = 0 := by
  rcases mem_append.mp hmem with hmem | hmem
  · rcases mem_append.mp hmem with hmem | hmem
    · exact hfiled.front.exhausted hfront el hmem
    obtain ⟨⟨objID, el⟩, hentry, rfl⟩ := mem_map.mp hmem
    have hstatus := hfiled.subHealth objID el (mem_entries_iff.mp hentry)
    rw [hstatus] at hrunning
    exact absurd hrunning (by decide)
  · obtain ⟨⟨objID, el⟩, hentry, rfl⟩ := mem_map.mp hmem
    have hstatus := hfiled.evicting objID el (mem_entries_iff.mp hentry)
    rw [hstatus] at hrunning
    exact absurd hrunning (by decide)

end InstanceQueue

theorem filed_of_reach (hrun : (system kind).Reach (fun q e => q.frontInReach kind e = true) q) :
    q.Filed kind := by
  refine hrun.invariant (P := fun q => q.Filed kind) ?_ ?_
  · rintro q rfl
    refine ⟨?_, nofun, nofun⟩
    cases kind with
    | reserved => exact ⟨rfl, fun j hj => absurd hj (Nat.not_lt_zero j), nofun⟩
    | scaled => exact ⟨nofun, nofun⟩
  · intro q e q' l _ hreach hfiled hstep
    obtain rfl : (q.perform kind e).1 = q' := congrArg Prod.fst (Option.some.inj hstep)
    exact hfiled.perform hreach

/-- With small heaps an acquire is refused only if no running instance has a free thread. -/
theorem refused_only_when_exhausted {kind : SchedulerKind} {q : InstanceQueue}
    (hrun : (system kind).Reach (fun q e => q.frontInReach kind e = true) q) (updating : Bool)
    (hrefused : (q.acquireDefaultInstance kind updating).2 = some .noInsAvailable) :
    ∀ el ∈ q.instances, el.ins.statusCode = kernelInstanceStatusRunning → el.threads = 0 :=
  fun _ hmem => (filed_of_reach hrun).threads_eq_zero (front_of_refused hrefused) hmem

def runningInstance (instanceID : String) : Instance :=
  { instanceID, concurrentNum := 1, statusCode := kernelInstanceStatusRunning }

def addRunning (instanceID : String) : Event :=
  { operation := .addInstance (runningInstance instanceID) false false }

theorem refused_only_when_exhausted_two :
    ∃ q, (system .reserved).Reach (fun q e => q.frontInReach .reserved e = true) q ∧
      (q.acquireDefaultInstance .reserved false).2 = some .noInsAvailable ∧ q.instances.length = 2 ∧
      ∀ el ∈ q.instances, el.ins.statusCode = kernelInstanceStatusRunning → el.threads = 0 := by
  obtain ⟨q, hreach, hrefused, hlength⟩ := (system .reserved).reach_of_run
    (fun q e => q.frontInReach .reserved e) rfl
    [addRunning "a", addRunning "b", { operation := .acquire }, { operation := .acquire }]
    (fun q => (q.acquireDefaultInstance .reserved false).2 = some .noInsAvailable ∧
      q.instances.length = 2) (by decide +kernel)
  exact ⟨q, hreach, hrefused, hlength, refused_only_when_exhausted hreach false hrefused⟩

def tenInstances : List Event :=
  let operations : List Operation :=
    [.acquire, .acquire, .acquire, .release "0", .acquire, .acquire, .acquire, .acquire,
      .release "7", .release "8", .acquire, .acquire, .acquire, .acquire, .acquire]
  ["0", "1", "2", "3", "4", "5", "6", "7", "8", "9"].map addRunning ++
    operations.map fun operation => { operation := operation }

/-- In the end the front has no thread, and the acquire is refused with one of ten free. -/
theorem refused_with_free_thread : ∃ q, (system .reserved).Reachable q ∧
      (q.acquireDefaultInstance .reserved false).2 = some .noInsAvailable ∧
      ∃ el ∈ q.instances, el.ins.statusCode = kernelInstanceStatusRunning ∧ el.threads = 1 :=
  (system .reserved).reachable_of_run rfl tenInstances _ (by decide +kernel)

end Yuanrong.Concurrency.Ordered
