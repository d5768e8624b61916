import Yuanrong.LiteScheduler.Proof.Effect

/-!
# Well-formedness of every reachable state

Instances are filed under their IDs and schedulable, sessions are bound to instances of their pool,
allocations are on instances of their pool, and goroutines carry checked data.
-/

namespace Yuanrong.Lite

open AList LiteScheduler LiteFunctionPool Option

variable {ins : LiteInstance} {f : String} {pc : Pc}

namespace LiteFunctionPool.WellFormed

variable {p p' : LiteFunctionPool} {i : String}

variable (hwf : p.WellFormed)
include hwf

theorem of_inUseOnly (hins : InUseOnly p p')
    (hbound : ∀ k b, p'.sessions.lookup k = some b → ∃ ins, p.instances.lookup b.instanceID = some ins) :
    p'.WellFormed where
  instanceID i ins' hins' := by
    obtain ⟨ins, v, hlookup, rfl⟩ := hins.lookup hins'
    exact hwf.instanceID i ins hlookup
  schedulable i ins' hins' := by
    obtain ⟨ins, v, hlookup, rfl⟩ := hins.lookup hins'
    exact hwf.schedulable i ins hlookup
  bound k b hb := by
    obtain ⟨ins, hlookup⟩ := hbound k b hb
    exact hins.keeps hlookup

theorem bound_insert (hins : p.instances.lookup b.instanceID = some ins)
    (hb' : (p.sessions.insert k b).lookup k' = some b') :
    ∃ ins, p.instances.lookup b'.instanceID = some ins := by
  rcases lookup_of_insert hb' with ⟨-, rfl⟩ | hold
  · exact ⟨ins, hins⟩
  · exact hwf.bound k' b' hold

theorem stickyTake (k : String) : (p.stickyTake k).WellFormed := by
  apply hwf.of_inUseOnly (kept_stickyTake p k).inUse
  intro k' b' hb'
  unfold LiteFunctionPool.stickyTake at hb'
  split at hb'
  · exact hwf.bound k' b' hb'
  rename_i b hbinding
  obtain ⟨ins, hins⟩ := hwf.bound k b hbinding
  exact hwf.bound_insert (by rw [stickyTake_instanceID]; exact hins) hb'

theorem cancelSessionUnbind (k : String) : (p.cancelSessionUnbind k).WellFormed := by
  apply hwf.of_inUseOnly (kept_cancelSessionUnbind p k).inUse
  intro k' b' hb'
  unfold LiteFunctionPool.cancelSessionUnbind at hb'
  split at hb'
  · exact hwf.bound k' b' hb'
  rename_i b hbinding
  obtain ⟨ins, hins⟩ := hwf.bound k b hbinding
  split at hb'
  · exact hwf.bound_insert (b := { b with timer := none, expiring := false }) hins hb'
  · exact hwf.bound k' b' hb'

theorem bindFresh (hins : p.instances.lookup i = some ins) (k : String)
    (c : Int) : ((p.addInUse i c).bindSessionFreshLocked k i c).WellFormed := by
  apply hwf.of_inUseOnly (kept_bindFresh p k i c).inUse
  intro k' b' hb'
  rw [addInUse_of_lookup hins] at hb'
  exact hwf.bound_insert hins hb'

theorem addInUse (i : String) (d : Int) : (p.addInUse i d).WellFormed := by
  apply hwf.of_inUseOnly (kept_addInUse p i d).inUse
  intro k b hb
  unfold LiteFunctionPool.addInUse at hb
  split at hb <;> exact hwf.bound k b hb

theorem unbindSessionOnRelease (k : String) : (p.unbindSessionOnRelease k).1.WellFormed := by
  apply hwf.of_inUseOnly (kept_unbindSessionOnRelease p k).inUse
  intro k' b' hb'
  cases hbinding : p.sessions.lookup k with
  | none =>
    rw [unbindSessionOnRelease_of_none hbinding] at hb'
    exact hwf.bound k' b' hb'
  | some b =>
    obtain ⟨ins, hins⟩ := hwf.bound k b hbinding
    rw [← returnUnit_instanceID b] at hins
    rw [unbindSessionOnRelease_of_lookup hbinding] at hb'
    split at hb'
    · exact hwf.bound_insert hins hb'
    · exact hwf.bound_insert (b := { returnUnit b with expiring := true }) hins hb'

theorem startSessionUnbindTimer (k : String)
    (ttl : Int) (now : Nat) : (p.startSessionUnbindTimer k ttl now).WellFormed := by
  apply hwf.of_inUseOnly (kept_startSessionUnbindTimer p k ttl now).inUse
  intro k' b' hb'
  unfold LiteFunctionPool.startSessionUnbindTimer at hb'
  split at hb'
  · exact hwf.bound k' b' hb'
  rename_i b hbinding
  obtain ⟨ins, hins⟩ := hwf.bound k b hbinding
  split at hb'
  · exact hwf.bound k' b' hb'
  · exact hwf.bound_insert (b := { b with timer := some p.nextRef }) hins hb'

theorem removeSessionBinding (k : String) : (p.removeSessionBinding k).WellFormed := by
  apply hwf.of_inUseOnly (kept_removeSessionBinding p k).inUse
  intro k' b' hb'
  unfold LiteFunctionPool.removeSessionBinding at hb'
  split at hb'
  · exact hwf.bound k' b' hb'
  · exact hwf.bound k' b' (lookup_of_erase hb')

theorem fireSessionUnbind (ref : Nat) (timer : SessionTimer) :
    (p.fireSessionUnbind ref timer).WellFormed := by
  have hfired : WellFormed { p with timers := p.timers.erase ref } := { hwf with }
  unfold LiteFunctionPool.fireSessionUnbind
  split
  · exact hfired.removeSessionBinding timer.sessionID
  · exact hfired

theorem quiet (hquiet : Quiet p p') : p'.WellFormed := by
  obtain ⟨g, hsame, hlookup⟩ := hquiet.instances
  have hins : ∀ i ins', p'.instances.lookup i = some ins' →
      ∃ ins, p.instances.lookup i = some ins ∧ SameSlot ins ins' := by
    intro i ins' hins'
    rw [hlookup] at hins'
    obtain ⟨ins, hins, rfl⟩ := map_eq_some_iff.mp hins'
    exact ⟨ins, hins, hsame i ins⟩
  refine ⟨?_, ?_, ?_⟩
  · intro i ins' hins'
    obtain ⟨ins, hlookup, hslot⟩ := hins i ins' hins'
    rw [hslot.instanceID]
    exact hwf.instanceID i ins hlookup
  · intro i ins' hins'
    obtain ⟨ins, hlookup, hslot⟩ := hins i ins' hins'
    rw [LiteInstance.schedulable, hslot.status]
    exact hwf.schedulable i ins hlookup
  · intro k b hb
    obtain ⟨ins, hins⟩ := hwf.bound k b (hquiet.sessions ▸ hb)
    exact ⟨g _ ins, by rw [hlookup, hins]; rfl⟩

theorem upsertInstance {ins : Instance}
    (hstatus : mapStatus ins.statusCode ≠ .unavailable) : (p.upsertInstance ins).WellFormed := by
  have hnext : ∃ next, (p.upsertInstance ins).instances = p.instances.insert ins.instanceID next ∧
      next.instanceID = ins.instanceID ∧ next.schedulable = true := by
    have hsched : ∀ status, mapStatus ins.statusCode = status → status ≠ .unavailable →
        (decide (status = .running) || decide (status = .subHealth)) = true := by
      intro status _ hne
      cases status with
      | unavailable => exact absurd rfl hne
      | running => rfl
      | subHealth => rfl
    unfold LiteFunctionPool.upsertInstance
    split
    all_goals exact ⟨_, rfl, rfl, hsched _ rfl hstatus⟩
  obtain ⟨next, heq, hid, hsched⟩ := hnext
  refine ⟨?_, ?_, ?_⟩
  · intro i slot hslot
    rw [heq] at hslot
    rcases lookup_of_insert hslot with ⟨hi, rfl⟩ | hold
    · rw [hid, hi]
    · exact hwf.instanceID i slot hold
  · intro i slot hslot
    rw [heq] at hslot
    rcases lookup_of_insert hslot with ⟨-, rfl⟩ | hold
    · exact hsched
    · exact hwf.schedulable i slot hold
  · intro k b hb
    obtain ⟨slot, hslot⟩ := hwf.bound k b hb
    rw [heq, lookup_insert_eq_ite]
    split
    · exact ⟨next, rfl⟩
    · exact ⟨slot, hslot⟩

theorem removeInstance (i : String) : (p.removeInstance i).WellFormed := by
  have hunbound := removeInstance_unbound p i
  have hins : ∀ j ins, (p.removeInstance i).instances.lookup j = some ins →
      p.instances.lookup j = some ins := by
    intro j ins hins
    rw [hunbound.instances] at hins
    exact lookup_of_erase hins
  refine ⟨fun j ins h => hwf.instanceID j ins (hins j ins h),
    fun j ins h => hwf.schedulable j ins (hins j ins h), ?_⟩
  intro k b hb
  rw [hunbound.sessions] at hb
  obtain ⟨hlookup, hne⟩ := filter_eq_some_iff.mp hb
  obtain ⟨ins, hbound⟩ := hwf.bound k b hlookup
  refine ⟨ins, ?_⟩
  rw [hunbound.instances, lookup_erase_ne (by simpa using hne)]
  exact hbound

end LiteFunctionPool.WellFormed

section Sections

variable {p p' : LiteFunctionPool} {req : LiteRequest}

theorem kept_assignedPool (p : LiteFunctionPool) (req : LiteRequest) (slot : LiteInstance)
    (sticky : Bool) : Kept { p with seqCounter := nextSeq p } (assignedPool p req slot sticky) := by
  unfold assignedPool applySlotBinding
  split
  · exact kept_stickyTake _ _
  split
  · exact kept_bindFresh _ _ _ _
  · exact kept_addInUse _ _ _

theorem LiteFunctionPool.WellFormed.assignedPool (hwf : p.WellFormed)
    (hslot : sticky = true ∨ ∃ ins, p.instances.lookup slot.instanceID = some ins) :
    (assignedPool p req slot sticky).WellFormed := by
  have hseq : LiteFunctionPool.WellFormed { p with seqCounter := nextSeq p } := { hwf with }
  unfold LiteScheduler.assignedPool applySlotBinding
  split
  · exact hseq.stickyTake _
  rename_i hfresh
  rcases hslot with hsticky | ⟨ins, hins⟩
  · exact absurd hsticky hfresh
  split
  · exact hseq.bindFresh hins _ _
  · exact hseq.addInUse _ _

theorem kept_buildReacquiredAlloc (p : LiteFunctionPool) (params : ReacquireParams) :
    Kept p (buildReacquiredAlloc p params) := by
  unfold buildReacquiredAlloc
  dsimp only
  split
  · split
    · exact kept_stickyTake _ _
    · exact kept_bindFresh _ _ _ _
  · exact kept_addInUse _ _ _

theorem LiteFunctionPool.WellFormed.buildReacquiredAlloc (hwf : p.WellFormed)
    (hins : p.instances.lookup params.instanceID = some ins) :
    (buildReacquiredAlloc p params).WellFormed := by
  unfold LiteScheduler.buildReacquiredAlloc
  dsimp only
  split
  · split
    · exact hwf.stickyTake _
    · exact hwf.bindFresh hins _ _
  · exact hwf.addInUse _ _

section Assigned

theorem assignedPool_sticky (hbinding : p.sessions.lookup req.bindingKey = some b)
    (hslot : p.instances.lookup b.instanceID = some slot) :
    let q := assignedPool (p.cancelSessionUnbind req.bindingKey) req slot true
    q.instances = p.instances.insert b.instanceID
        { slot with inUse := slot.inUse + (bindSessionStickyTakeLocked b).2 } ∧
      (∀ k, q.sessions.lookup k = if k = req.bindingKey then
        some (bindSessionStickyTakeLocked (cancelled b)).1 else p.sessions.lookup k) ∧
      (∀ t, q.timers.lookup t =
        if b.expiring then (stopTimer p.timers b).lookup t else p.timers.lookup t) ∧
      q.nextRef = p.nextRef ∧ ∀ i, q.slack i = p.slack i := by
  intro q
  let p₁ : LiteFunctionPool :=
    { p.cancelSessionUnbind req.bindingKey with
      seqCounter := nextSeq (p.cancelSessionUnbind req.bindingKey) }
  have hq : q = p₁.stickyTake req.bindingKey := rfl
  have hbinding₁ : p₁.sessions.lookup req.bindingKey = some (cancelled b) := by
    rw [lookup_cancelSessionUnbind hbinding, if_pos rfl]
  have hinstances₁ : p₁.instances = p.instances := by
    change (p.cancelSessionUnbind req.bindingKey).instances = p.instances
    simp only [cancelSessionUnbind, hbinding]
    split <;> rfl
  have hslot₁ : p₁.instances.lookup (cancelled b).instanceID = some slot := by
    rw [hinstances₁, cancelled_instanceID]
    exact hslot
  have hshape := stickyTake_of_lookup hbinding₁ hslot₁
  refine ⟨?_, ?_, ?_, ?_, ?_⟩
  · rw [hq, hshape, hinstances₁, cancelled_instanceID, stickyTake_cancelled]
  · intro k
    rw [hq, hshape]
    rw [lookup_insert_eq_ite]
    split
    · rfl
    · rename_i hne
      exact (lookup_cancelSessionUnbind hbinding k).trans (if_neg hne)
  · intro t
    rw [hq, hshape]
    change (p.cancelSessionUnbind req.bindingKey).timers.lookup t = _
    simp only [cancelSessionUnbind, hbinding]
    split <;> rfl
  · rw [hq, hshape]
    change (p.cancelSessionUnbind req.bindingKey).nextRef = p.nextRef
    simp only [cancelSessionUnbind, hbinding]
    split <;> rfl
  · intro i
    rw [hq, slack_stickyTake hbinding₁ hslot₁]
    exact (slack_congr rfl rfl i).trans (slack_cancelSessionUnbind req.bindingKey i)

theorem assignedPool_session (hsession : req.sessionID ≠ "") (d : Dispatcher) :
    assignedPool { p with dispatcher := d } req slot false =
      (({ p with dispatcher := d, seqCounter := nextSeq p } : LiteFunctionPool).addInUse
        slot.instanceID req.concurrency).bindSessionFreshLocked req.bindingKey slot.instanceID
          req.concurrency := by
  simp only [assignedPool, applySlotBinding, Bool.false_eq_true, if_false, if_pos hsession]
  rfl

theorem assignedPool_unit (hsession : req.sessionID = "") (d : Dispatcher) :
    assignedPool { p with dispatcher := d } req slot false =
      ({ p with dispatcher := d, seqCounter := nextSeq p } : LiteFunctionPool).addInUse
        slot.instanceID 1 := by
  simp only [assignedPool, applySlotBinding, Bool.false_eq_true, if_false, hsession, ne_eq, not_true_eq_false]
  rfl

end Assigned

theorem Returned.kept (h : Returned p a p' unbind) : Kept p p' := by
  cases h with
  | session => exact kept_unbindSessionOnRelease _ _
  | unit => exact kept_addInUse _ _ _
  | gone | empty => exact .refl _

theorem Returned.wellFormed (h : Returned p a p' unbind) (hwf : p.WellFormed) : p'.WellFormed := by
  cases h with
  | session => exact hwf.unbindSessionOnRelease _
  | unit => exact hwf.addInUse _ _
  | gone => exact hwf
  | empty => exact hwf

end Sections

def LiteScheduler.Keeps (ls ls' : LiteScheduler) : Prop :=
  ∀ f p, ls.getPool f = some p → ∃ p', ls'.getPool f = some p' ∧ p'.funcSpec = p.funcSpec

variable {ls : LiteScheduler}

theorem LiteScheduler.Keeps.exists (h : Keeps ls ls') (hpool : ∃ p, ls.getPool f = some p) :
    ∃ p, ls'.getPool f = some p := by
  obtain ⟨p, hp⟩ := hpool
  obtain ⟨p', hp', -⟩ := h f p hp
  exact ⟨p', hp'⟩

theorem Pc.Valid.keeps (h : Keeps ls ls') (hpc : pc.Valid ls) : pc.Valid ls' := by
  cases pc with
  | sticky | dispatch | coldStart | poll =>
    obtain ⟨⟨p, hp, hkey⟩, hconc, httl⟩ := hpc
    obtain ⟨p', hp', hspec⟩ := h _ p hp
    refine ⟨⟨p', hp', ?_⟩, hconc, httl⟩
    rw [hkey]
    simp only [sessionBindingKey, hspec]
  | removeTask | releaseSlot | reapSlot | snapshotSlot | startTimer => exact h.exists hpc
  | reacquire => exact { hpc with pool := h.exists hpc.pool }
  | _ => trivial

section System

variable {s s' : System}

def LiteScheduler.Slotted (ls : LiteScheduler) (allocations : FinMap String Allocation) : Prop :=
  ∀ id a, allocations.lookup id = some a → a.allocationID = id ∧
    ∃ p ins, ls.getPool a.funcKey = some p ∧ p.instances.lookup a.instanceID = some ins

def System.Resumed (s : System) (threads : FinMap Nat Pc) : Prop :=
  ∀ tid pc, threads.lookup tid = some pc → s.threads.lookup tid = some pc ∨ pc.Valid s.ls

theorem System.WellFormed.next (hwf : s.WellFormed) (hpools : ∀ f p', s'.ls.getPool f = some p' →
      ∃ p, s.ls.getPool f = some p ∧ p'.funcKey = p.funcKey ∧ p'.WellFormed) (hkeeps : Keeps s.ls s'.ls)
    (hallocs : s'.ls.Slotted s'.ls.allocations) (hthreads : s.Resumed s'.threads) : s'.WellFormed where
  funcKey f p' hp' := by
    obtain ⟨p, hp, hkey, -⟩ := hpools f p' hp'
    exact hkey.trans (hwf.funcKey f p hp)
  pool f p' hp' := by
    obtain ⟨p, -, -, h⟩ := hpools f p' hp'
    exact h
  allocationID id a ha := (hallocs id a ha).1
  instance_mem id a ha := (hallocs id a ha).2
  thread tid pc hpc := by
    rcases hthreads tid pc hpc with hold | hvalid
    · exact (hwf.thread tid pc hold).keeps hkeeps
    · exact hvalid.keeps hkeeps

theorem System.WellFormed.next_setPool (hwf : s.WellFormed) (hp : s.ls.getPool f = some p)
    (hpools : s'.ls.pools = s.ls.pools.insert f p') (hp' : p'.WellFormed) (hkey : p'.funcKey = p.funcKey)
    (hspec : p'.funcSpec = p.funcSpec)
    (hins : ∀ i ins, p.instances.lookup i = some ins → ∃ ins', p'.instances.lookup i = some ins')
    (hallocs : s.ls.Slotted s'.ls.allocations) (hthreads : s.Resumed s'.threads) : s'.WellFormed := by
  have hlookup : ∀ g, s'.ls.getPool g = if g = f then some p' else s.ls.getPool g := by
    intro g
    rw [getPool, hpools]
    exact lookup_insert_eq_ite s.ls.pools g f p'
  refine hwf.next ?_ ?_ ?_ hthreads
  · intro g q hq
    rw [hlookup] at hq
    split at hq
    · rename_i hg
      cases hq
      exact ⟨p, hg ▸ hp, hkey, hp'⟩
    · exact ⟨q, hq, rfl, hwf.pool g q hq⟩
  · intro g q hq
    rw [hlookup]
    split
    · rename_i hg
      rw [hg, hp] at hq
      cases hq
      exact ⟨p', rfl, hspec⟩
    · exact ⟨q, hq, rfl⟩
  · intro id a ha
    obtain ⟨hid, q, ins, hq, hslot⟩ := hallocs id a ha
    refine ⟨hid, ?_⟩
    rw [hlookup]
    split
    · rename_i hg
      rw [hg, hp] at hq
      cases hq
      obtain ⟨ins', hins'⟩ := hins _ ins hslot
      exact ⟨p', ins', rfl, hins'⟩
    · exact ⟨q, ins, hq, hslot⟩

theorem System.WellFormed.old_alloc (hwf : s.WellFormed) : s.ls.Slotted s.ls.allocations :=
  fun id a ha => ⟨hwf.allocationID id a ha, hwf.instance_mem id a ha⟩

theorem setThread_lookup (s : System) (tid tid' : Nat) (next : Option Pc) :
    (s.setThread tid next).lookup tid' = if tid' = tid then next else s.threads.lookup tid' := by
  unfold System.setThread
  split
  · exact lookup_insert_eq_ite _ _ _ _
  · exact lookup_erase_eq_ite _ _ _

theorem lookup_setThread (hpc : (s.setThread tid next).lookup tid' = some pc) :
    s.threads.lookup tid' = some pc ∨ (tid' = tid ∧ next = some pc) := by
  rw [setThread_lookup] at hpc
  split at hpc
  · rename_i htid
    exact .inr ⟨htid, hpc⟩
  · exact .inl hpc

theorem System.WellFormed.next_same (hwf : s.WellFormed) (hpools : s'.ls.pools = s.ls.pools)
    (hallocs : s.ls.Slotted s'.ls.allocations) (hthreads : s.Resumed s'.threads) : s'.WellFormed := by
  have hget : ∀ f, s'.ls.getPool f = s.ls.getPool f := by
    intro f
    rw [getPool, hpools, getPool]
  refine hwf.next ?_ ?_ ?_ hthreads
  · intro f p hp
    rw [hget] at hp
    exact ⟨p, hp, rfl, hwf.pool f p hp⟩
  · intro f p hp
    exact ⟨p, by rw [hget]; exact hp, rfl⟩
  · intro id a ha
    obtain ⟨hid, q, ins, hq, hins⟩ := hallocs id a ha
    exact ⟨hid, q, ins, by rw [hget]; exact hq, hins⟩

theorem valid_setThread (hvalid : ∀ pc, next = some pc → pc.Valid s.ls) :
    s.Resumed (s.setThread tid next) := by
  intro tid' pc hpc
  rcases lookup_setThread hpc with hold | ⟨-, hnext⟩
  · exact .inl hold
  · exact .inr (hvalid pc hnext)

theorem System.WellFormed.insert_alloc (hwf : s.WellFormed) {id : String} (hid : a.allocationID = id)
    (hins : ∃ q ins, s.ls.getPool a.funcKey = some q ∧ q.instances.lookup a.instanceID = some ins) :
    s.ls.Slotted (s.ls.allocations.insert id a) := by
  intro id' a' ha'
  rcases lookup_of_insert ha' with ⟨heq, rfl⟩ | hold
  · exact ⟨hid.trans heq.symm, hins⟩
  · exact hwf.old_alloc _ _ hold

theorem System.WellFormed.erase_alloc (hwf : s.WellFormed) (id : String) :
    s.ls.Slotted (s.ls.allocations.erase id) :=
  fun id' a' ha => hwf.old_alloc id' a' (lookup_of_erase ha)

theorem System.WellFormed.removeInstanceLocked (hwf : s.WellFormed) {pool : LiteFunctionPool}
    (hpool : s.ls.getPool f = some pool) (i : String) :
    System.WellFormed { s with ls := s.ls.removeInstanceLocked f pool i } := by
  have hlookup : ∀ g, (s.ls.removeInstanceLocked f pool i).getPool g =
      if g = f then some (pool.removeInstance i) else s.ls.getPool g :=
    fun g => lookup_insert_eq_ite s.ls.pools g f _
  have hframe := frame_removeInstance pool i
  refine hwf.next ?_ ?_ ?_ fun tid pc hpc => .inl hpc
  · intro g q hq
    rw [hlookup] at hq
    split at hq
    · rename_i hg
      cases hq
      exact ⟨pool, hg ▸ hpool, hframe.funcKey, (hwf.pool f pool hpool).removeInstance i⟩
    · exact ⟨q, hq, rfl, hwf.pool g q hq⟩
  · intro g q hq
    rw [hlookup]
    split
    · rename_i hg
      rw [hg, hpool] at hq
      cases hq
      exact ⟨_, rfl, hframe.funcSpec⟩
    · exact ⟨q, hq, rfl⟩
  · intro id a ha
    have hkept := (lookup_filter s.ls.allocations _ id).symm.trans ha
    obtain ⟨halloc, hstays⟩ := filter_eq_some_iff.mp hkept
    obtain ⟨hid, q, ins, hq, hins⟩ := hwf.old_alloc _ _ halloc
    refine ⟨hid, ?_⟩
    rw [hlookup]
    split
    · rename_i hf
      rw [hf, hpool] at hq
      cases hq
      have hne : a.instanceID ≠ i := by
        rintro rfl
        simp [hf, hwf.funcKey f pool hpool] at hstays
      refine ⟨_, ins, rfl, ?_⟩
      rw [(removeInstance_unbound pool i).instances, lookup_erase_ne hne]
      exact hins
    · exact ⟨q, ins, hq, hins⟩

theorem Effect.wellFormed {e : Event} (hwf : s.WellFormed) (heffect : Effect cfg s e r) : r.1.WellFormed := by
  have hquit : ∀ pc, (none : Option Pc) = some pc → pc.Valid s.ls := by rintro _ ⟨⟩
  cases heffect with
  | move hls _ _ _ _ hvalid =>
    refine hwf.next_same (congrArg pools hls) ?_ (valid_setThread hvalid)
    intro id a ha
    exact hwf.old_alloc _ _ ((congrArg allocations hls) ▸ ha)
  | @cursor _ _ _ _ pool d hpool hls _ _ _ _ hvalid =>
    refine hwf.next_setPool hpool (congrArg pools hls)
      ((hwf.pool _ _ hpool).quiet (Quiet.dispatcher pool d)) rfl rfl
      (fun i ins hins => ⟨ins, hins⟩) ?_ (valid_setThread hvalid)
    intro id a ha
    exact hwf.old_alloc _ _ ((congrArg allocations hls) ▸ ha)
  | @stickyGrant _ _ req pool slot _ _ hpool _ hslot =>
    have hpwf := hwf.pool _ _ hpool
    have hkept := kept_cancelSessionUnbind pool req.bindingKey
    have hassigned := kept_assignedPool (pool.cancelSessionUnbind req.bindingKey) req slot true
    refine hwf.next_setPool hpool (assignInstance_pools _ _ _ _ _ _)
      ((hpwf.cancelSessionUnbind _).assignedPool (.inl rfl))
      (hassigned.funcKey.trans hkept.funcKey) (hassigned.funcSpec.trans hkept.funcSpec)
      (fun i ins hins => (hkept.inUse.trans hassigned.inUse).keeps hins) ?_ (valid_setThread hquit)
    change ∀ id a, lookup id (assignInstance _ _ _ _ _ _).ls.allocations = some a → _
    rw [assignInstance_allocations]
    refine hwf.insert_alloc rfl ⟨pool, slot, hpool, ?_⟩
    change pool.instances.lookup slot.instanceID = some slot
    rw [hpwf.instanceID _ _ hslot]
    exact hslot
  | @freshGrant _ _ req pool slot d _ hpool hslot =>
    have hassigned := kept_assignedPool { pool with dispatcher := d } req slot false
    refine hwf.next_setPool hpool (assignInstance_pools _ _ _ _ _ _)
      (((hwf.pool _ _ hpool).quiet (Quiet.dispatcher pool d)).assignedPool (.inr ⟨slot, hslot⟩))
      hassigned.funcKey hassigned.funcSpec ?_ ?_ (valid_setThread hquit)
    · intro i ins hins
      exact hassigned.inUse.keeps hins
    change ∀ id a, lookup id (assignInstance _ _ _ _ _ _).ls.allocations = some a → _
    rw [assignInstance_allocations]
    exact hwf.insert_alloc rfl ⟨pool, slot, hpool, hslot⟩
  | @release _ allocID _ _ halloc =>
    obtain ⟨pool, ins, hpool, -⟩ := hwf.instance_mem _ _ halloc
    refine hwf.next_same rfl (hwf.erase_alloc allocID) (valid_setThread ?_)
    rintro pc ⟨rfl⟩
    exact ⟨pool, hpool⟩
  | removeTask hpc =>
    refine hwf.next_same rfl hwf.old_alloc (valid_setThread ?_)
    rintro pc ⟨rfl⟩
    exact hwf.thread _ (.removeTask _) hpc
  | returned _ _ hpool hreturned _ _ _ hvalid =>
    exact hwf.next_setPool hpool rfl (hreturned.wellFormed (hwf.pool _ _ hpool))
      hreturned.kept.funcKey hreturned.kept.funcSpec
      (fun i ins hins => hreturned.kept.inUse.keeps hins) hwf.old_alloc
      (valid_setThread hvalid)
  | @startTimer _ _ _ k ttl _ pool _ hpool =>
    have hkept := kept_startSessionUnbindTimer pool k ttl s.ls.now
    exact hwf.next_setPool hpool rfl ((hwf.pool _ _ hpool).startSessionUnbindTimer _ _ _)
      hkept.funcKey hkept.funcSpec (fun i ins hins => hkept.inUse.keeps hins)
      hwf.old_alloc (valid_setThread hquit)
  | dropAlloc =>
    refine hwf.next_same rfl (hwf.erase_alloc _) (valid_setThread ?_)
    rintro pc ⟨rfl⟩
    trivial
  | dropTask => exact hwf.next_same rfl hwf.old_alloc (valid_setThread hquit)
  | @refresh _ _ _ alloc _ _ halloc =>
    obtain ⟨hid, hins⟩ := hwf.old_alloc _ _ halloc
    refine hwf.next_same rfl (hwf.insert_alloc hid hins) (valid_setThread ?_)
    rintro pc ⟨rfl⟩
    trivial
  | updateTask =>
    refine hwf.next_same (setWheel_pools _ _) ?_ (valid_setThread hquit)
    intro id a ha
    exact hwf.old_alloc _ _ ((setWheel_allocations s.ls _) ▸ ha)
  | @reacquireGrant _ _ params pool slot _ _ hpool hslot =>
    have hkept := kept_buildReacquiredAlloc pool params
    refine hwf.next_setPool hpool rfl ((hwf.pool _ _ hpool).buildReacquiredAlloc hslot)
      hkept.funcKey hkept.funcSpec (fun i ins hins => hkept.inUse.keeps hins)
      (hwf.insert_alloc rfl ⟨pool, slot, hpool, hslot⟩) (valid_setThread ?_)
    rintro pc ⟨rfl⟩
    trivial
  | tick | wait | report | elapse => exact hwf.next_same rfl hwf.old_alloc fun tid pc h => .inl h
  | reapNone => exact hwf.next_same rfl hwf.old_alloc fun tid pc h => .inl h
  | @reap allocID _ alloc _ _ halloc =>
    obtain ⟨pool, ins, hpool, -⟩ := hwf.instance_mem _ _ halloc
    have hvalid : ∀ pc, some (Pc.reapSlot alloc) = some pc → pc.Valid s.ls := by
      rintro pc ⟨rfl⟩
      exact ⟨pool, hpool⟩
    exact hwf.next_same rfl (hwf.erase_alloc allocID) (valid_setThread hvalid)
  | @fire _ ref pool timer hpool =>
    have hkept := kept_fireSessionUnbind pool ref timer
    exact hwf.next_setPool hpool rfl ((hwf.pool _ _ hpool).fireSessionUnbind _ _)
      hkept.funcKey hkept.funcSpec (fun i ins hins => hkept.inUse.keeps hins)
      hwf.old_alloc fun tid pc h => .inl h
  | @upsert _ ins pool hpool hstatus =>
    refine hwf.next_setPool hpool rfl ((hwf.pool _ _ hpool).upsertInstance hstatus) rfl rfl ?_
      hwf.old_alloc fun tid pc h => .inl h
    intro i slot hslot
    change ∃ ins', (pool.instances.insert ins.instanceID _).lookup i = some ins'
    rw [lookup_insert_eq_ite]
    split
    · exact ⟨_, rfl⟩
    · exact ⟨slot, hslot⟩
  | remove hpool => exact hwf.removeInstanceLocked hpool _
  | @quiet _ _ pool _ _ hpool hquiet =>
    refine hwf.next_setPool hpool rfl ((hwf.pool _ _ hpool).quiet hquiet) hquiet.frame.funcKey
      hquiet.frame.funcSpec ?_ hwf.old_alloc fun tid pc h => .inl h
    intro i ins hins
    obtain ⟨g, -, hlookup⟩ := hquiet.instances
    exact ⟨g i ins, by rw [hlookup, hins]; rfl⟩

end System

theorem wellFormed_of_reach (hreach : (scheduler cfg).Reach ok s) : s.WellFormed := by
  refine hreach.invariant ?_ ?_
  · intro s hinit
    have hempty : ∀ f p, s.ls.getPool f = some p → p.instances = ∅ ∧ p.sessions = ∅ ∧ p.funcKey = f := by
      intro f p hp
      obtain ⟨spec, rfl⟩ := hinit.pools f p hp
      exact ⟨rfl, rfl, rfl⟩
    refine ⟨fun f p hp => (hempty f p hp).2.2, ?_, ?_, ?_, ?_⟩
    · intro f p hp
      obtain ⟨hins, hsess, -⟩ := hempty f p hp
      refine ⟨?_, ?_, ?_⟩
      · intro i ins h
        rw [hins] at h
        cases h
      · intro i ins h
        rw [hins] at h
        cases h
      · intro k b h
        rw [hsess] at h
        cases h
    · intro id a h
      rw [hinit.allocations] at h
      cases h
    · intro id a h
      rw [hinit.allocations] at h
      cases h
    · intro tid pc h
      rw [hinit.threads] at h
      cases h
  · intro s e s' l _ _ hwf hstep
    exact (step_effect hwf hstep).wellFormed hwf

end Yuanrong.Lite
