import Yuanrong.LiteScheduler.System
import Yuanrong.LiteScheduler.Proof.PoolLemmas

/-!
# What a step can do

The one place where the step function is taken apart. `Effect` lists what a step may do to the
scheduler, with the guards it has passed; everything proved about runs is proved from this list.
-/

namespace Yuanrong.Lite

open Option TimeWheel LiteScheduler LiteFunctionPool

def Pc.token : Pc → Option Allocation
  | .removeTask alloc => some alloc
  | .releaseSlot alloc => some alloc
  | .reapSlot alloc => some alloc
  | _ => none

def Pc.unbinds : Pc → Option (String × String)
  | .snapshotSlot alloc (some sessionKey) => some (alloc.funcKey, sessionKey)
  | .startTimer funcKey sessionKey _ _ => some (funcKey, sessionKey)
  | _ => none

def Pc.renews : Pc → Option String
  | .updateTask allocID _ => some allocID
  | _ => none

def Pc.Plain (pc : Pc) : Prop := pc.token = none ∧ pc.unbinds = none ∧ pc.renews = none

structure LiteRequest.Admitted (ls : LiteScheduler) (req : LiteRequest) : Prop where
  pool : ∃ pool, ls.getPool req.funcKey = some pool ∧
    req.bindingKey = pool.sessionBindingKey req.sessionID req.sessionCtxID
  concurrency : 1 ≤ req.concurrency
  sessionTTL : 0 ≤ req.sessionTTL

structure ReacquireParams.Admitted (ls : LiteScheduler) (params : ReacquireParams) : Prop where
  pool : ∃ pool, ls.getPool params.funcKey = some pool
  concurrency : 1 ≤ params.concurrency
  parsed : ∃ id, parseLiteAllocationID params.allocID = some id ∧
    id.instanceID = params.instanceID

def Pc.Valid (ls : LiteScheduler) : Pc → Prop
  | .sticky req => req.Admitted ls
  | .dispatch req => req.Admitted ls
  | .coldStart req => req.Admitted ls
  | .poll req _ => req.Admitted ls
  | .removeTask alloc => ∃ pool, ls.getPool alloc.funcKey = some pool
  | .releaseSlot alloc => ∃ pool, ls.getPool alloc.funcKey = some pool
  | .reapSlot alloc => ∃ pool, ls.getPool alloc.funcKey = some pool
  | .snapshotSlot alloc _ => ∃ pool, ls.getPool alloc.funcKey = some pool
  | .startTimer funcKey _ _ _ => ∃ pool, ls.getPool funcKey = some pool
  | .reacquire params => params.Admitted ls
  | _ => True

structure LiteFunctionPool.WellFormed (p : LiteFunctionPool) : Prop where
  instanceID : ∀ i ins, p.instances.lookup i = some ins → ins.instanceID = i
  schedulable : ∀ i ins, p.instances.lookup i = some ins → ins.schedulable = true
  bound : ∀ k b, p.sessions.lookup k = some b → ∃ ins, p.instances.lookup b.instanceID = some ins

structure System.WellFormed (s : System) : Prop where
  funcKey : ∀ f p, s.ls.getPool f = some p → p.funcKey = f
  pool : ∀ f p, s.ls.getPool f = some p → p.WellFormed
  allocationID : ∀ id alloc, s.ls.allocations.lookup id = some alloc → alloc.allocationID = id
  instance_mem : ∀ id alloc, s.ls.allocations.lookup id = some alloc →
    ∃ p ins, s.ls.getPool alloc.funcKey = some p ∧ p.instances.lookup alloc.instanceID = some ins
  thread : ∀ tid pc, s.threads.lookup tid = some pc → pc.Valid s.ls

/-! ### Fields -/

namespace LiteScheduler

variable (cfg : Config) (ls : LiteScheduler)

@[simp]
theorem setWheel_pools (result : Except TaskError SimpleTimeWheel) :
    (ls.setWheel result).pools = ls.pools := by
  unfold setWheel
  split <;> rfl

@[simp]
theorem setWheel_allocations (result : Except TaskError SimpleTimeWheel) :
    (ls.setWheel result).allocations = ls.allocations := by
  unfold setWheel
  split <;> rfl

def assignedPool (pool : LiteFunctionPool) (req : LiteRequest) (slot : LiteInstance)
    (sticky : Bool) : LiteFunctionPool :=
  applySlotBinding { pool with seqCounter := nextSeq pool } req slot.instanceID sticky

def assignedAlloc (pool : LiteFunctionPool) (req : LiteRequest) (slot : LiteInstance) : Allocation :=
  newAllocation cfg ls req
    (genAllocationID cfg.hash req.bindingKey slot.instanceID (toInt64 (nextSeq pool)))
    slot.instanceID

variable (pool : LiteFunctionPool) (req : LiteRequest) (slot : LiteInstance) (sticky : Bool)

@[simp]
theorem assignInstance_granted : (assignInstance cfg ls pool req slot sticky).granted =
    some (assignedAlloc cfg ls pool req slot) := rfl

@[simp]
theorem assignInstance_pools : (assignInstance cfg ls pool req slot sticky).ls.pools =
    ls.pools.insert req.funcKey (assignedPool pool req slot sticky) :=
  setWheel_pools _ _

@[simp]
theorem assignInstance_allocations : (assignInstance cfg ls pool req slot sticky).ls.allocations =
    ls.allocations.insert (assignedAlloc cfg ls pool req slot).allocationID
      (assignedAlloc cfg ls pool req slot) :=
  setWheel_allocations _ _

end LiteScheduler

/-- What comes of a unit that is released or reaped, and the session to be timed. -/
inductive Returned (p : LiteFunctionPool) (a : Allocation) :
    LiteFunctionPool → Option String → Prop
  | session (hsession : a.sessionID ≠ "") :
      Returned p a (p.unbindSessionOnRelease (p.sessionBindingKey a.sessionID a.sessionCtxID)).1
        (if (p.unbindSessionOnRelease (p.sessionBindingKey a.sessionID a.sessionCtxID)).2 then
          some (p.sessionBindingKey a.sessionID a.sessionCtxID)
        else
          none)
  | unit {slot : LiteInstance} (hsession : a.sessionID = "")
      (hslot : p.instances.lookup a.instanceID = some slot) (hpos : 0 < slot.inUse) :
      Returned p a (p.addInUse a.instanceID (-1)) none
  | gone (hslot : p.instances.lookup a.instanceID = none) : Returned p a p none
  | empty {slot : LiteInstance} (hsession : a.sessionID = "")
      (hslot : p.instances.lookup a.instanceID = some slot) (hnone : slot.inUse ≤ 0) :
      Returned p a p none

theorem returned_releaseSlotLocked (p : LiteFunctionPool) (a : Allocation) :
    Returned p a (releaseSlotLocked p a).1 (releaseSlotLocked p a).2 := by
  unfold releaseSlotLocked
  split
  · rename_i hslot
    exact .gone hslot
  rename_i slot hslot
  split
  · rename_i hsession
    exact .session hsession
  rename_i hsession
  split
  · rename_i hpos
    exact .unit (not_not.mp hsession) hslot hpos
  · rename_i hnone
    exact .empty (not_not.mp hsession) hslot (not_lt.mp hnone)

theorem returned_reapSlotLocked (p : LiteFunctionPool) (a : Allocation) :
    Returned p a (reapSlotLocked p a).1 (reapSlotLocked p a).2 := by
  unfold reapSlotLocked
  split
  · rename_i hsession
    exact .session hsession
  rename_i hsession
  split
  · rename_i hslot
    exact .gone hslot
  rename_i slot hslot
  split
  · rename_i hpos
    exact .unit (not_not.mp hsession) hslot hpos
  · rename_i hnone
    exact .empty (not_not.mp hsession) hslot (not_lt.mp hnone)

inductive Effect (cfg : Config) (s : System) : Event → System × Label → Prop
  | move {e : Event} {tid : Nat} {o : Outcome} (hls : o.ls = s.ls) (hgranted : o.granted = none)
      (htoken : o.next.bind Pc.token = (s.threads.lookup tid).bind Pc.token)
      (hunbinds : o.next.bind Pc.unbinds = (s.threads.lookup tid).bind Pc.unbinds)
      (hrenews : o.next.bind Pc.renews = (s.threads.lookup tid).bind Pc.renews)
      (hvalid : ∀ pc, o.next = some pc → pc.Valid s.ls) :
      Effect cfg s e (s.finish tid o)
  | cursor {e : Event} {tid : Nat} {o : Outcome} {f : String} {pool : LiteFunctionPool}
      {d : Dispatcher} (hpool : s.ls.getPool f = some pool)
      (hls : o.ls = s.ls.setPool f { pool with dispatcher := d }) (hgranted : o.granted = none)
      (htoken : o.next.bind Pc.token = (s.threads.lookup tid).bind Pc.token)
      (hunbinds : o.next.bind Pc.unbinds = (s.threads.lookup tid).bind Pc.unbinds)
      (hrenews : o.next.bind Pc.renews = (s.threads.lookup tid).bind Pc.renews)
      (hvalid : ∀ pc, o.next = some pc → pc.Valid s.ls) :
      Effect cfg s e (s.finish tid o)
  | stickyGrant {tid : Nat} {choice : Choice} {req : LiteRequest} {pool : LiteFunctionPool}
      {slot : LiteInstance} {b : SessionBinding}
      (hpc : s.threads.lookup tid = some (.sticky req) ∨ s.threads.lookup tid = some (.dispatch req))
      (hpool : s.ls.getPool req.funcKey = some pool)
      (hbinding : pool.sessions.lookup req.bindingKey = some b)
      (hslot : pool.instances.lookup b.instanceID = some slot)
      (hroom : 0 < b.reserved ∨ slot.inUse < slot.capacity) :
      Effect cfg s (.run tid choice)
        (s.finish tid (assignInstance cfg s.ls (pool.cancelSessionUnbind req.bindingKey) req slot true))
  | freshGrant {tid : Nat} {choice : Choice} {req : LiteRequest} {pool : LiteFunctionPool}
      {slot : LiteInstance} {d : Dispatcher}
      (hpc : (s.threads.lookup tid = some (.dispatch req) ∧
          pool.sessions.lookup req.bindingKey = none) ∨
        ∃ deadline, s.threads.lookup tid = some (.poll req deadline))
      (hpool : s.ls.getPool req.funcKey = some pool)
      (hslot : pool.instances.lookup slot.instanceID = some slot)
      (hfits : req.concurrency ≤ slot.capacity - slot.inUse)
      (hreclaiming : slot.reclaiming = false ∨
        (s.threads.lookup tid = some (.dispatch req) ∧ choice.storeRec = some slot.instanceID)) :
      Effect cfg s (.run tid choice)
        (s.finish tid (assignInstance cfg s.ls { pool with dispatcher := d } req slot false))
  | release {tid : Nat} {allocID : String} {alloc : Allocation}
      (hfree : s.threads.lookup tid = none) (halloc : s.ls.allocations.lookup allocID = some alloc) :
      Effect cfg s (.release tid allocID)
        (s.finish tid (.goto { s.ls with allocations := s.ls.allocations.erase allocID }
          (.removeTask alloc)))
  | removeTask {tid : Nat} {choice : Choice} {alloc : Allocation}
      (hpc : s.threads.lookup tid = some (.removeTask alloc)) :
      Effect cfg s (.run tid choice)
        (s.finish tid (.goto (s.ls.removeExpiryTask alloc.allocationID) (.releaseSlot alloc)))
  | returned {tid : Nat} {choice : Choice} {pc : Pc} {alloc : Allocation}
      {pool pool' : LiteFunctionPool} {unbind : Option String} {next : Option Pc}
      (hpc : s.threads.lookup tid = some pc) (htoken : pc.token = some alloc)
      (hpool : s.ls.getPool alloc.funcKey = some pool)
      (hreturned : Returned pool alloc pool' unbind) (hnext : next.bind Pc.token = none)
      (hunbinds : next.bind Pc.unbinds = unbind.map fun key => (alloc.funcKey, key))
      (hrenews : next.bind Pc.renews = none) (hvalid : ∀ pc, next = some pc → pc.Valid s.ls) :
      Effect cfg s (.run tid choice)
        (s.finish tid { ls := s.ls.setPool alloc.funcKey pool', next })
  | startTimer {tid : Nat} {choice : Choice} {f k : String} {ttl : Int}
      {reply : Option InstanceResponse} {pool : LiteFunctionPool}
      (hpc : s.threads.lookup tid = some (.startTimer f k ttl reply))
      (hpool : s.ls.getPool f = some pool) :
      Effect cfg s (.run tid choice)
        (s.finish tid { ls := s.ls.setPool f (pool.startSessionUnbindTimer k ttl s.ls.now), reply })
  | dropAlloc {tid : Nat} {choice : Choice} {allocID : String} {reply : InstanceResponse}
      (hpc : s.threads.lookup tid = some (.dropAlloc allocID reply)) :
      Effect cfg s (.run tid choice)
        (s.finish tid (.goto { s.ls with allocations := s.ls.allocations.erase allocID }
          (.dropTask allocID reply)))
  | dropTask {tid : Nat} {choice : Choice} {allocID : String} {reply : InstanceResponse}
      (hpc : s.threads.lookup tid = some (.dropTask allocID reply)) :
      Effect cfg s (.run tid choice)
        (s.finish tid (.answer (s.ls.removeExpiryTask allocID) reply))
  | refresh {tid : Nat} {choice : Choice} {allocID : String} {alloc : Allocation}
      {reply : InstanceResponse}
      (hpc : (∃ slot, s.threads.lookup tid = some (.refresh allocID slot)) ∨
        ∃ params : ReacquireParams, params.allocID = allocID ∧
          s.threads.lookup tid = some (.reacquire params))
      (halloc : s.ls.allocations.lookup allocID = some alloc) :
      Effect cfg s (.run tid choice)
        (s.finish tid (.goto
          { s.ls with allocations := s.ls.allocations.insert allocID (extendLease cfg s.ls alloc) }
          (.updateTask allocID reply)))
  | updateTask {tid : Nat} {choice : Choice} {allocID : String} {reply : InstanceResponse}
      (hpc : s.threads.lookup tid = some (.updateTask allocID reply)) :
      Effect cfg s (.run tid choice)
        (s.finish tid (.answer (updateExpiryTask cfg s.ls allocID) reply))
  | reacquireGrant {tid : Nat} {choice : Choice} {params : ReacquireParams}
      {pool : LiteFunctionPool} {slot : LiteInstance} {reply : InstanceResponse}
      (hpc : s.threads.lookup tid = some (.reacquire params))
      (hpool : s.ls.getPool params.funcKey = some pool)
      (hslot : pool.instances.lookup params.instanceID = some slot)
      (hbinding : ∀ b, pool.sessions.lookup
          (pool.sessionBindingKey params.sessionID params.sessionCtxID) = some b →
        params.sessionID ≠ "" → b.instanceID = params.instanceID)
      (halloc : s.ls.allocations.lookup params.allocID = none) :
      Effect cfg s (.run tid choice)
        (s.finish tid
          { ls := { s.ls.setPool params.funcKey (buildReacquiredAlloc pool params) with
              allocations := s.ls.allocations.insert params.allocID
                (reacquiredAllocation cfg s.ls params) }
            next := some (.updateTask params.allocID reply)
            granted := some (reacquiredAllocation cfg s.ls params) })
  | tick {order : List String} (hpending : s.ls.tickPending = true)
      (horder : order.Perm s.ls.expiryWheel.fired) :
      Effect cfg s (.tick order)
        ({ s with ls := { s.ls with
            expiryWheel := s.ls.expiryWheel.tick
            tickPending := false
            ready := if order = [] then s.ls.ready else s.ls.ready ++ [order] } }, {})
  | wait {list : List String} {rest : List (List String)} (hbatch : s.ls.batch = [])
      (hready : s.ls.ready = list :: rest) :
      Effect cfg s .wait ({ s with ls := { s.ls with batch := list, ready := rest } }, {})
  | reapNone {allocID : String} {rest : List String} (hbatch : s.ls.batch = allocID :: rest) :
      Effect cfg s .reap ({ s with ls := { s.ls with batch := rest } }, {})
  | reap {allocID : String} {rest : List String} {alloc : Allocation}
      (hidle : s.threads.lookup reaperTid = none) (hbatch : s.ls.batch = allocID :: rest)
      (halloc : s.ls.allocations.lookup allocID = some alloc) :
      Effect cfg s .reap
        ({ ls := { s.ls with batch := rest, allocations := s.ls.allocations.erase allocID }
           threads := s.threads.insert reaperTid (.reapSlot alloc) }, { reaped := some alloc })
  | fire {f : String} {ref : Nat} {pool : LiteFunctionPool} {timer : SessionTimer}
      (hpool : s.ls.getPool f = some pool) (htimer : pool.timers.lookup ref = some timer) :
      Effect cfg s (.timerFire f ref)
        ({ s with ls := s.ls.setPool f (pool.fireSessionUnbind ref timer) }, {})
  | upsert {f : String} {ins : Instance} {pool : LiteFunctionPool}
      (hpool : s.ls.getPool f = some pool) (hstatus : mapStatus ins.statusCode ≠ .unavailable) :
      Effect cfg s (.instanceUpdate f ins)
        ({ s with ls := s.ls.setPool f (pool.upsertInstance ins) }, {})
  | remove {e : Event} {f i : String} {pool : LiteFunctionPool}
      (hpool : s.ls.getPool f = some pool) :
      Effect cfg s e ({ s with ls := s.ls.removeInstanceLocked f pool i }, {})
  | quiet {e : Event} {f : String} {pool pool' : LiteFunctionPool} {reports : List IdleInstance}
      (hpool : s.ls.getPool f = some pool) (hquiet : Quiet pool pool') :
      Effect cfg s e ({ s with ls := { s.ls.setPool f pool' with reports } }, {})
  | report {e : Event} {reports : List IdleInstance} :
      Effect cfg s e ({ s with ls := { s.ls with reports } }, {})
  | elapse {d : Nat} : Effect cfg s (.elapse d) ({ s with ls := s.ls.elapse d }, {})

/-! ### Taking the step function apart -/

variable {o : Outcome} {tid : Nat}

section Sections

variable {cfg : Config} {s : System} {tid : Nat} {choice : Choice} {pool : LiteFunctionPool}
  {p : LiteFunctionPool}

theorem tryLocalStickyLocked_cases (hwf : p.WellFormed) (k : String) :
    (p.sessions.lookup k = none ∧ p.tryLocalStickyLocked k = (p, .miss)) ∨
    ∃ b slot, p.sessions.lookup k = some b ∧ p.instances.lookup b.instanceID = some slot ∧
      (((0 < b.reserved ∨ slot.inUse < slot.capacity) ∧
          p.tryLocalStickyLocked k = (p.cancelSessionUnbind k, .hit slot b)) ∨
        p.tryLocalStickyLocked k = (p, .full slot b)) := by
  unfold tryLocalStickyLocked
  cases hbinding : p.sessions.lookup k with
  | none => exact .inl ⟨rfl, rfl⟩
  | some b =>
    obtain ⟨slot, hslot⟩ := hwf.bound k b hbinding
    have hsched := hwf.schedulable _ _ hslot
    refine .inr ⟨b, slot, rfl, hslot, ?_⟩
    simp only [hslot, hsched, Bool.not_true, Bool.false_eq_true, if_false]
    split
    · rename_i hroom
      exact .inl ⟨by simpa using hroom, rfl⟩
    · exact .inr rfl

theorem mem_candidateSlotsLocked (hwf : p.WellFormed) (hmem : slot ∈ p.candidateSlotsLocked order ctx c) :
    p.instances.lookup slot.instanceID = some slot ∧ slot.reclaiming = false ∧
      c ≤ slot.capacity - slot.inUse := by
  rw [candidateSlotsLocked, List.mem_filter, List.mem_filterMap] at hmem
  obtain ⟨⟨i, -, hslot⟩, hcond⟩ := hmem
  simp only [Bool.and_eq_true, LiteInstance.fits, decide_eq_true_eq, Bool.not_eq_true'] at hcond
  refine ⟨?_, hcond.1.1.2, hcond.2⟩
  rw [hwf.instanceID i slot hslot]
  exact hslot

theorem bind_plain {o : Option Pc} (h : o.elim True Pc.Plain) :
    none = o.bind Pc.token ∧ none = o.bind Pc.unbinds ∧ none = o.bind Pc.renews := by
  cases o with
  | none => exact ⟨rfl, rfl, rfl⟩
  | some pc =>
    obtain ⟨htoken, hunbinds, hrenews⟩ := h
    exact ⟨htoken.symm, hunbinds.symm, hrenews.symm⟩

theorem effect_answer (hpc : s.threads.lookup tid = old) (hplain : old.elim True Pc.Plain)
    (reply : InstanceResponse) : Effect cfg s e (s.finish tid (.answer s.ls reply)) := by
  subst hpc
  obtain ⟨htoken, hunbinds, hrenews⟩ := bind_plain hplain
  refine .move rfl rfl htoken hunbinds hrenews ?_
  rintro _ ⟨⟩

theorem effect_goto (hpc : s.threads.lookup tid = old) (hplain : old.elim True Pc.Plain) (hnext : next.Plain)
    (hvalid : next.Valid s.ls) : Effect cfg s e (s.finish tid (.goto s.ls next)) := by
  subst hpc
  obtain ⟨htoken, hunbinds, hrenews⟩ := bind_plain hplain
  obtain ⟨htoken', hunbinds', hrenews'⟩ := hnext
  refine .move rfl rfl (htoken'.trans htoken) (hunbinds'.trans hunbinds) (hrenews'.trans hrenews) ?_
  rintro pc ⟨rfl⟩
  exact hvalid

variable {req : LiteRequest}

section

variable (hwf : s.WellFormed) (hpool : s.ls.getPool req.funcKey = some pool)
include hwf hpool

theorem effect_tryDispatch (hpc : s.threads.lookup tid = some pc) (hplain : pc.Plain)
    (hreq : (pc = .dispatch req ∧ pool.sessions.lookup req.bindingKey = none) ∨
      ∃ deadline, pc = .poll req deadline)
    (hother : ∀ ls, (∃ reply, otherwise ls = .answer ls reply) ∨
      ∃ next : Pc, otherwise ls = .goto ls next ∧ next.Plain ∧ next.Valid s.ls) :
    Effect cfg s (.run tid choice)
      (s.finish tid (tryDispatch cfg s.ls pool req choice.order otherwise)) := by
  obtain ⟨htoken, hunbinds, hrenews⟩ := bind_plain (o := some pc) hplain
  rw [← hpc] at htoken hunbinds hrenews
  unfold tryDispatch
  dsimp only
  split
  · rename_i chosen d hselect
    obtain ⟨hslot, hreclaiming, hfits⟩ :=
      mem_candidateSlotsLocked (hwf.pool _ _ hpool) (Dispatcher.mem_of_select hselect)
    refine .freshGrant ?_ hpool hslot hfits (.inl hreclaiming)
    rcases hreq with ⟨rfl, hbinding⟩ | ⟨deadline, rfl⟩
    · exact .inl ⟨hpc, hbinding⟩
    · exact .inr ⟨deadline, hpc⟩
  · rename_i d hselect
    rcases hother (s.ls.setPool req.funcKey { pool with dispatcher := d }) with
      ⟨reply, hother⟩ | ⟨next, hother, ⟨htoken', hunbinds', hrenews'⟩, hvalid⟩
    · rw [hother]
      refine .cursor hpool rfl rfl htoken hunbinds hrenews ?_
      rintro _ ⟨⟩
    · rw [hother]
      refine .cursor hpool rfl rfl (htoken'.trans htoken) (hunbinds'.trans hunbinds)
        (hrenews'.trans hrenews) ?_
      rintro pc ⟨rfl⟩
      exact hvalid

theorem effect_tryLocalSticky (hpc : s.threads.lookup tid = some (.sticky req)) :
    Effect cfg s (.run tid choice) (s.finish tid (tryLocalSticky cfg s.ls pool req)) := by
  have hvalid : req.Admitted s.ls := hwf.thread tid _ hpc
  unfold tryLocalSticky
  rcases tryLocalStickyLocked_cases (hwf.pool _ _ hpool) req.bindingKey with
    ⟨-, hsticky⟩ | ⟨b, slot, hbinding, hslot, ⟨hroom, hsticky⟩ | hsticky⟩
  · rw [hsticky]
    refine .cursor hpool rfl rfl ?_ ?_ ?_ ?_
    · rw [hpc]
      rfl
    · rw [hpc]
      rfl
    · rw [hpc]
      rfl
    · rintro pc ⟨rfl⟩
      exact hvalid
  · rw [hsticky]
    exact .stickyGrant (.inl hpc) hpool hbinding hslot hroom
  · rw [hsticky]
    exact effect_answer hpc ⟨rfl, rfl, rfl⟩ _

theorem effect_dispatch (hpc : s.threads.lookup tid = some (.dispatch req)) :
    Effect cfg s (.run tid choice)
      (s.finish tid (acquireDispatchOrColdStart cfg s.ls pool req choice)) := by
  have hvalid : req.Admitted s.ls := hwf.thread tid _ hpc
  unfold acquireDispatchOrColdStart
  rcases tryLocalStickyLocked_cases (hwf.pool _ _ hpool) req.bindingKey with
    ⟨hbinding, hsticky⟩ | ⟨b, slot, hbinding, hslot, ⟨hroom, hsticky⟩ | hsticky⟩
  · rw [hsticky]
    dsimp only
    split
    · rename_i slot hrecover
      unfold tryStoreRecoveryLocked at hrecover
      split at hrecover
      · cases hrecover
      rename_i i hstore
      split at hrecover
      · cases hrecover
      obtain ⟨hslot, hcond⟩ := filter_eq_some_iff.mp hrecover
      simp only [Bool.and_eq_true, LiteInstance.fits, decide_eq_true_eq] at hcond
      have hid : slot.instanceID = i := (hwf.pool _ _ hpool).instanceID i slot hslot
      exact .freshGrant (.inl ⟨hpc, hbinding⟩) hpool (hid ▸ hslot) hcond.1.2 (.inr ⟨hpc, hid ▸ hstore⟩)
    · apply effect_tryDispatch hwf hpool hpc ⟨rfl, rfl, rfl⟩ (.inl ⟨rfl, hbinding⟩)
      intro ls
      exact .inr ⟨.coldStart req, rfl, ⟨rfl, rfl, rfl⟩, hvalid⟩
  · rw [hsticky]
    exact .stickyGrant (.inr hpc) hpool hbinding hslot hroom
  · rw [hsticky]
    exact effect_answer hpc ⟨rfl, rfl, rfl⟩ _

end

theorem effect_reacquire (hpc : s.threads.lookup tid = some (.reacquire params))
    (hpool : s.ls.getPool params.funcKey = some pool) :
    Effect cfg s (.run tid choice) (s.finish tid (reacquireLocked cfg s.ls pool params)) := by
  unfold reacquireLocked
  split
  · exact effect_answer hpc ⟨rfl, rfl, rfl⟩ _
  rename_i slot hcheck
  split
  · rename_i alloc halloc
    exact .refresh (.inr ⟨params, rfl, hpc⟩) halloc
  rename_i halloc
  unfold checkReacquireSlotLocked at hcheck
  split at hcheck
  · cases hcheck
  rename_i slot' hslot
  split at hcheck
  · cases hcheck
  split at hcheck
  · cases hcheck
  split at hcheck
  · rename_i hbinding
    cases hcheck
    refine .reacquireGrant hpc hpool hslot ?_ halloc
    intro b hb
    rw [hbinding] at hb
    cases hb
  · rename_i b hbinding
    split at hcheck
    · cases hcheck
    rename_i hsame
    cases hcheck
    refine .reacquireGrant hpc hpool hslot ?_ halloc
    intro b' hb' hsession
    rw [hbinding] at hb'
    cases hb'
    by_contra hne
    exact hsame ⟨hsession, hne⟩

theorem unbinds_snapshotSlot (alloc : Allocation) (unbind : Option String) :
    (some (Pc.snapshotSlot alloc unbind)).bind Pc.unbinds =
      unbind.map fun key => (alloc.funcKey, key) := by
  cases unbind <;> rfl

theorem owes_startTimer (alloc : Allocation) (unbind : Option String) :
    let next := unbind.map fun key => Pc.startTimer alloc.funcKey key alloc.sessionTTL none
    next.bind Pc.token = none ∧
      next.bind Pc.unbinds = (unbind.map fun key => (alloc.funcKey, key)) ∧
      next.bind Pc.renews = none := by
  cases unbind <;> exact ⟨rfl, rfl, rfl⟩

theorem effect_advance (hwf : s.WellFormed) (hpc : s.threads.lookup tid = some pc)
    (hadvance : advance cfg s.ls pc choice = some o) : Effect cfg s (.run tid choice) (s.finish tid o) := by
  have hvalid := hwf.thread tid pc hpc
  cases pc with
  | sticky =>
    obtain ⟨pool, hpool, rfl⟩ := map_eq_some_iff.mp hadvance
    exact effect_tryLocalSticky hwf hpool hpc
  | dispatch =>
    obtain ⟨pool, hpool, horder⟩ := bind_eq_some_iff.mp hadvance
    split at horder
    · cases horder
      exact effect_dispatch hwf hpool hpc
    · cases horder
  | coldStart req =>
    cases hadvance
    have hwait : Effect cfg s (.run tid choice) (s.finish tid (waitForInstance cfg s.ls req)) := by
      unfold waitForInstance
      split
      · exact effect_answer hpc ⟨rfl, rfl, rfl⟩ _
      · exact effect_goto hpc ⟨rfl, rfl, rfl⟩ ⟨rfl, rfl, rfl⟩ hvalid
    unfold handleColdStart
    split
    · split
      · exact effect_answer hpc ⟨rfl, rfl, rfl⟩ _
      · exact hwait
    · exact hwait
  | poll =>
    obtain ⟨pool, hpool, horder⟩ := bind_eq_some_iff.mp hadvance
    split at horder
    · cases horder
      apply effect_tryDispatch hwf hpool hpc ⟨rfl, rfl, rfl⟩ (.inr ⟨_, rfl⟩)
      intro ls
      split
      · exact .inl ⟨_, rfl⟩
      · exact .inr ⟨_, rfl, ⟨rfl, rfl, rfl⟩, hwf.thread tid _ hpc⟩
    · cases horder
  | removeTask =>
    cases hadvance
    exact .removeTask hpc
  | releaseSlot alloc =>
    cases hadvance
    obtain ⟨pool, hpool⟩ := hvalid
    unfold releaseInPool
    rw [hpool]
    refine .returned hpc rfl hpool (returned_releaseSlotLocked pool alloc) rfl
      (unbinds_snapshotSlot alloc _) rfl ?_
    rintro pc ⟨rfl⟩
    exact ⟨pool, hpool⟩
  | snapshotSlot =>
    cases hadvance
    unfold snapshotSlot
    split
    · exact effect_answer hpc ⟨rfl, rfl, rfl⟩ _
    refine .move rfl rfl ?_ ?_ ?_ ?_
    · rw [hpc]
      rfl
    · rw [hpc]
      rfl
    · rw [hpc]
      rfl
    · rintro pc ⟨rfl⟩
      exact hvalid
  | reapSlot alloc =>
    cases hadvance
    obtain ⟨pool, hpool⟩ := hvalid
    unfold reapInPool
    rw [hpool]
    obtain ⟨hnext, hunbinds, hrenews⟩ := owes_startTimer alloc (reapSlotLocked pool alloc).2
    refine .returned hpc rfl hpool (returned_reapSlotLocked pool alloc) hnext hunbinds hrenews ?_
    intro pc hnext
    obtain ⟨key, -, rfl⟩ := map_eq_some_iff.mp hnext
    exact ⟨pool, hpool⟩
  | startTimer =>
    cases hadvance
    obtain ⟨pool, hpool⟩ := hvalid
    unfold startUnbindTimer
    rw [hpool]
    exact .startTimer hpc hpool
  | validateRetain =>
    cases hadvance
    unfold validateRetainTarget
    split
    · exact effect_goto hpc ⟨rfl, rfl, rfl⟩ ⟨rfl, rfl, rfl⟩ trivial
    split
    · exact effect_goto hpc ⟨rfl, rfl, rfl⟩ ⟨rfl, rfl, rfl⟩ trivial
    split
    all_goals exact effect_goto hpc ⟨rfl, rfl, rfl⟩ ⟨rfl, rfl, rfl⟩ trivial
  | dropAlloc =>
    cases hadvance
    exact .dropAlloc hpc
  | dropTask =>
    cases hadvance
    exact .dropTask hpc
  | refresh _ slot =>
    cases hadvance
    unfold refreshRetainTTL
    split
    · exact effect_answer hpc ⟨rfl, rfl, rfl⟩ _
    · rename_i alloc halloc
      exact .refresh (.inl ⟨slot, hpc⟩) halloc
  | updateTask =>
    cases hadvance
    exact .updateTask hpc
  | reacquire =>
    obtain ⟨pool, hpool, rfl⟩ := map_eq_some_iff.mp hadvance
    exact effect_reacquire hpc hpool

end Sections

/-! ### Any step -/

section Step

variable {s : System}

theorem spawn_eq_some (hspawn : s.spawn tid o = some r) :
    s.threads.lookup tid = none ∧ r = s.finish tid o := by
  obtain ⟨hfree, hspawn⟩ := ite_none_right_eq_some.mp hspawn
  exact ⟨hfree.2, (Option.some.inj hspawn).symm⟩

theorem background_eq_some (hstep : s.background ls = some r) :
    ∃ ls', ls = some ls' ∧ r = ({ s with ls := ls' }, {}) := by
  obtain ⟨ls', hls, hr⟩ := map_eq_some_iff.mp hstep
  exact ⟨ls', hls, hr.symm⟩

theorem admitted_of_checkConcurrencyLimit (hcheck : checkConcurrencyLimit pool c = none) : 1 ≤ c := by
  unfold checkConcurrencyLimit at hcheck
  split at hcheck
  · cases hcheck
  split at hcheck
  · cases hcheck
  · rename_i hmin
    simpa [minConcurrency] using hmin

theorem parsed_of_validateReacquireRequest
    (hvalidate : validateReacquireRequest cfg allocID metrics owner = .ok params) :
    params.allocID = allocID ∧
      ∃ id, parseLiteAllocationID params.allocID = some id ∧ id.instanceID = params.instanceID := by
  unfold validateReacquireRequest at hvalidate
  split at hvalidate
  · cases hvalidate
  split at hvalidate
  · cases hvalidate
  rename_i id hparse
  split at hvalidate
  · cases hvalidate
  cases hvalidate
  exact ⟨rfl, id, hparse, rfl⟩

theorem effect_retain (hfree : s.threads.lookup tid = none) :
    Effect cfg s (.retain tid allocID metrics owner)
      (s.finish tid (handleRetain cfg s.ls allocID metrics owner)) := by
  unfold handleRetain
  split
  · unfold reacquireAllocation
    split
    · exact effect_answer hfree trivial _
    rename_i params hvalidate
    split
    · exact effect_answer hfree trivial _
    rename_i pool hpool
    split
    · exact effect_answer hfree trivial _
    rename_i hcheck
    apply effect_goto hfree trivial ⟨rfl, rfl, rfl⟩
    exact ⟨⟨pool, hpool⟩, admitted_of_checkConcurrencyLimit hcheck,
      (parsed_of_validateReacquireRequest hvalidate).2⟩
  split
  · exact effect_goto hfree trivial ⟨rfl, rfl, rfl⟩ trivial
  · exact effect_answer hfree trivial _

theorem poolEvent_eq_some
    (hevent : s.ls.poolEvent f g = some ls') : ∃ pool, s.ls.getPool f = some pool ∧ ls' = g pool := by
  obtain ⟨pool, hpool, hls⟩ := map_eq_some_iff.mp hevent
  exact ⟨pool, hpool, hls.symm⟩

/-- **Inversion.** Every step from a well-formed state is one of the listed effects. -/
theorem step_effect (hwf : s.WellFormed) (hstep : s.step cfg e = some r) : Effect cfg s e r := by
  cases e with
  | acquire =>
    obtain ⟨hfree, rfl⟩ := spawn_eq_some hstep
    unfold handleAcquire
    split
    · exact effect_answer hfree trivial _
    rename_i httl
    split
    · exact effect_answer hfree trivial _
    rename_i pool hpool
    split
    · exact effect_answer hfree trivial _
    rename_i hcheck
    apply effect_goto hfree trivial ⟨rfl, rfl, rfl⟩
    exact ⟨⟨pool, hpool, rfl⟩, admitted_of_checkConcurrencyLimit hcheck, not_lt.mp httl⟩
  | release =>
    obtain ⟨hfree, rfl⟩ := spawn_eq_some hstep
    unfold handleRelease
    split
    · exact effect_answer hfree trivial _
    · rename_i alloc halloc
      exact .release hfree halloc
  | retain =>
    obtain ⟨hfree, rfl⟩ := spawn_eq_some hstep
    exact effect_retain hfree
  | run =>
    obtain ⟨pc, hpc, hrun⟩ := bind_eq_some_iff.mp hstep
    obtain ⟨o, hadvance, rfl⟩ := map_eq_some_iff.mp hrun
    exact effect_advance hwf hpc hadvance
  | tick =>
    obtain ⟨ls', htick, rfl⟩ := background_eq_some hstep
    obtain ⟨hguard, rfl⟩ := ite_some_none_eq_some.mp htick
    exact .tick hguard.1 (List.isPerm_iff.mp hguard.2.2)
  | wait =>
    simp only [System.step] at hstep
    split at hstep
    · rename_i list rest _ hbatch hready
      cases hstep
      exact .wait hbatch hready
    · cases hstep
  | reap =>
    obtain ⟨hidle, hstep⟩ := ite_none_right_eq_some.mp hstep
    split at hstep
    · cases hstep
    rename_i allocID rest hbatch
    split at hstep
    · cases hstep
      exact .reapNone hbatch
    rename_i alloc halloc
    cases hstep
    exact .reap hidle hbatch halloc
  | timerLaunch =>
    obtain ⟨ls', hlaunch, rfl⟩ := background_eq_some hstep
    obtain ⟨pool, hpool, hlaunch⟩ := bind_eq_some_iff.mp hlaunch
    obtain ⟨timer, htimer, hlaunch⟩ := bind_eq_some_iff.mp hlaunch
    split at hlaunch
    · cases hlaunch
      exact .quiet hpool (Quiet.launch pool htimer)
    · cases hlaunch
  | timerFire =>
    obtain ⟨ls', hfire, rfl⟩ := background_eq_some hstep
    obtain ⟨pool, hpool, hfire⟩ := bind_eq_some_iff.mp hfire
    obtain ⟨timer, htimer, hfire⟩ := bind_eq_some_iff.mp hfire
    split at hfire
    · cases hfire
      exact .fire hpool htimer
    · cases hfire
  | instanceUpdate =>
    obtain ⟨ls', hevent, rfl⟩ := background_eq_some hstep
    obtain ⟨pool, hpool, rfl⟩ := poolEvent_eq_some hevent
    unfold handleInstanceUpdate
    split
    · exact .remove hpool
    · rename_i hstatus
      exact .upsert hpool hstatus
  | instanceDelete =>
    obtain ⟨ls', hevent, rfl⟩ := background_eq_some hstep
    obtain ⟨pool, hpool, rfl⟩ := poolEvent_eq_some hevent
    exact .remove hpool
  | scanIdle _ ring scanTime =>
    obtain ⟨ls', hevent, rfl⟩ := background_eq_some hstep
    obtain ⟨pool, hpool, rfl⟩ := poolEvent_eq_some hevent
    exact .quiet hpool (Quiet.scanIdle pool ring scanTime)
  | idleReport item =>
    obtain ⟨ls', hreport, rfl⟩ := background_eq_some hstep
    unfold finishIdleReport at hreport
    split at hreport
    · split at hreport
      · rename_i pool hpool
        cases hreport
        exact .quiet hpool (Quiet.resetReclaiming pool item.instanceID)
      · cases hreport
        exact .report
    · cases hreport
  | ringChange _ ring =>
    obtain ⟨ls', hevent, rfl⟩ := background_eq_some hstep
    obtain ⟨pool, hpool, rfl⟩ := poolEvent_eq_some hevent
    exact .quiet hpool (Quiet.ringChange pool ring)
  | elapse =>
    cases hstep
    exact .elapse

end Step

end Yuanrong.Lite
