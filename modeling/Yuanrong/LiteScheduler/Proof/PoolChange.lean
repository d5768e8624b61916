import Yuanrong.LiteScheduler.Proof.WellFormed

/-!
# What a step can do to one pool

A step changes at most one pool. What holds of each pool by itself is proved from this list alone,
without looking at goroutines and allocations.
-/

namespace Yuanrong.Lite

open AList LiteFunctionPool LiteScheduler Option

inductive PoolChange (s : System) (e : Event) (f : String) (p : LiteFunctionPool) :
    LiteFunctionPool → Prop
  | quiet {p' : LiteFunctionPool} (hquiet : Quiet p p') : PoolChange s e f p p'
  | sticky {req : LiteRequest} {slot : LiteInstance} {b : SessionBinding}
      (hreq : req.funcKey = f) (hbinding : p.sessions.lookup req.bindingKey = some b)
      (hslot : p.instances.lookup b.instanceID = some slot)
      (hroom : 0 < b.reserved ∨ slot.inUse < slot.capacity) :
      PoolChange s e f p (assignedPool (p.cancelSessionUnbind req.bindingKey) req slot true)
  | fresh {req : LiteRequest} {slot : LiteInstance} {d : Dispatcher} {tid : Nat} {choice : Choice}
      (hreq : req.funcKey = f) (hconcurrency : 1 ≤ req.concurrency)
      (hslot : p.instances.lookup slot.instanceID = some slot)
      (hfits : req.concurrency ≤ slot.capacity - slot.inUse)
      (hkey : req.bindingKey = p.sessionBindingKey req.sessionID req.sessionCtxID)
      (he : e = .run tid choice)
      (hpc : (s.threads.lookup tid = some (.dispatch req) ∧ p.sessions.lookup req.bindingKey = none) ∨
        ∃ deadline, s.threads.lookup tid = some (.poll req deadline))
      (hreclaiming : slot.reclaiming = false ∨
        (s.threads.lookup tid = some (.dispatch req) ∧ choice.storeRec = some slot.instanceID)) :
      PoolChange s e f p (assignedPool { p with dispatcher := d } req slot false)
  | returned {alloc : Allocation} {p' : LiteFunctionPool} {unbind : Option String}
      (hreturned : Returned p alloc p' unbind) : PoolChange s e f p p'
  | startTimer {k : String} {ttl : Int} {now : Nat} :
      PoolChange s e f p (p.startSessionUnbindTimer k ttl now)
  | reacquire {tid : Nat} {choice : Choice} {params : ReacquireParams} {slot : LiteInstance}
      (he : e = .run tid choice) (hpc : s.threads.lookup tid = some (.reacquire params))
      (hparams : params.funcKey = f) (hconcurrency : 1 ≤ params.concurrency)
      (hslot : p.instances.lookup params.instanceID = some slot)
      (halloc : s.ls.allocations.lookup params.allocID = none) :
      PoolChange s e f p (buildReacquiredAlloc p params)
  | fire {ref : Nat} {timer : SessionTimer} (htimer : p.timers.lookup ref = some timer) :
      PoolChange s e f p (p.fireSessionUnbind ref timer)
  | upsert {ins : Instance} (he : e = .instanceUpdate f ins)
      (hstatus : mapStatus ins.statusCode ≠ .unavailable) :
      PoolChange s e f p (p.upsertInstance ins)
  | remove {i : String} : PoolChange s e f p (p.removeInstance i)

section Change

variable {cfg : Config} {s : System} {e : Event} {r : System × Label} {f : String}
  {p p' : LiteFunctionPool} {req : LiteRequest} {i : String}

theorem admitted_of_requests (hwf : s.WellFormed)
    (hpc : (s.threads.lookup tid = some (.dispatch req) ∧ p.sessions.lookup req.bindingKey = none) ∨
      ∃ deadline, s.threads.lookup tid = some (.poll req deadline)) :
    req.Admitted s.ls ∧ (s.threads.lookup tid).bind Pc.token = none := by
  rcases hpc with ⟨hpc, -⟩ | ⟨deadline, hpc⟩
  all_goals
    rw [hpc]
    exact ⟨hwf.thread tid _ hpc, rfl⟩

theorem admitted_of_sticky (hwf : s.WellFormed)
    (hpc : s.threads.lookup tid = some (.sticky req) ∨ s.threads.lookup tid = some (.dispatch req)) :
    req.Admitted s.ls ∧ (s.threads.lookup tid).bind Pc.token = none := by
  rcases hpc with hpc | hpc
  all_goals
    rw [hpc]
    exact ⟨hwf.thread tid _ hpc, rfl⟩

theorem LiteRequest.Admitted.key (hreq : req.Admitted s.ls) (hp : s.ls.getPool req.funcKey = some p) :
    req.bindingKey = p.sessionBindingKey req.sessionID req.sessionCtxID := by
  obtain ⟨q, hq, hkey⟩ := hreq.pool
  rw [hp] at hq
  cases hq
  exact hkey

theorem Effect.pools (hwf : s.WellFormed) (heffect : Effect cfg s e r) :
    r.1.ls.pools = s.ls.pools ∨ ∃ f p p', s.ls.getPool f = some p ∧
      r.1.ls.pools = s.ls.pools.insert f p' ∧ PoolChange s e f p p' := by
  cases heffect with
  | move hls => exact .inl (congrArg pools hls)
  | @cursor _ _ _ f pool d hpool hls =>
    exact .inr ⟨f, pool, _, hpool, congrArg pools hls, .quiet (Quiet.dispatcher pool d)⟩
  | stickyGrant _ hpool hbinding hslot hroom =>
    exact .inr ⟨_, _, _, hpool, assignInstance_pools _ _ _ _ _ _, .sticky rfl hbinding hslot hroom⟩
  | freshGrant hpc hpool hslot hfits hreclaiming =>
    have hadmitted := (admitted_of_requests hwf hpc).1
    exact .inr ⟨_, _, _, hpool, assignInstance_pools _ _ _ _ _ _,
      .fresh rfl hadmitted.concurrency hslot hfits (hadmitted.key hpool) rfl hpc hreclaiming⟩
  | returned _ _ hpool hreturned => exact .inr ⟨_, _, _, hpool, rfl, .returned hreturned⟩
  | startTimer _ hpool => exact .inr ⟨_, _, _, hpool, rfl, .startTimer⟩
  | reacquireGrant hpc hpool hslot _ halloc =>
    have hvalid : ReacquireParams.Admitted s.ls _ := hwf.thread _ _ hpc
    exact .inr ⟨_, _, _, hpool, rfl, .reacquire rfl hpc rfl hvalid.concurrency hslot halloc⟩
  | fire hpool htimer => exact .inr ⟨_, _, _, hpool, rfl, .fire htimer⟩
  | upsert hpool hstatus => exact .inr ⟨_, _, _, hpool, rfl, .upsert rfl hstatus⟩
  | remove hpool => exact .inr ⟨_, _, _, hpool, rfl, .remove⟩
  | quiet hpool hquiet => exact .inr ⟨_, _, _, hpool, rfl, .quiet hquiet⟩
  | updateTask => exact .inl (setWheel_pools _ _)
  | _ => exact .inl rfl

theorem Effect.getPool (hwf : s.WellFormed) (heffect : Effect cfg s e r) (hp' : r.1.ls.getPool f = some p') :
    ∃ p, s.ls.getPool f = some p ∧ (p' = p ∨ PoolChange s e f p p') := by
  rcases heffect.pools hwf with hsame | ⟨g, q, q', hq, hpools, hchange⟩
  · rw [LiteScheduler.getPool, hsame] at hp'
    exact ⟨p', hp', .inl rfl⟩
  rw [LiteScheduler.getPool, hpools] at hp'
  rcases lookup_of_insert hp' with ⟨rfl, rfl⟩ | hold
  · exact ⟨q, hq, .inr hchange⟩
  · exact ⟨p', hold, .inl rfl⟩

/-- What every change of a single pool keeps, under a condition, holds in every such run. -/
theorem pool_invariant {P : LiteFunctionPool → Prop} (hinit : ∀ f spec, P (newPool f spec))
    (hchange : ∀ s e f p p', System.WellFormed s → s.ls.getPool f = some p → ok s e → P p →
      PoolChange s e f p p' → P p')
    (hreach : (scheduler cfg).Reach ok s) (hp : s.ls.getPool f = some p) : P p := by
  refine hreach.invariant (P := fun s => ∀ f p, s.ls.getPool f = some p → P p) ?_ ?_ f p hp
  · intro s hs f p hp
    obtain ⟨spec, rfl⟩ := hs.pools f p hp
    exact hinit f spec
  · intro s e s' l hs hok hP hstep f p' hp'
    have hwf := wellFormed_of_reach hs
    obtain ⟨p, hp, rfl | hpool⟩ := (step_effect hwf hstep).getPool hwf hp'
    · exact hP f _ hp
    · exact hchange s e f p p' hwf hp hok (hP f p hp) hpool

theorem PoolChange.frame (h : PoolChange s e f p p') :
    Frame p p' ∨ Frame { p with seqCounter := nextSeq p } p' := by
  cases h with
  | quiet hquiet => exact .inl hquiet.frame
  | @sticky req slot =>
    have hframe := (kept_cancelSessionUnbind p req.bindingKey).toFrame
    have hseq := congrArg (fun c => (c + 1) % 2 ^ 64) hframe.seqCounter
    have hassigned := (kept_assignedPool (p.cancelSessionUnbind req.bindingKey) req slot true).toFrame
    exact .inr ⟨hassigned.funcKey.trans hframe.funcKey, hassigned.funcSpec.trans hframe.funcSpec,
      hassigned.seqCounter.trans hseq⟩
  | @fresh req slot d =>
    have hframe := (kept_assignedPool { p with dispatcher := d } req slot false).toFrame
    exact .inr { hframe with }
  | returned hreturned => exact .inl hreturned.kept.toFrame
  | startTimer => exact .inl (kept_startSessionUnbindTimer p _ _ _).toFrame
  | reacquire => exact .inl (kept_buildReacquiredAlloc p _).toFrame
  | fire => exact .inl (kept_fireSessionUnbind p _ _).toFrame
  | upsert => exact .inl ⟨rfl, rfl, rfl⟩
  | remove => exact .inl (frame_removeInstance p _)

theorem PoolChange.instance_of (h : PoolChange s e f p p')
    (hins' : p'.instances.lookup i = some ins') : (∃ ins, p.instances.lookup i = some ins) ∨
      ∃ ins : Instance, e = .instanceUpdate f ins ∧ ins.instanceID = i := by
  have hinUse : InUseOnly p p' → ∃ ins, p.instances.lookup i = some ins := by
    intro h
    obtain ⟨ins, v, hins, -⟩ := h.lookup hins'
    exact ⟨ins, hins⟩
  cases h with
  | quiet hquiet =>
    obtain ⟨g, -, hlookup⟩ := hquiet.instances
    rw [hlookup] at hins'
    obtain ⟨ins, hins, -⟩ := map_eq_some_iff.mp hins'
    exact .inl ⟨ins, hins⟩
  | sticky =>
    exact .inl (hinUse ((kept_cancelSessionUnbind p _).inUse.trans (kept_assignedPool _ _ _ _).inUse))
  | @fresh req slot d =>
    obtain ⟨ins, v, hins, -⟩ :=
      (kept_assignedPool { p with dispatcher := d } req slot false).inUse.lookup hins'
    exact .inl ⟨ins, hins⟩
  | returned hreturned => exact .inl (hinUse hreturned.kept.inUse)
  | startTimer => exact .inl (hinUse (kept_startSessionUnbindTimer p _ _ _).inUse)
  | reacquire => exact .inl (hinUse (kept_buildReacquiredAlloc p _).inUse)
  | fire => exact .inl (hinUse (kept_fireSessionUnbind p _ _).inUse)
  | @upsert ins he =>
    rcases lookup_of_insert hins' with ⟨hi, -⟩ | hold
    · exact .inr ⟨ins, he, hi.symm⟩
    · exact .inl ⟨ins', hold⟩
  | remove =>
    rw [(removeInstance_unbound p _).instances] at hins'
    exact .inl ⟨ins', lookup_of_erase hins'⟩

def Binds (s : System) (e : Event) (f : String) (p : LiteFunctionPool) (k sessionID i : String) :
    Prop :=
  ∃ tid choice, e = .run tid choice ∧
    ((∃ req : LiteRequest, req.sessionID = sessionID ∧ req.funcKey = f ∧ req.bindingKey = k ∧
        ((s.threads.lookup tid = some (.dispatch req) ∧ p.sessions.lookup req.bindingKey = none) ∨
          ∃ deadline, s.threads.lookup tid = some (.poll req deadline)) ∧
        ∃ slot, p.instances.lookup i = some slot ∧ (slot.reclaiming = false ∨
          (s.threads.lookup tid = some (.dispatch req) ∧ choice.storeRec = some i))) ∨
      ∃ params : ReacquireParams, params.sessionID = sessionID ∧ params.funcKey = f ∧
        p.sessionBindingKey params.sessionID params.sessionCtxID = k ∧ p.sessions.lookup k = none ∧
        params.instanceID = i ∧ s.threads.lookup tid = some (.reacquire params) ∧
        s.ls.allocations.lookup params.allocID = none)

/-- The units of a binding after a step, from those of the binding it was. -/
inductive BindingChange (s : System) (e : Event) (f : String) (p : LiteFunctionPool) (k : String)
    (b' : SessionBinding) : Prop
  | same {b : SessionBinding} (hb : p.sessions.lookup k = some b)
      (hid : b'.instanceID = b.instanceID) (hreserved : b'.reserved = b.reserved)
      (hactive : b'.activeAllocs = b.activeAllocs)
  | taken {b : SessionBinding} (hb : p.sessions.lookup k = some b)
      (hid : b'.instanceID = b.instanceID)
      (hreserved : b'.reserved = (bindSessionStickyTakeLocked b).1.reserved)
      (hactive : b'.activeAllocs = b.activeAllocs + 1)
  | returned {b : SessionBinding} (hb : p.sessions.lookup k = some b)
      (hid : b'.instanceID = b.instanceID) (hreserved : b'.reserved = (returnUnit b).reserved)
      (hactive : b'.activeAllocs = (returnUnit b).activeAllocs)
  | fresh {sessionID sessionCtxID : String} (hsession : sessionID ≠ "")
      (hkey : k = p.sessionBindingKey sessionID sessionCtxID)
      (hbinds : Binds s e f p k sessionID b'.instanceID) (hreserved : 0 ≤ b'.reserved)
      (hactive : b'.activeAllocs = 1)

theorem bindingChange_of_lookup (hb : p.sessions.lookup k = some b) : BindingChange s e f p k b :=
  .same hb rfl rfl rfl

theorem bindingChange_bindFresh {q : LiteFunctionPool} (hq : q.sessions = p.sessions)
    (hsession : sessionID ≠ "") (hkey : k₀ = p.sessionBindingKey sessionID sessionCtxID)
    (hbinds : Binds s e f p k₀ sessionID i) (hc : 1 ≤ c)
    (hb' : ((q.addInUse i c).bindSessionFreshLocked k₀ i c).sessions.lookup k = some b') :
    BindingChange s e f p k b' := by
  rw [bindFresh_sessions, hq] at hb'
  rcases lookup_of_insert hb' with ⟨rfl, rfl⟩ | hold
  · refine .fresh hsession hkey hbinds ?_ rfl
    change 0 ≤ c - 1
    omega
  · exact bindingChange_of_lookup hold

theorem bindingChange_unbind (hb' : (p.unbindSessionOnRelease k₀).1.sessions.lookup k = some b') :
    BindingChange s e f p k b' := by
  cases hb : p.sessions.lookup k₀ with
  | none =>
    rw [unbindSessionOnRelease_of_none hb] at hb'
    exact bindingChange_of_lookup hb'
  | some b =>
    rw [unbindSessionOnRelease_of_lookup hb] at hb'
    split at hb'
    all_goals
      rcases lookup_of_insert hb' with ⟨rfl, rfl⟩ | hold
      · exact .returned hb (returnUnit_instanceID b) rfl rfl
      · exact bindingChange_of_lookup hold

theorem lookup_of_startTimer {ttl : Int} {now : Nat}
    (hb' : (p.startSessionUnbindTimer k₀ ttl now).sessions.lookup k = some b') :
    ∃ b, p.sessions.lookup k = some b ∧ b'.instanceID = b.instanceID ∧ b'.reserved = b.reserved ∧
      b'.activeAllocs = b.activeAllocs := by
  unfold startSessionUnbindTimer at hb'
  split at hb'
  · exact ⟨b', hb', rfl, rfl, rfl⟩
  rename_i b hb
  split at hb'
  · exact ⟨b', hb', rfl, rfl, rfl⟩
  rcases lookup_of_insert hb' with ⟨rfl, rfl⟩ | hold
  · exact ⟨b, hb, rfl, rfl, rfl⟩
  · exact ⟨b', hold, rfl, rfl, rfl⟩

theorem lookup_of_fire (hb' : (p.fireSessionUnbind t timer).sessions.lookup k = some b') :
    p.sessions.lookup k = some b' := by
  unfold fireSessionUnbind removeSessionBinding at hb'
  dsimp only at hb'
  split at hb'
  · split at hb'
    · exact hb'
    · exact lookup_of_erase hb'
  · exact hb'

section

variable (h : PoolChange s e f p p')
include h

theorem PoolChange.binding (hb' : p'.sessions.lookup k = some b') : BindingChange s e f p k b' := by
  cases h with
  | quiet hquiet => exact bindingChange_of_lookup (hquiet.sessions ▸ hb')
  | @sticky _ _ _ _ hbinding hslot =>
    obtain ⟨-, hsessions, -⟩ := assignedPool_sticky hbinding hslot
    rw [hsessions] at hb'
    split at hb'
    · rename_i hk
      cases hb'
      rw [hk]
      refine .taken hbinding (by simp) ?_ (by simp)
      unfold bindSessionStickyTakeLocked
      rw [cancelled_reserved]
      split <;> simp
    · exact bindingChange_of_lookup hb'
  | @fresh req slot d tid choice hreq hconcurrency hslot _ hkey he hpc hreclaiming =>
    by_cases hsession : req.sessionID = ""
    · rw [assignedPool_unit hsession, addInUse_sessions] at hb'
      exact bindingChange_of_lookup hb'
    rw [assignedPool_session hsession] at hb'
    have hbinds : Binds s e f p req.bindingKey req.sessionID slot.instanceID :=
      ⟨tid, choice, he, .inl ⟨req, rfl, hreq, rfl, hpc, slot, hslot, hreclaiming⟩⟩
    exact bindingChange_bindFresh (q := { p with dispatcher := d, seqCounter := nextSeq p }) rfl
      hsession hkey hbinds hconcurrency hb'
  | returned hreturned =>
    cases hreturned with
    | session => exact bindingChange_unbind hb'
    | unit =>
      rw [addInUse_sessions] at hb'
      exact bindingChange_of_lookup hb'
    | gone | empty => exact bindingChange_of_lookup hb'
  | startTimer =>
    obtain ⟨b, hb, hid, hreserved, hactive⟩ := lookup_of_startTimer hb'
    exact .same hb hid hreserved hactive
  | @reacquire tid choice params _ he hpc hparams hconcurrency _ halloc =>
    unfold buildReacquiredAlloc at hb'
    dsimp only at hb'
    split at hb'
    · rename_i hsession
      split at hb'
      · rename_i b hb
        rw [stickyTake_sessions hb] at hb'
        rcases lookup_of_insert hb' with ⟨rfl, rfl⟩ | hold
        · exact .taken hb (stickyTake_instanceID b) rfl (stickyTake_activeAllocs b)
        · exact bindingChange_of_lookup hold
      rename_i hnone
      have hbinds : Binds s e f p (p.sessionBindingKey params.sessionID params.sessionCtxID)
          params.sessionID params.instanceID :=
        ⟨tid, choice, he, .inr ⟨params, rfl, hparams, rfl, hnone, rfl, hpc, halloc⟩⟩
      exact bindingChange_bindFresh rfl hsession rfl hbinds hconcurrency hb'
    · rw [addInUse_sessions] at hb'
      exact bindingChange_of_lookup hb'
  | fire => exact bindingChange_of_lookup (lookup_of_fire hb')
  | upsert => exact bindingChange_of_lookup hb'
  | remove =>
    rw [(removeInstance_unbound p _).sessions] at hb'
    exact bindingChange_of_lookup (filter_eq_some_iff.mp hb').1

/-- A binding stays, unless it is idle, its instance is removed, or a poll binds over it. -/
theorem PoolChange.keeps_binding (hb : p.sessions.lookup k = some b) :
    (∃ b', p'.sessions.lookup k = some b' ∧ b'.instanceID = b.instanceID) ∨ b.activeAllocs = 0 ∨
      p'.instances.lookup b.instanceID = none ∨
      ∃ tid choice req deadline, e = .run tid choice ∧ req.funcKey = f ∧ req.sessionID ≠ "" ∧
        req.bindingKey = k ∧ s.threads.lookup tid = some (.poll req deadline) := by
  have hinsert : ∀ (k₀ : String) (b₀ n : SessionBinding), p.sessions.lookup k₀ = some b₀ →
      n.instanceID = b₀.instanceID → ∃ b', (p.sessions.insert k₀ n).lookup k = some b' ∧
        b'.instanceID = b.instanceID := by
    intro k₀ b₀ n hb₀ hid
    rw [lookup_insert_eq_ite]
    split
    · rename_i hk
      rw [hk, hb₀] at hb
      cases hb
      exact ⟨n, rfl, hid⟩
    · exact ⟨b, hb, rfl⟩
  cases h with
  | quiet hquiet => exact .inl ⟨b, by rw [hquiet.sessions, hb], rfl⟩
  | @sticky _ _ _ _ hbinding hslot =>
    left
    obtain ⟨-, hsessions, -⟩ := assignedPool_sticky hbinding hslot
    rw [hsessions]
    split
    · rename_i hk
      rw [hk, hbinding] at hb
      cases hb
      exact ⟨_, rfl, by simp⟩
    · exact ⟨b, hb, rfl⟩
  | @fresh req _ _ tid choice hreq _ _ _ _ he hpc =>
    by_cases hsession : req.sessionID = ""
    · rw [assignedPool_unit hsession, addInUse_sessions]
      exact .inl ⟨b, hb, rfl⟩
    rw [assignedPool_session hsession, bindFresh_sessions, lookup_insert_eq_ite]
    split
    · rename_i hk
      rcases hpc with ⟨-, hnone⟩ | ⟨deadline, hpc⟩
      · rw [hk, hnone] at hb
        cases hb
      · exact .inr (.inr (.inr ⟨tid, choice, req, deadline, he, hreq, hsession, hk.symm, hpc⟩))
    · exact .inl ⟨b, hb, rfl⟩
  | returned hreturned =>
    left
    cases hreturned with
    | session =>
      generalize p.sessionBindingKey _ _ = k₀
      cases hb₀ : p.sessions.lookup k₀ with
      | none =>
        rw [unbindSessionOnRelease_of_none hb₀]
        exact ⟨b, hb, rfl⟩
      | some b₀ =>
        rw [unbindSessionOnRelease_of_lookup hb₀]
        split
        all_goals exact hinsert k₀ b₀ _ hb₀ (returnUnit_instanceID b₀)
    | unit =>
      rw [addInUse_sessions]
      exact ⟨b, hb, rfl⟩
    | gone | empty => exact ⟨b, hb, rfl⟩
  | startTimer =>
    left
    unfold startSessionUnbindTimer
    split
    · exact ⟨b, hb, rfl⟩
    rename_i b₀ hb₀
    split
    · exact ⟨b, hb, rfl⟩
    · exact hinsert _ b₀ _ hb₀ rfl
  | reacquire =>
    left
    unfold buildReacquiredAlloc
    dsimp only
    split
    · split
      · rename_i b₀ hb₀
        rw [stickyTake_sessions hb₀]
        exact hinsert _ b₀ _ hb₀ (stickyTake_instanceID b₀)
      rename_i hnone
      rw [bindFresh_sessions, lookup_insert_eq_ite, if_neg]
      · exact ⟨b, hb, rfl⟩
      rintro rfl
      rw [hnone] at hb
      cases hb
    · rw [addInUse_sessions]
      exact ⟨b, hb, rfl⟩
  | @fire _ timer =>
    unfold fireSessionUnbind removeSessionBinding
    dsimp only
    split
    · rename_i haccepted
      split
      · exact .inl ⟨b, hb, rfl⟩
      rename_i b₀ hb₀
      by_cases hk : k = timer.sessionID
      · right
        left
        rw [hk] at hb
        simp [unbindAccepted, hb] at haccepted
        exact haccepted.2
      · refine .inl ⟨b, ?_, rfl⟩
        rw [lookup_erase_ne hk]
        exact hb
    · exact .inl ⟨b, hb, rfl⟩
  | upsert => exact .inl ⟨b, hb, rfl⟩
  | @remove i =>
    have hunbound := removeInstance_unbound p i
    by_cases hid : b.instanceID = i
    · right
      right
      left
      rw [hunbound.instances, hid]
      exact lookup_erase i p.instances
    · refine .inl ⟨b, ?_, rfl⟩
      rw [hunbound.sessions]
      rw [hb]
      simp [hid]

theorem PoolChange.funcSpec : p'.funcSpec = p.funcSpec := by
  rcases h.frame with hframe | hframe
  all_goals exact hframe.funcSpec

theorem PoolChange.sessionBindingKey : p'.sessionBindingKey = p.sessionBindingKey := by
  funext sessionID sessionCtxID
  simp only [LiteFunctionPool.sessionBindingKey, h.funcSpec]

end

theorem Effect.sessionBindingKey (hwf : s.WellFormed) (heffect : Effect cfg s e r)
    (hp : s.ls.getPool f = some p) (hp' : r.1.ls.getPool f = some p') :
    p'.sessionBindingKey = p.sessionBindingKey := by
  obtain ⟨q, hq, rfl | hchange⟩ := heffect.getPool hwf hp'
  · rw [hp] at hq
    cases hq
    rfl
  · rw [hp] at hq
    cases hq
    exact hchange.sessionBindingKey

end Change

end Yuanrong.Lite
