import Yuanrong.LiteScheduler.Proof.PoolChange

/-!
# Acquires do not oversell

`InUse` grows by a whole reservation when a session is bound, by one for a unit beyond the
reservation, and not at all for a reserved unit. Every one of these is checked against the capacity
of the instance in the critical section that takes it; only a reacquire takes units unchecked.
-/

namespace Yuanrong.Lite

open LiteScheduler AList

/-- Steps of runs without reacquires in which an instance keeps its `ConcurrentNum`. -/
def acquireOnly (s : System) : Event → Bool
  | .run tid _ =>
    match s.threads.lookup tid with
    | some (.reacquire _) => false
    | _ => true
  | .instanceUpdate f ins =>
    match (s.ls.getPool f).bind fun pool => pool.instances.lookup ins.instanceID with
    | some slot => ins.concurrentNum = slot.capacity
    | none => true
  | _ => true

structure LiteFunctionPool.WithinCapacity (p : LiteFunctionPool) : Prop where
  inUse : ∀ i ins, p.instances.lookup i = some ins → 0 ≤ ins.inUse ∧ ins.inUse ≤ max 0 ins.capacity
  binding : ∀ k b, p.sessions.lookup k = some b → 0 ≤ b.reserved ∧ 0 ≤ b.activeAllocs

namespace LiteFunctionPool.WithinCapacity

variable {p p' : LiteFunctionPool} {k i : String} {ins : LiteInstance} {b : SessionBinding}

variable (h : p.WithinCapacity)
include h

theorem insert (hinstances : p'.instances = p.instances.insert i { ins with inUse := v })
    (hv : 0 ≤ v ∧ v ≤ max 0 ins.capacity)
    (hbinding : ∀ k b, p'.sessions.lookup k = some b → 0 ≤ b.reserved ∧ 0 ≤ b.activeAllocs) :
    p'.WithinCapacity := by
  refine ⟨?_, hbinding⟩
  intro j slot hslot
  rw [hinstances] at hslot
  rcases lookup_of_insert hslot with ⟨-, rfl⟩ | hold
  · exact hv
  · exact h.inUse j slot hold

theorem binding_insert (hb : 0 ≤ b.reserved ∧ 0 ≤ b.activeAllocs) :
    ∀ k' b', (p.sessions.insert k b).lookup k' = some b' → 0 ≤ b'.reserved ∧ 0 ≤ b'.activeAllocs := by
  intro k' b' hb'
  rcases lookup_of_insert hb' with ⟨-, rfl⟩ | hold
  · exact hb
  · exact h.binding k' b' hold

theorem binding_erase :
    ∀ k' b', (p.sessions.erase k).lookup k' = some b' → 0 ≤ b'.reserved ∧ 0 ≤ b'.activeAllocs := by
  intro k' b' hb'
  exact h.binding k' b' (lookup_of_erase hb')

variable {slot : LiteInstance}

theorem stickyGrant (hbinding : p.sessions.lookup req.bindingKey = some b)
    (hslot : p.instances.lookup b.instanceID = some slot)
    (hroom : 0 < b.reserved ∨ slot.inUse < slot.capacity) :
    (assignedPool (p.cancelSessionUnbind req.bindingKey) req slot true).WithinCapacity := by
  obtain ⟨hinstances, hsessions, -⟩ := assignedPool_sticky hbinding hslot
  have hload := h.inUse _ _ hslot
  have hunits := h.binding _ _ hbinding
  apply h.insert hinstances
  · rcases stickyTake_cases b with ⟨-, htake⟩ | ⟨hnone, htake⟩
    · rw [htake]
      simpa using hload
    have hless : slot.inUse < slot.capacity := by omega
    rw [htake]
    exact ⟨by omega, by omega⟩
  · intro k b' hb'
    rw [hsessions] at hb'
    split at hb'
    · cases hb'
      rcases stickyTake_cases (cancelled b) with ⟨hpos, htake⟩ | ⟨-, htake⟩
      · rw [htake]
        simp only [cancelled_reserved, cancelled_activeAllocs] at hpos ⊢
        omega
      · rw [htake]
        simp only [cancelled_reserved, cancelled_activeAllocs]
        omega
    · exact h.binding k b' hb'

theorem freshGrant
    (hconcurrency : 1 ≤ req.concurrency) (hslot : p.instances.lookup slot.instanceID = some slot)
    (hfits : req.concurrency ≤ slot.capacity - slot.inUse) :
    (assignedPool { p with dispatcher := d } req slot false).WithinCapacity := by
  have hload := h.inUse _ _ hslot
  have hslot₁ : lookup slot.instanceID
      ({ p with dispatcher := d, seqCounter := nextSeq p } : LiteFunctionPool).instances = some slot := hslot
  by_cases hsession : req.sessionID = ""
  · rw [assignedPool_unit hsession, addInUse_of_lookup hslot₁]
    exact h.insert rfl ⟨by omega, by omega⟩ h.binding
  rw [assignedPool_session hsession, addInUse_of_lookup hslot₁]
  apply h.insert rfl ⟨by omega, by omega⟩
  exact h.binding_insert
    ⟨by change 0 ≤ req.concurrency - 1; omega, Int.one_nonneg⟩

theorem returned (hreturned : Returned p alloc p' unbind) : p'.WithinCapacity := by
  cases hreturned with
  | session =>
    generalize p.sessionBindingKey alloc.sessionID alloc.sessionCtxID = k
    cases hbinding : p.sessions.lookup k with
    | none =>
      rw [unbindSessionOnRelease_of_none hbinding]
      exact h
    | some b =>
      have hunits := h.binding k b hbinding
      have hreturn : 0 ≤ (returnUnit b).reserved ∧ 0 ≤ (returnUnit b).activeAllocs := by
        have hreserved := returnUnit_reserved_ge b
        rw [returnUnit_activeAllocs]
        split <;> omega
      rw [unbindSessionOnRelease_of_lookup hbinding]
      split
      all_goals exact ⟨h.inUse, h.binding_insert hreturn⟩
  | @unit _ _ hslot =>
    have hload := h.inUse _ _ hslot
    rw [addInUse_of_lookup hslot]
    exact h.insert rfl ⟨by omega, by omega⟩ h.binding
  | gone => exact h
  | empty => exact h

theorem removeSessionBinding (k : String) : (p.removeSessionBinding k).WithinCapacity := by
  unfold LiteFunctionPool.removeSessionBinding processInstanceInUse
  split
  · exact h
  split
  · exact ⟨h.inUse, h.binding_erase⟩
  rename_i slot hslot
  split
  · have hload := h.inUse _ _ hslot
    apply h.insert rfl ?_ h.binding_erase
    split <;> omega
  · exact ⟨h.inUse, h.binding_erase⟩

theorem startSessionUnbindTimer (k : String) (ttl : Int)
    (now : Nat) : (p.startSessionUnbindTimer k ttl now).WithinCapacity := by
  unfold LiteFunctionPool.startSessionUnbindTimer
  split
  · exact h
  rename_i b hbinding
  split
  · exact h
  · exact ⟨h.inUse, h.binding_insert (h.binding k b hbinding)⟩

theorem fireSessionUnbind (ref : Nat) (timer : SessionTimer) :
    (p.fireSessionUnbind ref timer).WithinCapacity := by
  have hfired : WithinCapacity { p with timers := p.timers.erase ref } :=
    { h with }
  unfold LiteFunctionPool.fireSessionUnbind
  split
  · exact hfired.removeSessionBinding timer.sessionID
  · exact hfired

theorem upsertInstance {ins : Instance} (hkeep : ∀ slot, p.instances.lookup ins.instanceID = some slot →
      ins.concurrentNum = slot.capacity) : (p.upsertInstance ins).WithinCapacity := by
  refine ⟨?_, h.binding⟩
  intro i slot hslot
  unfold LiteFunctionPool.upsertInstance at hslot
  rw [lookup_insert_eq_ite] at hslot
  split at hslot
  · cases hslot
    split
    · exact ⟨le_rfl, le_max_left _ _⟩
    rename_i current hcurrent
    have hload := h.inUse _ _ hcurrent
    rw [← hkeep current hcurrent] at hload
    exact hload
  · exact h.inUse i slot hslot

theorem removeInstance (i : String) : (p.removeInstance i).WithinCapacity := by
  have hunbound := removeInstance_unbound p i
  refine ⟨?_, ?_⟩
  · intro j slot hslot
    rw [hunbound.instances] at hslot
    exact h.inUse j slot (lookup_of_erase hslot)
  · intro k b hb
    rw [hunbound.sessions] at hb
    exact h.binding k b (Option.filter_eq_some_iff.mp hb).1

theorem quiet (hquiet : Quiet p p') : p'.WithinCapacity := by
  obtain ⟨g, hsame, hlookup⟩ := hquiet.instances
  refine ⟨?_, fun k b hb => h.binding k b (hquiet.sessions ▸ hb)⟩
  intro i slot hslot
  rw [hlookup] at hslot
  obtain ⟨ins, hins, rfl⟩ := Option.map_eq_some_iff.mp hslot
  rw [(hsame i ins).inUse, (hsame i ins).capacity]
  exact h.inUse i ins hins

end LiteFunctionPool.WithinCapacity

/-- **No overselling.** Without reacquires and changes of `ConcurrentNum` no instance is
overloaded. -/
theorem inUse_within_capacity (cfg : Config) (s : System)
    (hreach : (scheduler cfg).Reach (fun s e => acquireOnly s e = true) s) (f : String)
    (p : LiteFunctionPool) (hp : s.ls.getPool f = some p) :
    (∀ i ins, p.instances.lookup i = some ins → 0 ≤ ins.inUse ∧ ins.inUse ≤ max 0 ins.capacity) ∧
      ∀ k b, p.sessions.lookup k = some b → 0 ≤ b.reserved ∧ 0 ≤ b.activeAllocs := by
  have hwithin : p.WithinCapacity := by
    refine pool_invariant ?_ ?_ hreach hp
    · intro f spec
      refine ⟨?_, ?_⟩
      · intro i ins h
        cases h
      · intro k b h
        cases h
    · intro s e f p p' hwf hpool hok hP hchange
      cases hchange with
      | quiet hquiet => exact hP.quiet hquiet
      | sticky _ hbinding hslot hroom => exact hP.stickyGrant hbinding hslot hroom
      | fresh _ hconcurrency hslot hfits => exact hP.freshGrant hconcurrency hslot hfits
      | returned hreturned => exact hP.returned hreturned
      | startTimer => exact hP.startSessionUnbindTimer _ _ _
      | reacquire he hpc =>
        subst he
        simp [acquireOnly, hpc] at hok
      | fire => exact hP.fireSessionUnbind _ _
      | upsert he =>
        subst he
        apply hP.upsertInstance
        intro slot hslot
        simpa [acquireOnly, hpool, hslot] using hok
      | remove => exact hP.removeInstance _
  exact ⟨hwithin.inUse, hwithin.binding⟩

theorem inUse_within_capacity_bound : ∃ s p,
    (scheduler plainConfig).Reach (fun s e => acquireOnly s e = true) s ∧
      s.ls.getPool "t/f/1" = some p ∧ (p.instances.lookup "i").map (·.inUse) = some 2 ∧
      (∀ i ins, p.instances.lookup i = some ins → 0 ≤ ins.inUse ∧ ins.inUse ≤ max 0 ins.capacity) ∧
      ∀ k b, p.sessions.lookup k = some b → 0 ≤ b.reserved ∧ 0 ≤ b.activeAllocs := by
  obtain ⟨s, hreach, p, hp, hload⟩ := reach_of_run plainConfig acquireOnly [("t/f/1", plainSpec)]
    [.instanceUpdate "t/f/1" (plainInstance "i" 4), .acquire 1 (plainRequest "s"), .run 1 {},
      .run 1 { order := ["i"] }]
    (fun s => ∃ p, s.ls.getPool "t/f/1" = some p ∧ (p.instances.lookup "i").map (·.inUse) = some 2)
    (by decide)
  exact ⟨s, p, hreach, hp, hload, inUse_within_capacity plainConfig s hreach _ p hp⟩

/-- An instance whose `ConcurrentNum` is negative is above its capacity without any work on it. -/
theorem inUse_above_negative_capacity : ∃ s p ins,
    (scheduler plainConfig).Reach (fun s e => acquireOnly s e = true) s ∧
      s.ls.getPool "t/f/1" = some p ∧ p.instances.lookup "i" = some ins ∧ ¬ins.inUse ≤ ins.capacity := by
  obtain ⟨s, hreach, p, hp, ins, hins, habove⟩ :=
    reach_of_run plainConfig acquireOnly [("t/f/1", plainSpec)]
    [.instanceUpdate "t/f/1" (plainInstance "i" (-3))]
    (fun s => ∃ p, s.ls.getPool "t/f/1" = some p ∧ ∃ ins, p.instances.lookup "i" = some ins ∧
      ¬ins.inUse ≤ ins.capacity) (by decide)
  exact ⟨s, p, ins, hreach, hp, hins, habove⟩

end Yuanrong.Lite
