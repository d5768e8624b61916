import Yuanrong.LiteScheduler.Proof.PoolChange

/-!
# What a step hands out

Records come into the map by an assignment, under a new ID, or by a reacquire, under the ID its
client names. No other step adds one.
-/

namespace Yuanrong.Lite

open AList LiteScheduler LiteFunctionPool

theorem Effect.granted (hwf : s.WellFormed) (heffect : Effect cfg s e r) (hgranted : r.2.granted = some a) :
    (∃ pool pool' slot, s.ls.getPool a.funcKey = some pool ∧
      pool.instances.lookup a.instanceID = some slot ∧ a.allocationID = genAllocationID cfg.hash
        (pool.sessionBindingKey a.sessionID a.sessionCtxID) a.instanceID (toInt64 (nextSeq pool)) ∧
      0 ≤ a.sessionTTL ∧ r.1.ls.getPool a.funcKey = some pool' ∧ pool'.seqCounter = nextSeq pool) ∨
    ∃ tid choice params, e = .run tid choice ∧ s.threads.lookup tid = some (.reacquire params) ∧
      s.ls.allocations.lookup params.allocID = none ∧ a = reacquiredAllocation cfg s.ls params ∧
      ∃ pool slot, s.ls.getPool params.funcKey = some pool ∧
        pool.instances.lookup params.instanceID = some slot := by
  cases heffect with
  | move _ hnone | cursor _ _ hnone => exact absurd (hgranted.symm.trans hnone) (by simp)
  | @stickyGrant tid _ req pool slot b hpc hpool _ hslot =>
    cases hgranted
    have hid : slot.instanceID = b.instanceID := (hwf.pool _ _ hpool).instanceID _ _ hslot
    have hseq : nextSeq (pool.cancelSessionUnbind req.bindingKey) = nextSeq pool := by
      rw [nextSeq, (kept_cancelSessionUnbind pool req.bindingKey).seqCounter, nextSeq]
    have hadmitted := (admitted_of_sticky hwf hpc).1
    refine .inl ⟨pool, assignedPool (pool.cancelSessionUnbind req.bindingKey) req slot true, slot,
      hpool, ?_, ?_, hadmitted.sessionTTL, ?_, ?_⟩
    · rw [hid]
      exact hslot
    · rw [← hseq]
      change _ = genAllocationID cfg.hash (pool.sessionBindingKey req.sessionID req.sessionCtxID) _ _
      rw [← hadmitted.key hpool]
      rfl
    · change lookup req.funcKey (assignInstance cfg s.ls _ req slot true).ls.pools = _
      rw [assignInstance_pools, lookup_insert]
    · rw [(kept_assignedPool _ _ _ _).seqCounter, ← hseq]
  | @freshGrant _ _ req pool slot d hpc hpool hslot =>
    cases hgranted
    have hadmitted := (admitted_of_requests hwf hpc).1
    refine .inl ⟨pool, assignedPool { pool with dispatcher := d } req slot false, slot,
      hpool, hslot, ?_, hadmitted.sessionTTL, ?_, ?_⟩
    · change _ = genAllocationID cfg.hash (pool.sessionBindingKey req.sessionID req.sessionCtxID) _ _
      rw [← hadmitted.key hpool]
      rfl
    · change lookup req.funcKey (assignInstance cfg s.ls _ req slot false).ls.pools = _
      rw [assignInstance_pools, lookup_insert]
    · rw [(kept_assignedPool _ _ _ _).seqCounter]
      rfl
  | @reacquireGrant tid choice params pool slot _ hpc hpool hslot _ halloc =>
    cases hgranted
    exact .inr ⟨tid, choice, params, rfl, hpc, halloc, rfl, pool, slot, hpool, hslot⟩
  | _ => cases hgranted

theorem Effect.alloc_mem {id : String} (heffect : Effect cfg s e r)
    (ha : r.1.ls.allocations.lookup id = some a) :
    (∃ old, s.ls.allocations.lookup id = some old ∧ a = { old with expireAt := a.expireAt }) ∨
      (r.2.granted = some a ∧ a.allocationID = id) := by
  cases heffect with
  | move hls | cursor hpool hls =>
    change lookup id (Outcome.ls _).allocations = some a at ha
    rw [hls] at ha
    exact .inl ⟨a, ha, rfl⟩
  | stickyGrant | freshGrant =>
    rw [System.finish, assignInstance_allocations] at ha
    rcases lookup_of_insert ha with ⟨rfl, rfl⟩ | hold
    · exact .inr ⟨rfl, rfl⟩
    · exact .inl ⟨a, hold, rfl⟩
  | release | dropAlloc | reap => exact .inl ⟨a, lookup_of_erase ha, rfl⟩
  | refresh _ halloc =>
    rcases lookup_of_insert ha with ⟨rfl, rfl⟩ | hold
    · exact .inl ⟨_, halloc, rfl⟩
    · exact .inl ⟨a, hold, rfl⟩
  | reacquireGrant =>
    rcases lookup_of_insert ha with ⟨rfl, rfl⟩ | hold
    · exact .inr ⟨rfl, rfl⟩
    · exact .inl ⟨a, hold, rfl⟩
  | updateTask =>
    change lookup id (setWheel _ _).allocations = some a at ha
    rw [setWheel_allocations] at ha
    exact .inl ⟨a, ha, rfl⟩
  | remove =>
    have hkept := (lookup_filter s.ls.allocations _ id).symm.trans ha
    exact .inl ⟨a, (Option.filter_eq_some_iff.mp hkept).1, rfl⟩
  | _ => exact .inl ⟨a, ha, rfl⟩

end Yuanrong.Lite
