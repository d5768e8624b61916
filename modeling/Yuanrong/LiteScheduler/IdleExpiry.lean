import Yuanrong.LiteScheduler.Proof.PoolChange

/-!
# Idle sessions expire

A session without active allocations keeps its instance's units until its idle-unbind timer fires.
Between the section of a release that returns the last unit and the section that starts the timer,
the goroutine of the release is what stands for the timer.
-/

namespace Yuanrong.Lite

open AList Option LiteScheduler LiteFunctionPool

/-- The binding `b` of key `k`. `owed` says that its timer is still to be started. -/
structure LiteFunctionPool.Expires (p : LiteFunctionPool) (owed : Prop) (k : String)
    (b : SessionBinding) : Prop where
  nonneg : 0 ≤ b.activeAllocs
  idle : b.expiring = true → b.activeAllocs = 0
  timer_lt : ∀ t, b.timer = some t → t < p.nextRef
  timer_own : ∀ t timer, b.timer = some t → p.timers.lookup t = some timer →
    timer.sessionID = k ∧ timer.binding = b.ref
  pending : b.activeAllocs = 0 → b.expiring = true ∧
    (owed ∨ ∃ t timer, b.timer = some t ∧ p.timers.lookup t = some timer)

def LiteFunctionPool.AllExpire (p : LiteFunctionPool) (owed : String → Prop) : Prop :=
  ∀ k b, p.sessions.lookup k = some b → p.Expires (owed k) k b

variable {owed : String → Prop}

section Pool

variable {p p' : LiteFunctionPool} {owed owed' : String → Prop} {k : String} {b b' : SessionBinding}
  {timer : SessionTimer} {t : Nat}

theorem of_lookup_stopTimer {timers : FinMap Nat SessionTimer}
    (htimer : (stopTimer timers b).lookup t = some timer) : timers.lookup t = some timer := by
  rw [lookup_stopTimer] at htimer
  exact (filter_eq_some_iff.mp htimer).1

theorem LiteFunctionPool.Expires.of_active (hactive : 0 < b.activeAllocs)
    (hexpiring : b.expiring = false) (htimer_lt : ∀ t, b.timer = some t → t < p.nextRef)
    (htimer_own : ∀ t timer, b.timer = some t → p.timers.lookup t = some timer →
      timer.sessionID = k ∧ timer.binding = b.ref) : p.Expires q k b where
  nonneg := hactive.le
  idle h := by
    rw [hexpiring] at h
    cases h
  timer_lt := htimer_lt
  timer_own := htimer_own
  pending h := by omega

namespace LiteFunctionPool.AllExpire

variable (h : p.AllExpire owed)
include h

theorem timer_ne (hb : p.sessions.lookup k = some b)
    (htimer : p.timers.lookup t = some timer) (hne : timer.sessionID ≠ k) : b.timer ≠ some t := by
  intro ht
  exact hne ((h k b hb).timer_own t timer ht htimer).1

theorem change (C : String → Prop) (hkeep : ∀ k, ¬C k → p'.sessions.lookup k = p.sessions.lookup k)
    (howed : ∀ k, ¬C k → owed k → owed' k) (hnext : p.nextRef ≤ p'.nextRef)
    (htimers : ∀ t timer, t < p.nextRef → p.timers.lookup t = some timer → ¬C timer.sessionID →
      p'.timers.lookup t = some timer)
    (hsub : ∀ t timer, p'.timers.lookup t = some timer → p.timers.lookup t = some timer ∨ p.nextRef ≤ t)
    (hchanged : ∀ k b, C k → p'.sessions.lookup k = some b → p'.Expires (owed' k) k b) :
    p'.AllExpire owed' := by
  intro k b hb
  by_cases hC : C k
  · exact hchanged k b hC hb
  rw [hkeep k hC] at hb
  have hold := h k b hb
  refine ⟨hold.nonneg, hold.idle, ?_, ?_, ?_⟩
  · intro t ht
    exact lt_of_lt_of_le (hold.timer_lt t ht) hnext
  · intro t timer ht htimer
    rcases hsub t timer htimer with hthere | hnew
    · exact hold.timer_own t timer ht hthere
    · exact absurd (hold.timer_lt t ht) (not_lt.mpr hnew)
  · intro hidle
    obtain ⟨hexpiring, hpending⟩ := hold.pending hidle
    refine ⟨hexpiring, ?_⟩
    rcases hpending with howe | ⟨t, timer, ht, htimer⟩
    · exact .inl (howed k hC howe)
    · have hown := (hold.timer_own t timer ht htimer).1
      exact .inr ⟨t, timer, ht, htimers t timer (hold.timer_lt t ht) htimer (hown ▸ hC)⟩

theorem mono (howed : ∀ k, owed k → owed' k) : p.AllExpire owed' :=
  h.change (fun _ => False) (fun _ _ => rfl) (fun k _ => howed k) le_rfl
    (fun _ _ _ htimer _ => htimer) (fun _ _ htimer => .inl htimer) fun _ _ hC => hC.elim

theorem stopTimer_keeps (hb : p.sessions.lookup k = some b) (htimer : p.timers.lookup t = some timer)
    (hne : timer.sessionID ≠ k) : (stopTimer p.timers b).lookup t = some timer := by
  rw [lookup_stopTimer, htimer]
  simp [h.timer_ne hb htimer hne]

theorem quiet (hquiet : Quiet p p') : p'.AllExpire owed := by
  obtain ⟨g, hsame, hlookup⟩ := hquiet.timers
  intro k b hb
  rw [hquiet.sessions] at hb
  have hold := h k b hb
  refine ⟨hold.nonneg, hold.idle, ?_, ?_, ?_⟩
  · intro t ht
    rw [hquiet.nextRef]
    exact hold.timer_lt t ht
  · intro t timer ht htimer
    rw [hlookup] at htimer
    obtain ⟨old, hthere, rfl⟩ := map_eq_some_iff.mp htimer
    rw [(hsame t old).1, (hsame t old).2]
    exact hold.timer_own t old ht hthere
  · intro hidle
    obtain ⟨hexpiring, howe | ⟨t, timer, ht, htimer⟩⟩ := hold.pending hidle
    · exact ⟨hexpiring, .inl howe⟩
    · exact ⟨hexpiring, .inr ⟨t, g t timer, ht, by rw [hlookup, htimer]; rfl⟩⟩

theorem stickyGrant (hb : p.sessions.lookup req.bindingKey = some b)
    (hslot : p.instances.lookup b.instanceID = some slot) :
    (assignedPool (p.cancelSessionUnbind req.bindingKey) req slot true).AllExpire owed := by
  obtain ⟨-, hsessions, htimers, hnext, -⟩ := assignedPool_sticky hb hslot
  have hold := h _ b hb
  have hsub : ∀ t timer,
      (assignedPool (p.cancelSessionUnbind req.bindingKey) req slot true).timers.lookup t = some timer →
        p.timers.lookup t = some timer := by
    intro t timer htimer
    rw [htimers] at htimer
    split at htimer
    · exact of_lookup_stopTimer htimer
    · exact htimer
  refine h.change (· = req.bindingKey) ?_ (fun k _ howe => howe) hnext.ge ?_
    (fun t timer htimer => .inl (hsub t timer htimer)) ?_
  · intro k hk
    rw [hsessions, if_neg hk]
  · intro t timer _ htimer hne
    rw [htimers]
    split
    · exact h.stopTimer_keeps hb htimer hne
    · exact htimer
  · rintro k b' rfl hb'
    rw [hsessions, if_pos rfl] at hb'
    cases hb'
    have hnonneg := hold.nonneg
    have htimer : ∀ t, (cancelled b).timer = some t → b.timer = some t := by
      intro t ht
      unfold cancelled at ht
      split at ht
      · cases ht
      · exact ht
    apply Expires.of_active
    · rw [stickyTake_activeAllocs, cancelled_activeAllocs]
      omega
    · rw [stickyTake_expiring, cancelled_expiring]
    · intro t ht
      rw [stickyTake_timer] at ht
      rw [hnext]
      exact hold.timer_lt t (htimer t ht)
    · intro t timer ht hthere
      rw [stickyTake_timer] at ht
      rw [stickyTake_ref, cancelled_ref]
      exact hold.timer_own t timer (htimer t ht) (hsub t timer hthere)

theorem addInUse (i : String) (d : Int) : (p.addInUse i d).AllExpire owed := by
  unfold LiteFunctionPool.addInUse
  split
  · exact h
  · exact fun k b hb => { h k b hb with }

theorem bindSessionFreshLocked (k i : String) (c : Int) :
    (p.bindSessionFreshLocked k i c).AllExpire owed := by
  refine h.change (· = k) ?_ (fun k _ howe => howe) (Nat.le_succ p.nextRef) ?_ ?_ ?_
  · intro k' hk'
    change (p.sessions.insert k _).lookup k' = _
    rw [lookup_insert_ne hk']
  · intro t timer _ htimer hne
    unfold LiteFunctionPool.bindSessionFreshLocked
    split
    · exact htimer
    · rename_i old hold
      exact h.stopTimer_keeps hold htimer hne
  · intro t timer htimer
    unfold LiteFunctionPool.bindSessionFreshLocked at htimer
    split at htimer
    · exact .inl htimer
    · exact .inl (of_lookup_stopTimer htimer)
  · rintro k' b' rfl hb'
    change (p.sessions.insert k' _).lookup k' = some b' at hb'
    rw [lookup_insert] at hb'
    cases hb'
    apply Expires.of_active Int.one_pos rfl
    · nofun
    · nofun

theorem stickyTake (hb : p.sessions.lookup k = some b) (hexpiring : b.expiring = false) :
    (p.stickyTake k).AllExpire owed := by
  have hold := h k b hb
  have hnonneg := hold.nonneg
  simp only [LiteFunctionPool.stickyTake, hb]
  have htaken : AllExpire
      { p with sessions := p.sessions.insert k (bindSessionStickyTakeLocked b).1 } owed := by
    refine h.change (· = k) ?_ (fun k _ howe => howe) le_rfl (fun t timer _ htimer _ => htimer)
      (fun t timer htimer => .inl htimer) ?_
    · intro k' hk'
      rw [lookup_insert_ne hk']
    rintro k' b' rfl hb'
    rw [lookup_insert] at hb'
    cases hb'
    apply Expires.of_active
    · rw [stickyTake_activeAllocs]
      omega
    · rw [stickyTake_expiring]
      exact hexpiring
    · intro t ht
      rw [stickyTake_timer] at ht
      exact hold.timer_lt t ht
    · intro t timer ht htimer
      rw [stickyTake_timer] at ht
      rw [stickyTake_ref]
      exact hold.timer_own t timer ht htimer
  have hload := htaken.addInUse b.instanceID (bindSessionStickyTakeLocked b).2
  cases hins : p.instances.lookup b.instanceID with
  | none | some ins =>
    simp only [LiteFunctionPool.addInUse, hins] at hload ⊢
    exact hload

theorem unbindSessionOnRelease (howed : ∀ k, owed k → owed' k)
    (hdue : (p.unbindSessionOnRelease k).2 = true → owed' k) :
    (p.unbindSessionOnRelease k).1.AllExpire owed' := by
  have hsame : p.AllExpire owed' := h.mono howed
  cases hb : p.sessions.lookup k with
  | none =>
    rw [unbindSessionOnRelease_of_none hb]
    exact hsame
  | some b =>
    have hold := hsame k b hb
    have hnonneg := hold.nonneg
    have hreturn := returnUnit_activeAllocs b
    rw [unbindSessionOnRelease_of_lookup hb] at hdue ⊢
    have hinsert : ∀ b', p.Expires (owed' k) k b' →
        AllExpire { p with sessions := p.sessions.insert k b' } owed' := by
      intro b' hb'
      refine hsame.change (· = k) ?_ (fun k _ howe => howe) le_rfl (fun t timer _ htimer _ => htimer)
        (fun t timer htimer => .inl htimer) ?_
      · intro k' hk'
        rw [lookup_insert_ne hk']
      rintro k' b'' rfl hb''
      rw [lookup_insert] at hb''
      cases hb''
      exact { hb' with }
    split
    · rename_i hmore
      apply hinsert
      refine ⟨by rw [hreturn]; split <;> omega, ?_, ?_, ?_, ?_⟩
      · intro hexpiring
        rw [returnUnit_expiring] at hexpiring
        have hidle := hold.idle hexpiring
        rw [hreturn, if_neg (by omega)]
        exact hidle
      · simpa only [returnUnit_timer] using hold.timer_lt
      · simpa only [returnUnit_timer, returnUnit_ref] using hold.timer_own
      · -- Nothing was left to return, and the timer is owed already.
        intro hidle
        rw [hidle] at hmore
        have hexpiring : b.expiring = true := by simpa using hmore
        rw [returnUnit_expiring, returnUnit_timer]
        exact hold.pending (hold.idle hexpiring)
    · rename_i hlast
      rw [if_neg hlast] at hdue
      simp only [Bool.or_eq_true, decide_eq_true_eq, not_or, not_lt] at hlast
      apply hinsert
      refine ⟨?_, ?_, ?_, ?_, fun _ => ⟨rfl, .inl (hdue rfl)⟩⟩
      · rw [hreturn]
        split <;> omega
      · intro _
        have hle := hlast.1
        rw [hreturn] at hle ⊢
        split at hle <;> split <;> omega
      · simpa only [returnUnit_timer] using hold.timer_lt
      · simpa only [returnUnit_timer, returnUnit_ref] using hold.timer_own

theorem startSessionUnbindTimer (k : String) (ttl : Int) (now : Nat)
    (howed : ∀ k', k' ≠ k → owed k' → owed' k') : (p.startSessionUnbindTimer k ttl now).AllExpire owed' := by
  unfold LiteFunctionPool.startSessionUnbindTimer
  split
  · rename_i hnone
    refine h.change (· = k) (fun _ _ => rfl) howed le_rfl (fun t timer _ htimer _ => htimer)
      (fun t timer htimer => .inl htimer) ?_
    rintro k' b rfl hb
    rw [hnone] at hb
    cases hb
  rename_i b hb
  have hold := h k b hb
  split
  · rename_i hbusy
    refine h.change (· = k) (fun _ _ => rfl) howed le_rfl (fun t timer _ htimer _ => htimer)
      (fun t timer htimer => .inl htimer) ?_
    rintro k' b' rfl hb'
    rw [hb] at hb'
    cases hb'
    refine { hold with pending := ?_ }
    intro hidle
    obtain ⟨hexpiring, -⟩ := hold.pending hidle
    simp [hexpiring, hidle] at hbusy
  · rename_i hready
    simp only [Bool.or_eq_true, Bool.not_eq_true', decide_eq_true_eq, not_or,
      Bool.not_eq_false, ne_eq, not_not] at hready
    refine h.change (· = k) ?_ howed (Nat.le_succ p.nextRef) ?_ ?_ ?_
    · intro k' hk'
      rw [lookup_insert_ne hk']
    · intro t timer ht htimer hne
      rw [lookup_insert_ne ht.ne]
      exact h.stopTimer_keeps hb htimer hne
    · exact forall_lookup_insert (.inr le_rfl) fun _ _ hthere => .inl (of_lookup_stopTimer hthere)
    · rintro k' b' rfl hb'
      rw [lookup_insert] at hb'
      cases hb'
      refine ⟨hold.nonneg, hold.idle, ?_, ?_, ?_⟩
      · rintro t ⟨rfl⟩
        exact Nat.lt_succ_self p.nextRef
      · rintro t timer ⟨rfl⟩ htimer
        rw [lookup_insert] at htimer
        cases htimer
        exact ⟨rfl, rfl⟩
      · intro _
        exact ⟨hready.1, .inr ⟨p.nextRef, ⟨k', b.ref, sessionTTLFor ttl + now, false⟩, rfl, lookup_insert _⟩⟩

theorem fireSessionUnbind (htimer : p.timers.lookup t = some timer) :
    (p.fireSessionUnbind t timer).AllExpire owed := by
  have hother : ∀ t' timer', p.timers.lookup t' = some timer' → timer'.sessionID ≠ timer.sessionID →
      (p.timers.erase t).lookup t' = some timer' := by
    intro t' timer' htimer' hne
    rw [lookup_erase_eq_ite, if_neg]
    · exact htimer'
    rintro rfl
    rw [htimer] at htimer'
    cases htimer'
    exact hne rfl
  unfold LiteFunctionPool.fireSessionUnbind
  split
  · rename_i haccepted
    cases hb : p.sessions.lookup timer.sessionID with
    | none => simp [unbindAccepted, hb] at haccepted
    | some b =>
      simp only [LiteFunctionPool.removeSessionBinding, hb]
      refine h.change (· = timer.sessionID) ?_ (fun k _ howe => howe) ?_ ?_ ?_ ?_
      · intro k hk
        rw [lookup_erase_ne hk]
      · exact (processInstanceInUse_nextRef { p with timers := p.timers.erase t } b).ge
      · intro t' timer' _ htimer' hne
        rw [lookup_stopTimer, hother t' timer' htimer' hne]
        simp [h.timer_ne hb htimer' hne]
      · intro t' timer' htimer'
        exact .inl (lookup_of_erase (of_lookup_stopTimer htimer'))
      · rintro k b' rfl hb'
        exact absurd rfl (ne_of_lookup_erase hb')
  · rename_i hrejected
    refine h.change (· = timer.sessionID) (fun _ _ => rfl) (fun k _ howe => howe) le_rfl
      (fun t' timer' _ htimer' hne => hother t' timer' htimer' hne)
      (fun t' timer' htimer' => .inl (lookup_of_erase htimer')) ?_
    rintro k b rfl hb
    have hold := h _ b hb
    refine { hold with timer_own := ?_, pending := ?_ }
    · intro t' timer' ht' htimer'
      exact hold.timer_own t' timer' ht' (lookup_of_erase htimer')
    intro hidle
    obtain ⟨hexpiring, howe | ⟨t', timer', ht', htimer'⟩⟩ := hold.pending hidle
    · exact ⟨hexpiring, .inl howe⟩
    refine ⟨hexpiring, .inr ⟨t', timer', ht', ?_⟩⟩
    rw [lookup_erase_eq_ite, if_neg]
    · exact htimer'
    · -- The timer of an idle binding would have been accepted.
      rintro rfl
      have hown := hold.timer_own t' timer ht' htimer
      simp [unbindAccepted, hb, hown.2, ht', hexpiring, hidle] at hrejected

theorem removeInstance (i : String) : (p.removeInstance i).AllExpire owed := by
  have hunbound := removeInstance_unbound p i
  refine h.change (fun k => ∃ b, p.sessions.lookup k = some b ∧ b.instanceID = i) ?_
    (fun k _ howe => howe) hunbound.nextRef.ge ?_
    (fun t timer htimer => .inl (hunbound.timers t timer htimer)) ?_
  · intro k hk
    rw [hunbound.sessions]
    cases hb : p.sessions.lookup k with
    | none => rfl
    | some b =>
      have hne : b.instanceID ≠ i := fun hid => hk ⟨b, hb, hid⟩
      simp [hne]
  · intro t timer _ htimer hne
    apply hunbound.timers_keep t timer htimer
    intro k b hb hid
    apply h.timer_ne hb htimer
    rintro rfl
    exact hne ⟨b, hb, hid⟩
  · rintro k b ⟨old, hold, hid⟩ hb
    rw [hunbound.sessions] at hb
    obtain ⟨hthere, hne⟩ := filter_eq_some_iff.mp hb
    rw [hold] at hthere
    cases hthere
    simp [hid] at hne

end LiteFunctionPool.AllExpire

end Pool

/-! ### Runs -/

/-- Steps of runs in which no reacquire takes a unit of a session that is waiting for its timer. -/
def cancelsIdle (s : System) : Event → Bool
  | .run tid _ =>
    match s.threads.lookup tid with
    | some (.reacquire params) =>
      (s.ls.allocations.lookup params.allocID).isSome || params.sessionID = "" ||
        ((s.ls.getPool params.funcKey).all fun pool =>
          (pool.sessions.lookup
            (pool.sessionBindingKey params.sessionID params.sessionCtxID)).all fun b =>
              !b.expiring)
    | _ => true
  | _ => true

def Owed (s : System) (f k : String) : Prop :=
  ∃ tid pc, s.threads.lookup tid = some pc ∧ pc.unbinds = some (f, k)

def IdleExpire (s : System) : Prop :=
  ∀ f p, s.ls.getPool f = some p → p.AllExpire (Owed s f)

section Run

variable {cfg : Config} {s : System} {e : Event} {f k : String}
  {p : LiteFunctionPool} {tid : Nat}

theorem Owed.finish (h : Owed s f k) (o : Outcome)
    (hunbinds : (s.threads.lookup tid).bind Pc.unbinds = some (f, k) →
      o.next.bind Pc.unbinds = some (f, k)) : Owed (s.finish tid o).1 f k := by
  obtain ⟨tid', pc, hpc, howe⟩ := h
  by_cases htid : tid' = tid
  · subst htid
    obtain ⟨pc', hnext, howe'⟩ := bind_eq_some_iff.mp (hunbinds (by rw [hpc]; exact howe))
    exact ⟨tid', pc', by rw [System.finish, setThread_lookup, if_pos rfl, hnext], howe'⟩
  · exact ⟨tid', pc, by rw [System.finish, setThread_lookup, if_neg htid, hpc], howe⟩

theorem Owed.finish_of_none (hnone : (s.threads.lookup tid).bind Pc.unbinds = none) (o : Outcome) :
    ∀ f k, Owed s f k → Owed (s.finish tid o).1 f k := by
  intro f k h
  apply h.finish
  rw [hnone]
  nofun

theorem IdleExpire.next_same (hinv : IdleExpire s) (hpools : s'.ls.pools = s.ls.pools)
    (howed : ∀ f k, Owed s f k → Owed s' f k) : IdleExpire s' := by
  intro f p hp
  rw [getPool, hpools] at hp
  exact (hinv f p hp).mono (howed f)

theorem IdleExpire.next_setPool (hinv : IdleExpire s) (hpools : s'.ls.pools = s.ls.pools.insert f p')
    (howed : ∀ g k, g ≠ f → Owed s g k → Owed s' g k) (hp' : p'.AllExpire (Owed s' f)) : IdleExpire s' := by
  intro g q hq
  rw [getPool, hpools, lookup_insert_eq_ite] at hq
  split at hq
  · rename_i hg
    cases hq
    rw [hg]
    exact hp'
  · rename_i hg
    exact (hinv g q hq).mono fun k => howed g k hg

theorem IdleExpire.next_pool (hinv : IdleExpire s) (hp : s.ls.getPool f = some p)
    (hpools : s'.ls.pools = s.ls.pools.insert f p') (howed : ∀ g k, Owed s g k → Owed s' g k)
    (hkeep : ∀ owed, p.AllExpire owed → p'.AllExpire owed) : IdleExpire s' :=
  hinv.next_setPool hpools (fun g k _ => howed g k) (hkeep _ ((hinv f p hp).mono (howed f)))

theorem AllExpire.assignedFresh (h : p.AllExpire owed) (d : Dispatcher) :
    (assignedPool { p with dispatcher := d } req slot false).AllExpire owed := by
  have hseq : LiteFunctionPool.AllExpire { p with dispatcher := d, seqCounter := nextSeq p } owed :=
    fun k b hb => { h k b hb with }
  by_cases hsession : req.sessionID = ""
  · rw [assignedPool_unit hsession]
    exact hseq.addInUse _ _
  · rw [assignedPool_session hsession]
    exact (hseq.addInUse _ _).bindSessionFreshLocked _ _ _

theorem AllExpire.buildReacquiredAlloc (h : p.AllExpire owed)
    (hidle : params.sessionID ≠ "" → ∀ b, p.sessions.lookup
      (p.sessionBindingKey params.sessionID params.sessionCtxID) = some b → b.expiring = false) :
    (buildReacquiredAlloc p params).AllExpire owed := by
  unfold LiteScheduler.buildReacquiredAlloc
  dsimp only
  split
  · rename_i hsession
    split
    · rename_i b hb
      exact h.stickyTake hb (hidle hsession b hb)
    · exact (h.addInUse _ _).bindSessionFreshLocked _ _ _
  · exact h.addInUse _ _

theorem AllExpire.returned (h : p.AllExpire owed) (hreturned : Returned p alloc p' unbind)
    (howed : ∀ k, owed k → owed' k) (hdue : ∀ k, unbind = some k → owed' k) : p'.AllExpire owed' := by
  cases hreturned with
  | session =>
    apply h.unbindSessionOnRelease howed
    intro hneed
    exact hdue _ (if_pos hneed)
  | unit => exact (h.mono howed).addInUse _ _
  | gone | empty => exact h.mono howed

theorem Pc.unbinds_of_token {pc : Pc} (h : pc.token = some alloc) : pc.unbinds = none := by
  cases pc with
  | removeTask | releaseSlot | reapSlot => rfl
  | _ => cases h

theorem Effect.idleExpire (heffect : Effect cfg s e r) (hok : cancelsIdle s e = true)
    (hinv : IdleExpire s) : IdleExpire r.1 := by
  cases heffect with
  | move hls _ _ hunbinds =>
    refine hinv.next_same (congrArg LiteScheduler.pools hls) ?_
    intro f k h
    exact h.finish _ fun hsome => hunbinds.trans hsome
  | cursor hpool hls _ _ hunbinds =>
    refine hinv.next_pool hpool (congrArg LiteScheduler.pools hls) ?_ fun _ h k b hb => { h k b hb with }
    intro f k h
    exact h.finish _ fun hsome => hunbinds.trans hsome
  | stickyGrant hpc hpool hbinding hslot =>
    refine hinv.next_pool hpool (assignInstance_pools _ _ _ _ _ _) ?_
      fun _ h => h.stickyGrant hbinding hslot
    rcases hpc with hpc | hpc
    all_goals exact Owed.finish_of_none (by rw [hpc]; rfl) _
  | freshGrant hpc hpool =>
    refine hinv.next_pool hpool (assignInstance_pools _ _ _ _ _ _) ?_
      fun _ h => AllExpire.assignedFresh h _
    rcases hpc with ⟨hpc, -⟩ | ⟨deadline, hpc⟩
    all_goals exact Owed.finish_of_none (by rw [hpc]; rfl) _
  | release hfree => exact hinv.next_same rfl (Owed.finish_of_none (by rw [hfree]; rfl) _)
  | removeTask hpc => exact hinv.next_same rfl (Owed.finish_of_none (by rw [hpc]; rfl) _)
  | @returned tid _ pc alloc _ pool' _ next hpc htoken hpool hreturned _ hunbinds =>
    have howed : ∀ g k, Owed s g k →
        Owed (s.finish tid { ls := s.ls.setPool alloc.funcKey pool', next }).1 g k :=
      Owed.finish_of_none (by rw [hpc]; exact Pc.unbinds_of_token htoken) _
    refine hinv.next_setPool rfl (fun g k _ => howed g k) ?_
    refine AllExpire.returned (hinv _ _ hpool) hreturned (howed _) ?_
    intro k hk
    rw [hk] at hunbinds
    obtain ⟨pc, hpc', howe⟩ := bind_eq_some_iff.mp hunbinds
    exact ⟨_, pc, by rw [System.finish, setThread_lookup, if_pos rfl, hpc'], howe⟩
  | @startTimer tid _ f k ttl reply pool hpc hpool =>
    have howed : ∀ g k', (g, k') ≠ (f, k) → Owed s g k' → Owed (s.finish tid
          { ls := s.ls.setPool f (pool.startSessionUnbindTimer k ttl s.ls.now), reply }).1 g k' := by
      intro g k' hne h
      apply h.finish
      rw [hpc]
      intro hsome
      exact absurd (some.inj hsome).symm hne
    refine hinv.next_setPool rfl ?_ ?_
    · intro g k' hg
      exact howed g k' fun heq => hg (congrArg Prod.fst heq)
    apply (hinv f pool hpool).startSessionUnbindTimer
    intro k' hk'
    exact howed f k' fun heq => hk' (congrArg Prod.snd heq)
  | dropAlloc hpc | dropTask hpc => exact hinv.next_same rfl (Owed.finish_of_none (by rw [hpc]; rfl) _)
  | refresh hpc =>
    refine hinv.next_same rfl ?_
    rcases hpc with ⟨slot, hpc⟩ | ⟨params, -, hpc⟩
    all_goals exact Owed.finish_of_none (by rw [hpc]; rfl) _
  | updateTask hpc => exact hinv.next_same (setWheel_pools _ _) (Owed.finish_of_none (by rw [hpc]; rfl) _)
  | reacquireGrant hpc hpool _ _ halloc =>
    refine hinv.next_pool hpool rfl (Owed.finish_of_none (by rw [hpc]; rfl) _) ?_
    intro owed h
    apply AllExpire.buildReacquiredAlloc h
    intro hsession b hb
    simpa [cancelsIdle, hpc, halloc, hsession, hpool, hb] using hok
  | reap hidle =>
    exact hinv.next_same rfl
      (Owed.finish_of_none (by rw [hidle]; rfl) { ls := s.ls, next := some (.reapSlot _) })
  | fire hpool htimer => exact hinv.next_pool hpool rfl (fun _ _ h => h) fun _ h => h.fireSessionUnbind htimer
  | upsert hpool => exact hinv.next_pool hpool rfl (fun _ _ h => h) fun _ h k b hb => { h k b hb with }
  | remove hpool => exact hinv.next_pool hpool rfl (fun _ _ h => h) fun _ h => h.removeInstance _
  | quiet hpool hquiet => exact hinv.next_pool hpool rfl (fun _ _ h => h) fun _ h => h.quiet hquiet
  | _ => exact hinv.next_same rfl fun _ _ h => h

end Run

/-- **Idle sessions expire.** When reacquires leave sessions alone that wait for their timer, an
idle session has one, or is about to get it. -/
theorem idle_session_expires (cfg : Config) (s : System)
    (hreach : (scheduler cfg).Reach (fun s e => cancelsIdle s e = true) s) (f : String)
    (p : LiteFunctionPool) (k : String) (b : SessionBinding) (hp : s.ls.getPool f = some p)
    (hb : p.sessions.lookup k = some b) (hidle : b.activeAllocs = 0) :
    b.expiring = true ∧
      ((∃ t timer, b.timer = some t ∧ p.timers.lookup t = some timer ∧ timer.sessionID = k ∧
          p.unbindAccepted t timer = true) ∨
        ∃ tid pc, s.threads.lookup tid = some pc ∧ pc.unbinds = some (f, k)) := by
  have hexpires : IdleExpire s := by
    refine hreach.invariant ?_ ?_
    · intro s hinit f p hp k b hb
      obtain ⟨spec, rfl⟩ := hinit.pools f p hp
      cases hb
    · intro s e s' l hs hok hinv hstep
      exact (step_effect (wellFormed_of_reach hs) hstep).idleExpire hok hinv
  have hexpires := hexpires f p hp k b hb
  obtain ⟨hexpiring, howed | ⟨t, timer, ht, htimer⟩⟩ := hexpires.pending hidle
  · exact ⟨hexpiring, .inr howed⟩
  obtain ⟨hsession, hbinding⟩ := hexpires.timer_own t timer ht htimer
  refine ⟨hexpiring, .inl ⟨t, timer, ht, htimer, hsession, ?_⟩⟩
  rw [← hsession] at hb
  simp [unbindAccepted, hb, hbinding, ht, hexpiring, hidle]

def bindAndRelease : List Event :=
  [.instanceUpdate "t/f/1" (plainInstance "i" 4), .acquire 1 (plainRequest "s"), .run 1 {},
    .run 1 { order := ["i"] }, .release 2 "lite:s:i:thread:1", .run 2 {}, .run 2 {}, .run 2 {},
    .run 2 {}]

theorem idle_session_expires_released : ∃ s p b,
    (scheduler plainConfig).Reach (fun s e => cancelsIdle s e = true) s ∧
      s.ls.getPool "t/f/1" = some p ∧ p.sessions.lookup "s" = some b ∧ b.activeAllocs = 0 ∧
      b.expiring = true ∧
      ((∃ t timer, b.timer = some t ∧ p.timers.lookup t = some timer ∧ timer.sessionID = "s" ∧
          p.unbindAccepted t timer = true) ∨
        ∃ tid pc, s.threads.lookup tid = some pc ∧ pc.unbinds = some ("t/f/1", "s")) := by
  obtain ⟨s, hreach, p, hp, b, hb, hidle⟩ := reach_of_run plainConfig cancelsIdle [("t/f/1", plainSpec)]
    bindAndRelease
    (fun s => ∃ p, s.ls.getPool "t/f/1" = some p ∧
      ∃ b, p.sessions.lookup "s" = some b ∧ b.activeAllocs = 0) (by decide)
  exact ⟨s, p, b, hreach, hp, hb, hidle,
    idle_session_expires plainConfig s hreach "t/f/1" p "s" b hp hb hidle⟩

/-- The allocation is rebuilt while the timer runs, and after the release nothing removes the
session. -/
theorem idle_session_without_expiry : ∃ s p b, (scheduler plainConfig).Reachable s ∧
    s.ls.getPool "t/f/1" = some p ∧ p.sessions.lookup "s" = some b ∧ b.activeAllocs = 0 ∧
    ¬(b.expiring = true ∧
      ((∃ t timer, b.timer = some t ∧ p.timers.lookup t = some timer ∧ timer.sessionID = "s" ∧
          p.unbindAccepted t timer = true) ∨
        ∃ tid pc, s.threads.lookup tid = some pc ∧ pc.unbinds = some ("t/f/1", "s"))) := by
  obtain ⟨s, hreach, hthreads, p, hp, htimers, b, hb, hidle⟩ :=
    reachable_of_run plainConfig [("t/f/1", plainSpec)] (bindAndRelease ++
      [.retain 3 "lite:s:i:thread:1" (some (plainReacquireData "s" 2)) none, .run 3 {}, .run 3 {},
        .elapse 1000000000, .timerLaunch "t/f/1" 1, .timerFire "t/f/1" 1,
        .release 4 "lite:s:i:thread:1", .run 4 {}, .run 4 {}, .run 4 {}])
    (fun s => s.threads.entries.isEmpty ∧ ∃ p, s.ls.getPool "t/f/1" = some p ∧
      p.timers.entries.isEmpty ∧ ∃ b, p.sessions.lookup "s" = some b ∧ b.activeAllocs = 0) (by decide)
  refine ⟨s, p, b, hreach, hp, hb, hidle, ?_⟩
  rintro ⟨-, ⟨t, timer, -, htimer, -⟩ | ⟨tid, pc, hpc, -⟩⟩
  · have hmem := mem_entries_iff.mpr htimer
    rw [List.isEmpty_iff.mp htimers] at hmem
    cases hmem
  · have hmem := mem_entries_iff.mpr hpc
    rw [List.isEmpty_iff.mp hthreads] at hmem
    cases hmem

end Yuanrong.Lite
