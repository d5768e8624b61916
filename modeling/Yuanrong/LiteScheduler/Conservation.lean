import Yuanrong.LiteScheduler.FreshIDs
import Yuanrong.LiteScheduler.Proof.Balance

/-!
# Conservation of capacity

What an instance is accounted is what its sessions hold and what is out without a session, and what
a session counts as active is what is out for it.
-/

namespace Yuanrong.Lite

open AList Option LiteScheduler LiteFunctionPool

def carries (p : LiteFunctionPool) (f k : String) (a : Allocation) : Bool :=
  a.sessionID ≠ "" && a.funcKey = f && p.sessionBindingKey a.sessionID a.sessionCtxID = k

def inFlight (s : System) (p : LiteFunctionPool) (f k : String) : Bool :=
  s.threads.entries.any fun entry => entry.2.token.any (carries p f k)

/-- A session may be bound afresh under the key: it is not bound, and nothing of it is on its way
back. -/
def mayBind (s : System) (f k : String) : Bool :=
  (s.ls.getPool f).all fun p => (p.sessions.lookup k).isNone && !inFlight s p f k

def isBound (s : System) (f k : String) : Bool :=
  (s.ls.getPool f).any fun p => (p.sessions.lookup k).isSome

variable (owner : String → String)

/-- Steps that lose sight of no unit and bind no session whose units are still about. -/
def conserving (s : System) (e : Event) : Bool :=
  inSequence owner s e && accountable s e &&
    match e with
    | .run tid _ =>
      match s.threads.lookup tid with
      | some (.dispatch req) =>
        req.sessionID = "" || isBound s req.funcKey req.bindingKey ||
          mayBind s req.funcKey req.bindingKey
      | some (.poll req _) => req.sessionID = "" || mayBind s req.funcKey req.bindingKey
      | some (.reacquire params) =>
        params.sessionID = "" || (s.ls.getPool params.funcKey).all fun p =>
          let key := p.sessionBindingKey params.sessionID params.sessionCtxID
          isBound s params.funcKey key || mayBind s params.funcKey key
      | some (.dropAlloc id _) => (s.ls.allocations.lookup id).isNone
      | _ => true
    | _ => true

structure Conserved (s : System) : Prop where
  covers : ∀ f p i v, s.ls.getPool f = some p → p.slack i = some v → v = units (free f i) s
  active : ∀ f p k b, s.ls.getPool f = some p → p.sessions.lookup k = some b →
    b.activeAllocs = units (carries p f k) s
  live_bound : ∀ id a p, s.ls.allocations.lookup id = some a → a.sessionID ≠ "" →
    s.ls.getPool a.funcKey = some p → ∃ b,
      p.sessions.lookup (p.sessionBindingKey a.sessionID a.sessionCtxID) = some b ∧
        b.instanceID = a.instanceID
  token_bound : ∀ tid pc a p b, s.threads.lookup tid = some pc → pc.token = some a →
    a.sessionID ≠ "" → s.ls.getPool a.funcKey = some p →
    p.sessions.lookup (p.sessionBindingKey a.sessionID a.sessionCtxID) = some b →
    b.instanceID = a.instanceID

variable {s : System} {f k : String} {p p' : LiteFunctionPool} {a : Allocation} {tid : Nat}

theorem carries_iff : carries p f k a = true ↔
    a.sessionID ≠ "" ∧ a.funcKey = f ∧ p.sessionBindingKey a.sessionID a.sessionCtxID = k := by
  simp [carries, and_assoc]

theorem weigh_carries (p : LiteFunctionPool) (f k : String) (a : Allocation) :
    weigh (carries p f k) (some a) = if a.sessionID ≠ "" ∧ a.funcKey = f ∧
      p.sessionBindingKey a.sessionID a.sessionCtxID = k then 1 else 0 := by
  simp only [weigh, any_some, carries_iff]

theorem weigh_carries_unit (hsession : a.sessionID = "") : weigh (carries p f k) (some a) = 0 := by
  rw [weigh_carries, if_neg fun h => h.1 hsession]

theorem weigh_carries_other (hf : f ≠ a.funcKey) : weigh (carries p f k) (some a) = 0 := by
  rw [weigh_carries, if_neg fun h => hf h.2.1.symm]

theorem weigh_carries_session (hsession : a.sessionID ≠ "") : weigh (carries p a.funcKey k) (some a) =
    if k = p.sessionBindingKey a.sessionID a.sessionCtxID then 1 else 0 := by
  rw [weigh_carries]
  simp [hsession, eq_comm]

theorem carries_congr (hkey : p'.sessionBindingKey = p.sessionBindingKey) :
    carries p' f k = carries p f k := by
  funext a
  simp only [carries, hkey]

theorem Conserved.units_eq_zero (hcons : Conserved s) (hp : s.ls.getPool f = some p)
    (hmay : mayBind s f k = true) : units (carries p f k) s = 0 := by
  simp only [mayBind, hp, all_some, Bool.and_eq_true, isNone_iff_eq_none, Bool.not_eq_true'] at hmay
  have hlive : live (carries p f k) s.ls = 0 := by
    apply live_eq_zero
    intro id a ha
    by_contra hcarries
    obtain ⟨hsession, rfl, rfl⟩ := carries_iff.mp (by simpa using hcarries)
    obtain ⟨b, hb, -⟩ := hcons.live_bound id a p ha hsession hp
    rw [hmay.1] at hb
    cases hb
  have htokens : tokens (carries p f k) s = 0 := by
    apply tokens_eq_zero
    intro tid pc a hpc htoken
    have hnone := hmay.2
    rw [inFlight, List.any_eq_false] at hnone
    have hentry := hnone ⟨tid, pc⟩ (mem_entries_iff.mpr hpc)
    simpa [htoken] using hentry
  rw [units, hlive, htokens, add_zero]

section Active

variable {cfg : Config} {s : System} {e : Event} {r : System × Label} {f k : String}
  {p p' : LiteFunctionPool} {b' : SessionBinding}

variable {q q' : LiteFunctionPool} {s' : System} {g : String} {choice : Choice}
  {params : ReacquireParams}

section

variable (hcons : Conserved s) (hp : s.ls.getPool f = some p) (hp' : s'.ls.getPool f = some p')
  (hb' : p'.sessions.lookup k = some b')
include hcons hp hp' hb'

theorem Conserved.active_setPool (hq : s.ls.getPool g = some q)
    (hpools : s'.ls.pools = s.ls.pools.insert g q')
    (hsessions : ∀ k b', q'.sessions.lookup k = some b' →
      ∃ b, q.sessions.lookup k = some b ∧ b'.activeAllocs = b.activeAllocs)
    (hunits : units (carries p f k) s' = units (carries p f k) s) :
    b'.activeAllocs = units (carries p f k) s' := by
  rw [hunits]
  rcases eq_of_setPool hp hp' hpools with ⟨rfl, rfl⟩ | ⟨-, rfl⟩
  · rw [hp] at hq
    cases hq
    obtain ⟨b, hb, hactive⟩ := hsessions k b' hb'
    rw [hactive]
    exact hcons.active f p k b hp hb
  · exact hcons.active f _ k b' hp hb'

theorem Conserved.active_unit (hq : s.ls.getPool g = some q)
    (hpools : s'.ls.pools = s.ls.pools.insert g q') (hsessions : q'.sessions = q.sessions)
    (hunits : units (carries p f k) s' = units (carries p f k) s) :
    b'.activeAllocs = units (carries p f k) s' := by
  refine hcons.active_setPool hp hp' hb' hq hpools ?_ hunits
  intro k b hb
  rw [hsessions] at hb
  exact ⟨b, hb, rfl⟩

end

/-- An allocation is recorded: the session it is of, if any, counts one more. -/
theorem Conserved.active_insert {a : Allocation} {o : Outcome} {allocID : String} (hcons : Conserved s)
    (hp : s.ls.getPool f = some p) (hp' : (s.finish tid o).1.ls.getPool f = some p')
    (hb' : p'.sessions.lookup k = some b') (hq : s.ls.getPool a.funcKey = some q)
    (hpools : o.ls.pools = s.ls.pools.insert a.funcKey q')
    (hallocs : o.ls.allocations = s.ls.allocations.insert allocID a)
    (htoken : (s.threads.lookup tid).bind Pc.token = none) (hnext : o.next.bind Pc.token = none)
    (hfresh : s.ls.allocations.lookup allocID = none)
    (hkey : q.sessionBindingKey a.sessionID a.sessionCtxID = k₀)
    (hunit : a.sessionID = "" → q'.sessions = q.sessions)
    (hbound : a.sessionID ≠ "" → ∃ n : SessionBinding,
      n.activeAllocs = units (carries q a.funcKey k₀) s + 1 ∧
        ∀ k, q'.sessions.lookup k = if k = k₀ then some n else q.sessions.lookup k) :
    b'.activeAllocs = units (carries p f k) (s.finish tid o).1 := by
  have hunits := units_insert (P := carries p f k) htoken hallocs hnext
  rw [hfresh, weigh_none, sub_zero] at hunits
  by_cases hsession : a.sessionID = ""
  · rw [weigh_carries_unit hsession, add_zero] at hunits
    exact hcons.active_unit hp hp' hb' hq hpools (hunit hsession) hunits
  obtain ⟨n, hone, hsessions⟩ := hbound hsession
  rw [hunits]
  rcases eq_of_setPool hp hp' hpools with ⟨rfl, rfl⟩ | ⟨hf, rfl⟩
  · rw [hp] at hq
    cases hq
    rw [hsessions] at hb'
    rw [weigh_carries_session hsession, hkey]
    split at hb'
    · rename_i hk
      cases hb'
      rw [if_pos hk, hk]
      exact hone
    · rename_i hk
      rw [if_neg hk, add_zero]
      exact hcons.active _ p k b' hp hb'
  · rw [weigh_carries_other hf, add_zero]
    exact hcons.active f _ k b' hp hb'

theorem mayBind_of_unbound (hp : s.ls.getPool f = some p) (hnone : p.sessions.lookup k = none)
    (hcond : (isBound s f k || mayBind s f k) = true) : mayBind s f k = true := by
  rcases Bool.or_eq_true_iff.mp hcond with hbound | hmay
  · simp [isBound, hp, hnone] at hbound
  · exact hmay

variable {owner}

theorem mayBind_of_request
    (hok : conserving owner s (.run tid choice) = true) (hp : s.ls.getPool req.funcKey = some p)
    (hpc : (s.threads.lookup tid = some (.dispatch req) ∧ p.sessions.lookup req.bindingKey = none) ∨
      ∃ deadline, s.threads.lookup tid = some (.poll req deadline))
    (hsession : req.sessionID ≠ "") : mayBind s req.funcKey req.bindingKey = true := by
  have hcond := (Bool.and_eq_true_iff.mp hok).2
  rcases hpc with ⟨hpc, hnone⟩ | ⟨deadline, hpc⟩
  · simp only [hpc, hsession, decide_false, Bool.false_or] at hcond
    exact mayBind_of_unbound hp hnone hcond
  · simpa [hpc, hsession] using hcond

theorem mayBind_of_reacquire (hok : conserving owner s (.run tid choice) = true)
    (hp : s.ls.getPool params.funcKey = some p)
    (hpc : s.threads.lookup tid = some (.reacquire params)) (hsession : params.sessionID ≠ "")
    (hnone : p.sessions.lookup (p.sessionBindingKey params.sessionID params.sessionCtxID) = none) :
    mayBind s params.funcKey (p.sessionBindingKey params.sessionID params.sessionCtxID) = true := by
  have hcond := (Bool.and_eq_true_iff.mp hok).2
  simp only [hpc, hsession, decide_false, Bool.false_or, hp, all_some] at hcond
  exact mayBind_of_unbound hp hnone hcond

theorem lookup_unbind (hb' : (p.unbindSessionOnRelease k₀).1.sessions.lookup k = some b') :
    (k ≠ k₀ ∧ p.sessions.lookup k = some b') ∨ (k = k₀ ∧ ∃ b, p.sessions.lookup k = some b ∧
      b'.instanceID = b.instanceID ∧ b'.activeAllocs = (returnUnit b).activeAllocs) := by
  have hinsert : ∀ b n : SessionBinding, p.sessions.lookup k₀ = some b →
      n.instanceID = b.instanceID → n.activeAllocs = (returnUnit b).activeAllocs →
      (p.sessions.insert k₀ n).lookup k = some b' →
      (k ≠ k₀ ∧ p.sessions.lookup k = some b') ∨ (k = k₀ ∧ ∃ b, p.sessions.lookup k = some b ∧
        b'.instanceID = b.instanceID ∧ b'.activeAllocs = (returnUnit b).activeAllocs) := by
    intro b n hb hid hactive hlookup
    rw [lookup_insert_eq_ite] at hlookup
    split at hlookup
    · rename_i hk
      cases hlookup
      exact .inr ⟨hk, b, hk ▸ hb, hid, hactive⟩
    · rename_i hk
      exact .inl ⟨hk, hlookup⟩
  cases hb : p.sessions.lookup k₀ with
  | none =>
    rw [unbindSessionOnRelease_of_none hb] at hb'
    refine .inl ⟨?_, hb'⟩
    rintro rfl
    rw [hb] at hb'
    cases hb'
  | some b =>
    rw [unbindSessionOnRelease_of_lookup hb] at hb'
    split at hb'
    · exact hinsert b (returnUnit b) hb (returnUnit_instanceID b) rfl hb'
    · exact hinsert b { returnUnit b with expiring := true } hb (returnUnit_instanceID b) rfl hb'

theorem Conserved.active_returned (hcons : Conserved s) (hwf : s.WellFormed)
    (hpc : s.threads.lookup tid = some pc) (htoken : pc.token = some a)
    (hp : s.ls.getPool a.funcKey = some p) (hreturned : Returned p a q unbind)
    (hunits : u = units (carries p a.funcKey k) s - weigh (carries p a.funcKey k) (some a))
    (hb' : q.sessions.lookup k = some b') : b'.activeAllocs = u := by
  have hsame : weigh (carries p a.funcKey k) (some a) = 0 → p.sessions.lookup k = some b' →
      b'.activeAllocs = u := by
    intro hzero hb
    rw [hunits, hzero, sub_zero]
    exact hcons.active _ p k b' hp hb
  cases hreturned with
  | session hsession =>
    rw [weigh_carries_session hsession] at hunits hsame
    rcases lookup_unbind hb' with ⟨hk, hb⟩ | ⟨rfl, b, hb, -, hreturn⟩
    · exact hsame (if_neg hk) hb
    have hactive := hcons.active _ p _ b hp hb
    have hlive : 0 ≤ live (carries p a.funcKey
      (p.sessionBindingKey a.sessionID a.sessionCtxID)) s.ls := live_nonneg
    have hpos : 0 < tokens (carries p a.funcKey (p.sessionBindingKey a.sessionID a.sessionCtxID)) s :=
      tokens_pos hpc htoken (carries_iff.mpr ⟨hsession, rfl, rfl⟩)
    rw [if_pos rfl] at hunits
    unfold units at hactive hunits
    rw [hreturn, returnUnit_activeAllocs, if_pos (by omega)]
    omega
  | unit hsession =>
    rw [addInUse_sessions] at hb'
    exact hsame (weigh_carries_unit hsession) hb'
  | gone hslot =>
    refine hsame ?_ hb'
    by_cases hsession : a.sessionID = ""
    · exact weigh_carries_unit hsession
    rw [weigh_carries_session hsession, if_neg]
    -- A session bound under the key is bound to the instance of the unit, which would be there.
    rintro rfl
    have hid := hcons.token_bound tid pc a p b' hpc htoken hsession hp hb'
    obtain ⟨ins, hins⟩ := (hwf.pool _ p hp).bound _ b' hb'
    rw [hid, hslot] at hins
    cases hins
  | empty hsession => exact hsame (weigh_carries_unit hsession) hb'

theorem reacquired_sessions (hsession : params.sessionID ≠ "") :
    (buildReacquiredAlloc p params).sessions =
      p.sessions.insert (p.sessionBindingKey params.sessionID params.sessionCtxID)
        (match p.sessions.lookup (p.sessionBindingKey params.sessionID params.sessionCtxID) with
          | some b => (bindSessionStickyTakeLocked b).1
          | none => ⟨(p.addInUse params.instanceID params.concurrency).nextRef, params.instanceID,
              params.concurrency - 1, 1, none, false⟩) := by
  simp only [buildReacquiredAlloc, if_pos hsession]
  cases hb : p.sessions.lookup (p.sessionBindingKey params.sessionID params.sessionCtxID) with
  | none => exact bindFresh_sessions _ _ _ _
  | some => exact stickyTake_sessions hb

theorem Effect.active (hwf : s.WellFormed) (hbal : Balanced s) (hcons : Conserved s) (hL : Lossless s e r.2)
    (hok : conserving owner s e = true) (heffect : Effect cfg s e r)
    (hp : s.ls.getPool f = some p) (hp' : r.1.ls.getPool f = some p')
    (hb' : p'.sessions.lookup k = some b') : b'.activeAllocs = units (carries p f k) r.1 := by
  have hsame : ∀ s' : System, s'.ls.getPool f = some p' → s'.ls.pools = s.ls.pools →
      units (carries p f k) s' = units (carries p f k) s →
      b'.activeAllocs = units (carries p f k) s' := by
    intro s' hp' hpools hunits
    rw [eq_of_pools hp hp' hpools] at hb'
    rw [hunits]
    exact hcons.active f p k b' hp hb'
  cases heffect with
  | move hls _ htoken =>
    exact hsame _ hp' (congrArg LiteScheduler.pools hls)
      (units_still (congrArg LiteScheduler.allocations hls) htoken)
  | cursor hpool hls _ htoken =>
    exact hcons.active_unit hp hp' hb' hpool (congrArg LiteScheduler.pools hls) rfl
      (units_still (by rw [hls]; rfl) htoken)
  | @stickyGrant tid _ req pool _ b hpc hpool hbinding hslot =>
    obtain ⟨hadmitted, htoken⟩ := admitted_of_sticky hwf hpc
    obtain ⟨-, hsessions, -⟩ := assignedPool_sticky hbinding hslot
    refine hcons.active_insert hp hp' hb' hpool (assignInstance_pools _ _ _ _ _ _)
      (assignInstance_allocations _ _ _ _ _ _) htoken rfl (hL.fresh _ rfl) (hadmitted.key hpool).symm
      (absurd · (hbal.session_ne hadmitted hpool hbinding)) fun _ => ⟨_, ?_, hsessions⟩
    rw [stickyTake_activeAllocs, cancelled_activeAllocs, hcons.active _ pool _ b hpool hbinding]
    rfl
  | @freshGrant tid _ req pool slot d hpc hpool =>
    obtain ⟨hadmitted, htoken⟩ := admitted_of_requests hwf hpc
    refine hcons.active_insert hp hp' hb' hpool (assignInstance_pools _ _ _ _ _ _)
      (assignInstance_allocations _ _ _ _ _ _) htoken rfl (hL.fresh _ rfl) (hadmitted.key hpool).symm ?_ ?_
    · intro hsession
      rw [assignedPool_unit hsession, addInUse_sessions]
    intro hsession
    rw [assignedPool_session hsession, bindFresh_sessions]
    refine ⟨_, ?_, fun k => lookup_insert_eq_ite _ _ _ _⟩
    exact (congrArg (· + 1) (hcons.units_eq_zero hpool (mayBind_of_request hok hpool hpc hsession))).symm
  | release hfree halloc => exact hsame _ hp' rfl (units_release (by rw [hfree]; rfl) halloc rfl rfl)
  | removeTask hpc | dropTask hpc => exact hsame _ hp' rfl (units_still rfl (by rw [hpc]; rfl))
  | @returned tid _ _ alloc _ pool' _ next hpc htoken hpool hreturned hnext =>
    have hunits : units (carries p f k) (s.finish tid
        { ls := s.ls.setPool alloc.funcKey pool', next }).1 =
        units (carries p f k) s - weigh (carries p f k) (some alloc) :=
      units_returned hpc htoken rfl hnext
    rcases eq_of_setPool hp hp' rfl with ⟨rfl, rfl⟩ | ⟨hf, rfl⟩
    · rw [hp] at hpool
      cases hpool
      exact hcons.active_returned hwf hpc htoken hp hreturned hunits hb'
    · rw [hunits, weigh_carries_other hf, sub_zero]
      exact hcons.active f _ k b' hp hb'
  | @startTimer _ _ _ _ _ _ _ hpc hpool =>
    refine hcons.active_setPool hp hp' hb' hpool rfl ?_ (units_still rfl (by rw [hpc]; rfl))
    intro k b hb
    obtain ⟨old, hold, -, -, hactive⟩ := lookup_of_startTimer hb
    exact ⟨old, hold, hactive⟩
  | @dropAlloc tid choice id reply hpc =>
    refine hsame _ hp' rfl ?_
    rw [units_drop (by rw [hpc]; rfl) rfl rfl, hL.drop tid choice id reply rfl hpc, weigh_none, sub_zero]
  | refresh hpc halloc =>
    refine hsame _ hp' rfl (units_refresh (fun _ => rfl) ?_ halloc rfl rfl)
    rcases hpc with ⟨slot, hpc⟩ | ⟨params, -, hpc⟩
    all_goals
      rw [hpc]
      rfl
  | updateTask hpc =>
    exact hsame _ hp' (setWheel_pools _ _) (units_still (setWheel_allocations _ _) (by rw [hpc]; rfl))
  | @reacquireGrant _ _ params pool _ reply hpc hpool _ _ halloc =>
    refine hcons.active_insert hp hp' hb' hpool rfl rfl (by rw [hpc]; rfl) rfl halloc rfl ?_ ?_
    · intro (hsession : params.sessionID = "")
      rw [buildReacquiredAlloc, if_neg (not_not.mpr hsession), addInUse_sessions]
    intro hsession
    rw [reacquired_sessions hsession]
    refine ⟨_, ?_, fun k => lookup_insert_eq_ite _ _ _ _⟩
    split
    · rename_i b hb
      rw [stickyTake_activeAllocs]
      exact congrArg (· + 1) (hcons.active _ pool _ b hpool hb)
    · rename_i hnone
      exact (congrArg (· + 1) (hcons.units_eq_zero hpool
        (mayBind_of_reacquire hok hpool hpc hsession hnone))).symm
  | reap hidle _ halloc => exact hsame _ hp' rfl (units_reap hidle halloc)
  | fire hpool =>
    refine hcons.active_setPool hp hp' hb' hpool rfl ?_ (units_congr rfl rfl)
    intro k b hb
    exact ⟨b, lookup_of_fire hb, rfl⟩
  | upsert hpool => exact hcons.active_unit hp hp' hb' hpool rfl rfl (units_congr rfl rfl)
  | @remove _ g j pool hpool =>
    have hkey := hwf.funcKey g pool hpool
    rcases eq_of_setPool hp hp' rfl with ⟨rfl, rfl⟩ | ⟨hf, rfl⟩
    · rw [hp] at hpool
      cases hpool
      rw [(removeInstance_unbound p j).sessions] at hb'
      obtain ⟨hb, hne⟩ := filter_eq_some_iff.mp hb'
      rw [units_remove]
      · exact hcons.active f p k b' hp hb
      intro id a ha hcarries hgone
      obtain ⟨hsession, rfl, rfl⟩ := carries_iff.mp hcarries
      obtain ⟨b, hbound, hid⟩ := hcons.live_bound id a p ha hsession hp
      rw [hb] at hbound
      cases hbound
      simp [hid, hgone.1] at hne
    · rw [units_remove]
      · exact hcons.active f _ k b' hp hb'
      intro id a ha hcarries hgone
      obtain ⟨-, rfl, -⟩ := carries_iff.mp hcarries
      exact hf (hgone.2.trans hkey)
  | quiet hpool hquiet =>
    exact hcons.active_unit hp hp' hb' hpool rfl hquiet.sessions (units_congr rfl rfl)
  | _ => exact hsame _ hp' rfl (units_congr rfl rfl)

end Active

/-! ### Records and units on their way are tied to their binding -/

variable {cfg : Config} {e : Event} {r : System × Label} {tid : Nat} {pc : Pc}

theorem token_finish (hpc : (s.finish tid₀ o).1.threads.lookup tid = some pc) (htoken : pc.token = some a) :
    (∃ tid pc, s.threads.lookup tid = some pc ∧ pc.token = some a) ∨
      o.next.bind Pc.token = some a := by
  rcases lookup_setThread hpc with hold | ⟨-, hnext⟩
  · exact .inl ⟨tid, pc, hold, htoken⟩
  right
  rw [hnext]
  exact htoken

theorem Effect.token_mem (heffect : Effect cfg s e r) (hpc : r.1.threads.lookup tid = some pc)
    (htoken : pc.token = some a) :
    (∃ tid pc, s.threads.lookup tid = some pc ∧ pc.token = some a) ∨
      ∃ id, s.ls.allocations.lookup id = some a := by
  have hkeep : ∀ tid₀, (s.threads.lookup tid₀).bind Pc.token = some a →
      ∃ tid pc, s.threads.lookup tid = some pc ∧ pc.token = some a := by
    intro tid₀ hbind
    obtain ⟨pc₀, hpc₀, htoken₀⟩ := bind_eq_some_iff.mp hbind
    exact ⟨tid₀, pc₀, hpc₀, htoken₀⟩
  have hnone : ∀ o : Outcome, ∀ tid₀, (s.finish tid₀ o).1.threads.lookup tid = some pc →
      o.next.bind Pc.token = none →
      ∃ tid pc, s.threads.lookup tid = some pc ∧ pc.token = some a := by
    intro o tid₀ hpc hnext
    rcases token_finish hpc htoken with hold | hnew
    · exact hold
    · rw [hnext] at hnew
      cases hnew
  cases heffect with
  | move hls hgranted hsame | cursor hpool hls hgranted hsame =>
    rcases token_finish hpc htoken with hold | hnew
    · exact .inl hold
    · exact .inl (hkeep _ (hsame.symm.trans hnew))
  | stickyGrant | freshGrant | startTimer | dropAlloc | dropTask | refresh | updateTask
  | reacquireGrant => exact .inl (hnone _ _ hpc rfl)
  | release _ halloc =>
    rcases token_finish hpc htoken with hold | hnew
    · exact .inl hold
    · cases hnew
      exact .inr ⟨_, halloc⟩
  | removeTask hold =>
    rcases token_finish hpc htoken with hthere | hnew
    · exact .inl hthere
    · cases hnew
      exact .inl ⟨_, _, hold, rfl⟩
  | returned _ _ _ _ hnext => exact .inl (hnone _ _ hpc hnext)
  | reap _ _ halloc =>
    rcases lookup_of_insert hpc with ⟨-, rfl⟩ | hold
    · cases htoken
      exact .inr ⟨_, halloc⟩
    · exact .inl ⟨tid, pc, hold, htoken⟩
  | _ => exact .inl ⟨tid, pc, hpc, htoken⟩

theorem Effect.granted_bound (hwf : s.WellFormed) (heffect : Effect cfg s e r)
    (hgranted : r.2.granted = some a) (hsession : a.sessionID ≠ "")
    (hp : s.ls.getPool a.funcKey = some p) (hp' : r.1.ls.getPool a.funcKey = some p') :
    ∃ b, p'.sessions.lookup (p.sessionBindingKey a.sessionID a.sessionCtxID) = some b ∧
      b.instanceID = a.instanceID := by
  cases heffect with
  | move _ hnone | cursor _ _ hnone => exact absurd (hgranted.symm.trans hnone) (by simp)
  | @stickyGrant tid _ req pool slot b hpc hpool hbinding hslot =>
    cases hgranted
    change s.ls.getPool req.funcKey = some p at hp
    rw [hpool] at hp
    cases hp
    have hadmitted := (admitted_of_sticky hwf hpc).1
    have hid : slot.instanceID = b.instanceID := (hwf.pool _ _ hpool).instanceID _ _ hslot
    change lookup req.funcKey (assignInstance cfg s.ls _ req slot true).ls.pools = _ at hp'
    rw [assignInstance_pools, lookup_insert] at hp'
    cases hp'
    obtain ⟨-, hsessions, -⟩ := assignedPool_sticky hbinding hslot
    refine ⟨(bindSessionStickyTakeLocked (cancelled b)).1, ?_, ?_⟩
    · rw [hsessions]
      exact if_pos (hadmitted.key hpool).symm
    · rw [stickyTake_instanceID, cancelled_instanceID]
      exact hid.symm
  | @freshGrant _ _ req _ slot _ hpc hpool =>
    cases hgranted
    change s.ls.getPool req.funcKey = some p at hp
    rw [hpool] at hp
    cases hp
    have hkey := (admitted_of_requests hwf hpc).1.key hpool
    change lookup req.funcKey (assignInstance cfg s.ls _ req slot false).ls.pools = _ at hp'
    rw [assignInstance_pools, lookup_insert] at hp'
    cases hp'
    change ∃ b, lookup (p.sessionBindingKey req.sessionID req.sessionCtxID) _ = _ ∧ _
    rw [assignedPool_session hsession, bindFresh_sessions, ← hkey, lookup_insert]
    exact ⟨_, rfl, rfl⟩
  | @reacquireGrant _ _ params _ _ _ _ hpool _ hbinding =>
    cases hgranted
    change s.ls.getPool params.funcKey = some p at hp
    rw [hpool] at hp
    cases hp
    change (s.ls.setPool params.funcKey (buildReacquiredAlloc p params)).getPool
      params.funcKey = some p' at hp'
    rw [LiteScheduler.getPool, setPool, lookup_insert] at hp'
    cases hp'
    rw [reacquired_sessions hsession]
    refine ⟨_, lookup_insert _, ?_⟩
    split
    · rename_i b hb
      rw [stickyTake_instanceID]
      exact hbinding b hb hsession
    · rfl
  | _ => cases hgranted

theorem Conserved.live_bound_step (hcons : Conserved s) (hwf : s.WellFormed) (hL : Lossless s e r.2)
    (heffect : Effect cfg s e r) {id : String} (ha : r.1.ls.allocations.lookup id = some a)
    (hsession : a.sessionID ≠ "") (hp' : r.1.ls.getPool a.funcKey = some p') :
    ∃ b, p'.sessions.lookup (p'.sessionBindingKey a.sessionID a.sessionCtxID) = some b ∧
      b.instanceID = a.instanceID := by
  obtain ⟨p, hp, hchange⟩ := heffect.getPool hwf hp'
  rw [heffect.sessionBindingKey hwf hp hp']
  rcases heffect.alloc_mem ha with ⟨old, hold, hsame⟩ | ⟨hgranted, -⟩
  · have hlive : ∃ b, p.sessions.lookup (p.sessionBindingKey a.sessionID a.sessionCtxID) = some b ∧
        b.instanceID = a.instanceID := by
      rw [hsame] at hsession hp ⊢
      exact hcons.live_bound id old p hold hsession hp
    obtain ⟨b, hb, hid⟩ := hlive
    rcases hchange with rfl | hchange
    · exact ⟨b, hb, hid⟩
    rcases hchange.keeps_binding hb with ⟨b', hb', hid'⟩ | hidle | hgone |
      ⟨tid, choice, req, deadline, he, hreq, hreqSession, hkey, hpc⟩
    · exact ⟨b', hb', hid'.trans hid⟩
    · -- An idle session has no record in the map.
      have hactive := hcons.active _ p _ b hp hb
      have hpos : 0 < live (carries p a.funcKey (p.sessionBindingKey a.sessionID a.sessionCtxID)) s.ls := by
        apply live_pos hold
        rw [hsame]
        rw [hsame] at hsession
        exact carries_iff.mpr ⟨hsession, rfl, rfl⟩
      have htokens : 0 ≤ tokens (carries p a.funcKey
        (p.sessionBindingKey a.sessionID a.sessionCtxID)) s := tokens_nonneg
      unfold units at hactive
      omega
    · -- A record on an instance that is removed is removed with it.
      obtain ⟨q, ins, hq, hins⟩ := (heffect.wellFormed hwf).instance_mem id a ha
      rw [hp'] at hq
      cases hq
      rw [← hid, hgone] at hins
      cases hins
    · have hnone := hL.poll tid choice req deadline p he hpc (hreq ▸ hp) hreqSession
      rw [hkey, hb] at hnone
      cases hnone
  · exact heffect.granted_bound hwf hgranted hsession hp hp'

theorem mayBind_of_binds {owner : String → String} {sessionID i : String}
    (hok : conserving owner s e = true) (hp : s.ls.getPool f = some p) (hsession : sessionID ≠ "")
    (hbinds : Binds s e f p k sessionID i) : mayBind s f k = true := by
  obtain ⟨tid, choice, rfl, ⟨req, rfl, rfl, rfl, hpc, -⟩ |
    ⟨params, rfl, rfl, rfl, hnone, -, hpc, -⟩⟩ := hbinds
  · exact mayBind_of_request hok hp hpc hsession
  · exact mayBind_of_reacquire hok hp hpc hsession hnone

theorem Conserved.token_bound_step {owner : String → String} (hcons : Conserved s) (hwf : s.WellFormed)
    (hok : conserving owner s e = true) (heffect : Effect cfg s e r) (hpc : r.1.threads.lookup tid = some pc)
    (htoken : pc.token = some a) (hsession : a.sessionID ≠ "") (hp' : r.1.ls.getPool a.funcKey = some p')
    (hb' : p'.sessions.lookup (p'.sessionBindingKey a.sessionID a.sessionCtxID) = some b') :
    b'.instanceID = a.instanceID := by
  obtain ⟨p, hp, hchange⟩ := heffect.getPool hwf hp'
  rw [heffect.sessionBindingKey hwf hp hp'] at hb'
  have hmem := heffect.token_mem hpc htoken
  have hbound : ∀ b, p.sessions.lookup (p.sessionBindingKey a.sessionID a.sessionCtxID) = some b →
      b.instanceID = a.instanceID := by
    intro b hb
    rcases hmem with ⟨tid₀, pc₀, hpc₀, htoken₀⟩ | ⟨id, ha⟩
    · exact hcons.token_bound tid₀ pc₀ a p b hpc₀ htoken₀ hsession hp hb
    obtain ⟨b₀, hb₀, hid⟩ := hcons.live_bound id a p ha hsession hp
    rw [hb] at hb₀
    cases hb₀
    exact hid
  rcases hchange with rfl | hchange
  · exact hbound b' hb'
  cases hchange.binding hb' with
  | same hb hid | taken hb hid | returned hb hid => exact hid.trans (hbound _ hb)
  | fresh hnamed _ hbinds =>
    -- Nothing of a session that is bound afresh is out.
    exfalso
    have hzero := hcons.units_eq_zero hp (mayBind_of_binds hok hp hnamed hbinds)
    have hcarries : carries p a.funcKey (p.sessionBindingKey a.sessionID a.sessionCtxID) a = true :=
      carries_iff.mpr ⟨hsession, rfl, rfl⟩
    have hlive : 0 ≤ live (carries p a.funcKey
      (p.sessionBindingKey a.sessionID a.sessionCtxID)) s.ls := live_nonneg
    have htokens : 0 ≤ tokens (carries p a.funcKey
      (p.sessionBindingKey a.sessionID a.sessionCtxID)) s := tokens_nonneg
    unfold units at hzero
    rcases hmem with ⟨tid₀, pc₀, hpc₀, htoken₀⟩ | ⟨id, ha⟩
    · have hpos := tokens_pos hpc₀ htoken₀ hcarries
      omega
    · have hpos := live_pos ha hcarries
      omega

/-! ### Runs -/

section Run

variable {owner} {cfg : Config} {s : System} {e : Event} {r : System × Label}

theorem lossless_of_conserving (hwf : s.WellFormed) (hseq : InSequence owner cfg s)
    (hok : conserving owner s e = true) (heffect : Effect cfg s e r) : Lossless s e r.2 := by
  obtain ⟨hgeneral, hcond⟩ := Bool.and_eq_true_iff.mp hok
  refine ⟨?_, ?_, ?_⟩
  · intro a hgranted
    exact heffect.granted_fresh hwf (Bool.and_eq_true_iff.mp hgeneral).1 hseq hgranted
  · rintro tid choice id reply rfl hpc
    simpa [hpc] using hcond
  rintro tid choice req deadline p rfl hpc hp hsession
  simp only [hpc, hsession, decide_false, Bool.false_or] at hcond
  simp only [mayBind, hp, all_some, Bool.and_eq_true, isNone_iff_eq_none] at hcond
  exact hcond.1

theorem Conserved.step (hcons : Conserved s) (hwf : s.WellFormed) (hbal : Balanced s)
    (hseq : InSequence owner cfg s) (hok : conserving owner s e = true)
    (heffect : Effect cfg s e r) : Conserved r.1 := by
  have hL := lossless_of_conserving hwf hseq hok heffect
  have haccountable : accountable s e = true :=
    (Bool.and_eq_true_iff.mp (Bool.and_eq_true_iff.mp hok).1).2
  refine ⟨?_, ?_, ?_, ?_⟩
  · intro f p' i v' hp' hv'
    obtain ⟨p, hp, -⟩ := heffect.getPool hwf hp'
    rcases heffect.carried hwf hbal haccountable hp hp' with hcarried | hnew
    · obtain ⟨v, hv, -, heq⟩ := hcarried v' hv'
      have hcovers := hcons.covers f p i v hp hv
      have hsurplus := heq hL
      omega
    · rw [hnew] at hv'
      exact (Option.some.inj hv').symm
  · intro f p' k b' hp' hb'
    obtain ⟨p, hp, -⟩ := heffect.getPool hwf hp'
    rw [carries_congr (heffect.sessionBindingKey hwf hp hp')]
    exact heffect.active hwf hbal hcons hL hok hp hp' hb'
  · intro id a p' ha hsession hp'
    exact hcons.live_bound_step hwf hL heffect ha hsession hp'
  · intro tid pc a p' b' hpc htoken hsession hp' hb'
    exact hcons.token_bound_step hwf hok heffect hpc htoken hsession hp' hb'

theorem conserved_of_reach
    (hreach : (scheduler cfg).Reach (fun s e => conserving owner s e = true) s) : Conserved s := by
  refine hreach.invariant ?_ ?_
  · intro s hinit
    refine ⟨?_, ?_, ?_, ?_⟩
    · intro f p i v hp hv
      obtain ⟨spec, rfl⟩ := hinit.pools f p hp
      cases hv
    · intro f p k b hp hb
      obtain ⟨spec, rfl⟩ := hinit.pools f p hp
      cases hb
    · intro id a p ha
      rw [hinit.allocations] at ha
      cases ha
    · intro tid pc a p b hpc
      rw [hinit.threads] at hpc
      cases hpc
  · intro s e s' l hs hok hcons hstep
    have hwf := wellFormed_of_reach hs
    have hbal : Balanced s := balanced_of_reach
      (fun _ _ h => (Bool.and_eq_true_iff.mp (Bool.and_eq_true_iff.mp h).1).2) hs
    have hseq : InSequence owner cfg s := inSequence_of_reach
      (fun _ _ h => (Bool.and_eq_true_iff.mp (Bool.and_eq_true_iff.mp h).1).1) hs
    exact hcons.step hwf hbal hseq hok (step_effect hwf hstep)

end Run

/-- **Conservation of capacity.** Between critical sections an instance is accounted what is held,
and a session counts its live allocations. -/
theorem capacity_conserved (cfg : Config) (s : System)
    (hreach : (scheduler cfg).Reach (fun s e => conserving owner s e = true) s)
    (hquiet : ∀ tid pc, s.threads.lookup tid = some pc → pc.token = none) (f : String)
    (p : LiteFunctionPool) (hp : s.ls.getPool f = some p) :
    (∀ i ins, p.instances.lookup i = some ins → ins.inUse = p.heldOn i +
      s.ls.allocations.count fun _ a => a.sessionID = "" ∧ a.funcKey = f ∧ a.instanceID = i) ∧
    ∀ k b, p.sessions.lookup k = some b → b.activeAllocs =
      s.ls.allocations.count fun _ a => a.sessionID ≠ "" ∧ a.funcKey = f ∧
        p.sessionBindingKey a.sessionID a.sessionCtxID = k ∧ a.instanceID = b.instanceID := by
  have hcons := conserved_of_reach hreach
  have htokens : ∀ P : Allocation → Bool, tokens P s = 0 := by
    intro P
    apply tokens_eq_zero
    intro tid pc a hpc htoken
    rw [hquiet tid pc hpc] at htoken
    cases htoken
  refine ⟨?_, ?_⟩
  · intro i ins hins
    have hcovers := hcons.covers f p i _ hp (slack_of_lookup hins)
    rw [units, htokens, add_zero] at hcovers
    have hcount : live (free f i) s.ls = s.ls.allocations.count fun _ a =>
        a.sessionID = "" ∧ a.funcKey = f ∧ a.instanceID = i := by
      apply count_congr
      intro _ a _
      simp [free, and_assoc]
    omega
  · intro k b hb
    have hactive := hcons.active f p k b hp hb
    rw [units, htokens, add_zero] at hactive
    rw [hactive]
    apply count_congr
    intro id a ha
    rw [carries_iff]
    constructor
    · rintro ⟨hsession, rfl, rfl⟩
      obtain ⟨b', hb', hid⟩ := hcons.live_bound id a p ha hsession hp
      rw [hb] at hb'
      cases hb'
      exact ⟨hsession, rfl, rfl, hid.symm⟩
    · rintro ⟨hsession, hf, hk, -⟩
      exact ⟨hsession, hf, hk⟩

theorem capacity_conserved_mixed : ∃ s p ins,
    (scheduler plainConfig).Reach (fun s e => conserving (fun _ => "t/f/1") s e = true) s ∧
      s.ls.getPool "t/f/1" = some p ∧ p.instances.lookup "i" = some ins ∧ ins.inUse = 3 ∧
      (∀ i ins, p.instances.lookup i = some ins → ins.inUse = p.heldOn i +
        s.ls.allocations.count fun _ a => a.sessionID = "" ∧ a.funcKey = "t/f/1" ∧ a.instanceID = i) ∧
      ∀ k b, p.sessions.lookup k = some b → b.activeAllocs =
        s.ls.allocations.count fun _ a => a.sessionID ≠ "" ∧ a.funcKey = "t/f/1" ∧
          p.sessionBindingKey a.sessionID a.sessionCtxID = k ∧ a.instanceID = b.instanceID := by
  obtain ⟨s, hreach, hthreads, p, hp, ins, hins, hload⟩ :=
    reach_of_run plainConfig (conserving fun _ => "t/f/1") [("t/f/1", plainSpec)]
    [.instanceUpdate "t/f/1" (plainInstance "i" 4), .acquire 1 (plainRequest "s"), .run 1 {},
      .run 1 { order := ["i"] }, .acquire 2 { plainRequest "" with concurrency := 1 }, .run 2 {},
      .run 2 { order := ["i"] }]
    (fun s => s.threads.entries.isEmpty ∧ ∃ p, s.ls.getPool "t/f/1" = some p ∧
      ∃ ins, p.instances.lookup "i" = some ins ∧ ins.inUse = 3) (by decide)
  refine ⟨s, p, ins, hreach, hp, hins, hload,
    capacity_conserved (fun _ => "t/f/1") plainConfig s hreach ?_ "t/f/1" p hp⟩
  intro tid pc hpc
  have hmem := mem_entries_iff.mpr hpc
  rw [List.isEmpty_iff.mp hthreads] at hmem
  cases hmem

/-- Two acquires wait for the first instance. The second binds over the first. -/
theorem capacity_lost_in_poll : ∃ s p ins, (scheduler plainConfig).Reachable s ∧
    (∀ tid pc, s.threads.lookup tid = some pc → pc.token = none) ∧
    s.ls.getPool "t/f/1" = some p ∧ p.instances.lookup "i" = some ins ∧
    ¬ins.inUse = p.heldOn "i" + s.ls.allocations.count fun _ a =>
      a.sessionID = "" ∧ a.funcKey = "t/f/1" ∧ a.instanceID = "i" := by
  obtain ⟨s, hreach, hthreads, p, hp, ins, hins, hlost⟩ := reachable_of_run plainConfig [("t/f/1", plainSpec)]
    [.acquire 1 (plainRequest "s"), .run 1 {}, .run 1 {}, .run 1 {}, .acquire 2 (plainRequest "s"),
      .run 2 {}, .run 2 {}, .run 2 {}, .instanceUpdate "t/f/1" (plainInstance "i" 4),
      .run 1 { order := ["i"] }, .run 2 { order := ["i"] }]
    (fun s => s.threads.entries.isEmpty ∧ ∃ p, s.ls.getPool "t/f/1" = some p ∧
      ∃ ins, p.instances.lookup "i" = some ins ∧ ¬ins.inUse = p.heldOn "i" + s.ls.allocations.count fun _ a =>
          a.sessionID = "" ∧ a.funcKey = "t/f/1" ∧ a.instanceID = "i") (by decide)
  refine ⟨s, p, ins, hreach, ?_, hp, hins, hlost⟩
  intro tid pc hpc
  have hmem := mem_entries_iff.mpr hpc
  rw [List.isEmpty_iff.mp hthreads] at hmem
  cases hmem

end Yuanrong.Lite
