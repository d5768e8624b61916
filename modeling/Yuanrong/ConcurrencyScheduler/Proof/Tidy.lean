import Yuanrong.ConcurrencyScheduler.Proof.Step

/-!
# Runs without separators in session IDs

Nothing checks that a session ID is free of the character that separates it from its context in a
key. In runs in which all of them are, a key is the key of one session, and no record is found for a
request without a session.
-/

namespace Yuanrong.Concurrency

open AList BasicConcurrencyScheduler Nat

/-- Session IDs hold no separator where contexts are joined to them. -/
def Config.tidyID (cfg : Config) (sessionID : String) : Bool :=
  !cfg.enableSessionCtx || separatorFree sessionID

def tidy (cfg : Config) : Event → Bool
  | .acquire _ req => cfg.tidyID req.instanceSession.sessionID
  | _ => true

theorem getSessionCacheKey_inj (ha : cfg.tidyID a = true)
    (hb : cfg.tidyID b = true) (heq : getSessionCacheKey cfg a ctx = getSessionCacheKey cfg b ctx') :
    a = b ∧ (cfg.enableSessionCtx = true → ctx = ctx') := by
  unfold getSessionCacheKey at heq
  cases henable : cfg.enableSessionCtx with
  | false =>
    rw [henable] at heq
    exact ⟨heq, fun h => absurd h (by decide)⟩
  | true =>
    rw [henable] at heq
    have hfree : ∀ {sessionID}, cfg.tidyID sessionID = true → separatorFree sessionID = true := by
      intro sessionID h
      unfold Config.tidyID at h
      rw [henable] at h
      exact h
    obtain ⟨hab, hctx⟩ := joinKey_inj (hfree ha) (hfree hb) heq
    exact ⟨hab, fun _ => hctx⟩

def Named (cfg : Config) (bcs : BasicConcurrencyScheduler) : Prop :=
  ∀ ref r, bcs.records.lookup ref = some r → r.sessionID ≠ "" ∧ cfg.tidyID r.sessionID = true

section Named

variable {cfg : Config} {bcs bcs' : BasicConcurrencyScheduler} {d : Demand}

section

variable (hnamed : Named cfg bcs)
include hnamed

theorem Named.bareKey (hwf : WellFormed cfg bcs) : bcs.sessionMap.lookup (d.bareKey cfg) = none := by
  cases hmap : bcs.sessionMap.lookup (d.bareKey cfg) with
  | none => rfl
  | some ref =>
    obtain ⟨r, hr, hkey⟩ := hwf.keyed _ ref hmap
    obtain ⟨hne, hfree⟩ := hnamed ref r hr
    exact absurd (getSessionCacheKey_inj hfree (show cfg.tidyID "" = true from Bool.or_true _) hkey).1 hne

variable {r : SessionRecord}

theorem Named.setRecord (hr : bcs.records.lookup ref = some r) (hid : r'.sessionID = r.sessionID) :
    Named cfg (bcs.setRecord ref r') := by
  refine forall_lookup_insert ?_ fun ref' r₀ hold => ?_
  · rw [hid]
    exact hnamed ref r hr
  · exact hnamed ref' r₀ hold

theorem Named.prepares (htidy : cfg.tidyID d.sessionID = true)
    (hprep : Prepares cfg d bcs bcs') : Named cfg bcs' := by
  cases hprep with
  | refile =>
    unfold Named
    rw [refile_records]
    exact hnamed
  | lose => exact hnamed
  | drop => exact hnamed
  | bind _ _ hsession =>
    intro ref r hr
    rw [bindTo_records] at hr
    rcases lookup_of_insert hr with ⟨-, rfl⟩ | hold
    · exact ⟨hsession, htidy⟩
    · exact hnamed ref r hold
  | signal _ hr => exact hnamed.setRecord hr rfl

theorem Named.reflTransGen_prepares (htidy : cfg.tidyID d.sessionID = true)
    (hprep : Prepared cfg d bcs bcs') : Named cfg bcs' := by
  induction hprep with
  | refl => exact hnamed
  | tail _ hlast ih => exact ih.prepares htidy hlast

theorem Named.obtains (hobtains : Obtains cfg d bcs alloc bcs') : Named cfg bcs' := by
  cases hobtains with
  | plain =>
    unfold Named
    rw [refile_records]
    exact hnamed
  | session _ hr _ htakes =>
    refine hnamed.setRecord hr ?_
    obtain ⟨y, -, ⟨-, rfl⟩ | ⟨-, -, -, rfl⟩⟩ := htakes
    · rfl
    · rfl
  | @overAcq _ ref r _ _ _ _ hr =>
    refine forall_lookup_insert ?_ fun ref' r₀ hold => ?_
    · exact hnamed ref r hr
    · rw [refile_records] at hold
      exact hnamed ref' r₀ hold
  | agent _ _ hr => exact hnamed.setRecord hr rfl

theorem Named.startUnbindInstanceSession (name : QueueName) (hr : bcs.records.lookup ref = some r)
    (hid : r'.sessionID = r.sessionID) : Named cfg (bcs.startUnbindInstanceSession name ref r') := by
  unfold BasicConcurrencyScheduler.startUnbindInstanceSession
  dsimp only
  split
  all_goals exact hnamed.setRecord hr hid

theorem Named.releases (hreleases : Releases cfg bcs alloc bcs') : Named cfg bcs' := by
  cases hreleases with
  | nothing => exact hnamed
  | marked name hel hid hsession hkey hr hover halloc
  | agent name hel hid hsession hkey hr hover hagent
  | overAcq name _ _ _ _ hr =>
    unfold Named
    rw [refile_records]
    exact hnamed.startUnbindInstanceSession name hr rfl
  | put =>
    unfold Named
    rw [refile_records]
    exact hnamed

theorem Named.expires (hexpires : Expires cfg bcs g u order bcs') : Named cfg bcs' := by
  cases hexpires with
  | cancelled hr => exact hnamed.setRecord hr rfl
  | blocked => exact hnamed
  | expired hr =>
    unfold Named
    rw [refile_records]
    exact fun ref r hr => hnamed ref r (lookup_of_erase hr)
  | stale => exact hnamed

theorem Named.sameSessions (hsame : SameSessions bcs bcs') : Named cfg bcs' := by
  unfold Named
  rw [hsame.records]
  exact hnamed

end

end Named

variable {cfg : Config} {bcs bcs' : BasicConcurrencyScheduler} {d : Demand}

theorem Prepares.nextRef_le (hprep : Prepares cfg d bcs bcs') : bcs.nextRef ≤ bcs'.nextRef := by
  cases hprep with
  | refile => exact (refile_nextRef _ _ _ _).ge
  | lose | drop | signal => exact le_rfl
  | bind => exact le_succ _

theorem nextRef_le_of_prepares (hprep : Prepared cfg d bcs bcs') :
    bcs.nextRef ≤ bcs'.nextRef := by
  induction hprep with
  | refl => exact le_rfl
  | tail _ hlast ih => exact ih.trans hlast.nextRef_le

theorem Obtains.nextRef_eq (hobtains : Obtains cfg d bcs alloc bcs') : bcs'.nextRef = bcs.nextRef := by
  cases hobtains with
  | plain | overAcq => exact refile_nextRef _ _ _ _
  | session => rfl
  | agent => rfl

theorem nextRef_le_startUnbind (name : QueueName) (ref : Nat) (r : SessionRecord) :
    bcs.nextRef ≤ (bcs.startUnbindInstanceSession name ref r).nextRef := by
  unfold startUnbindInstanceSession
  dsimp only
  split
  · exact le_succ _
  · exact le_rfl

theorem Releases.nextRef_le (hreleases : Releases cfg bcs alloc bcs') : bcs.nextRef ≤ bcs'.nextRef := by
  cases hreleases with
  | nothing => exact le_rfl
  | marked name | agent name | overAcq name =>
    rw [refile_nextRef]
    exact nextRef_le_startUnbind name _ _
  | put =>
    rw [refile_nextRef]
    exact le_rfl

theorem Expires.nextRef_eq (hexpires : Expires cfg bcs g u order bcs') : bcs'.nextRef = bcs.nextRef := by
  cases hexpires with
  | cancelled => rfl
  | blocked => rfl
  | expired => exact refile_nextRef _ _ _ _
  | stale => rfl

structure Tidy (cfg : Config) (s : System) : Prop where
  wf : WellFormed cfg s.bcs
  named : Named cfg s.bcs
  pending : ∀ tid req resolved, s.threads.lookup tid = some (.acquire req resolved) →
    cfg.tidyID req.instanceSession.sessionID = true
  allocRef : ∀ key alloc, s.allocs.lookup key = some alloc → key < s.bcs.nextRef

namespace Tidy

variable {cfg : Config} {s : System}

theorem of_init (hinit : s.Init) : Tidy cfg s where
  wf :=
    { keyed := by
        rw [hinit.sessionMap]
        simp
      bound := by
        rw [hinit.records]
        simp
      filed := by
        intro name objID ref hholds
        cases name
        · rw [show s.bcs.queue .self = s.bcs.selfInstanceQueue from rfl, hinit.selfInstanceQueue] at hholds
          rcases hholds with h | h | ⟨item, h, -⟩ <;> simp at h
        · rw [show s.bcs.queue .other = s.bcs.otherInstanceQueue from rfl, hinit.otherInstanceQueue] at hholds
          rcases hholds with h | h | ⟨item, h, -⟩ <;> simp at h
      recordRef := by
        rw [hinit.records]
        simp
      elemRef := by
        rw [hinit.elems]
        simp
      unbindRef := by
        rw [hinit.unbinds]
        simp }
  named := by
    unfold Named
    rw [hinit.records]
    simp
  pending := by
    rw [hinit.threads]
    simp
  allocRef := by
    rw [hinit.allocs]
    simp

theorem demand_beginAcquire (req req' : InstanceAcquireRequest) (resolved : Bool)
    (hbegin : s.beginAcquire cfg req = .acquire req' resolved) : req'.demand = req.demand := by
  unfold System.beginAcquire at hbegin
  split at hbegin
  · cases hbegin
    rfl
  split at hbegin
  case h_1 req₁ hpeek =>
    cases hbegin
    obtain ⟨entry, -, hmap⟩ := Option.bind_eq_some_iff.mp hpeek
    obtain ⟨el, -, rfl⟩ := Option.map_eq_some_iff.mp hmap
    rfl
  case h_2 =>
    cases hbegin
    rfl

theorem pending_erase (htidy : Tidy cfg s) (tid : Nat) :
    ∀ tid' req resolved, (s.threads.erase tid).lookup tid' = some (.acquire req resolved) →
      cfg.tidyID req.instanceSession.sessionID = true :=
  fun tid' req resolved h => htidy.pending tid' req resolved (lookup_of_erase h)

theorem answered (hwf : WellFormed cfg bcs) : WellFormed cfg bcs.answered :=
  { hwf with
    filed := fun name objID ref hholds => hwf.filed name objID ref (by cases name <;> exact hholds)
    recordRef := fun ref r hr => lt_succ_of_lt (hwf.recordRef ref r hr)
    elemRef := fun ref el hel => lt_succ_of_lt (hwf.elemRef ref el hel)
    unbindRef := fun g u hu => lt_succ_of_lt (hwf.unbindRef g u hu) }

theorem named_answered (hnamed : Named cfg bcs) : Named cfg bcs.answered :=
  hnamed

theorem sameSessions (htidy : Tidy cfg s) (hwf : WellFormed cfg bcs)
    (hsame : SameSessions s.bcs bcs) : Tidy cfg { s with bcs } where
  wf := hwf
  named := htidy.named.sameSessions hsame
  pending := htidy.pending
  allocRef := fun key alloc h => (htidy.allocRef key alloc h).trans_le hsame.nextRef

section

variable {tid : Nat} {req : InstanceAcquireRequest} {resolved : Bool} (htidy : Tidy cfg s)
  (hreq : s.threads.lookup tid = some (.acquire req resolved))
include htidy hreq

theorem pending_demand : cfg.tidyID req.demand.sessionID = true :=
  htidy.pending tid req resolved hreq

theorem not_bare (hprep : Prepared cfg req.demand s.bcs bcs) :
    ¬ (bcs.sessionMap.lookup (req.demand.bareKey cfg)).isSome = true := by
  have hid := htidy.pending_demand hreq
  have hwf := htidy.wf.reflTransGen_prepares hprep
  have hnone : bcs.sessionMap.lookup (req.demand.bareKey cfg) = none :=
    (htidy.named.reflTransGen_prepares hid hprep).bareKey hwf
  rw [hnone]
  exact Bool.false_ne_true

end

theorem effect (htidy : Tidy cfg s) (hok : tidy cfg e = true) (heffect : Effect cfg s e s') :
    Tidy cfg s' := by
  have hrefs : ∀ {bcs : BasicConcurrencyScheduler}, s.bcs.nextRef ≤ bcs.nextRef →
      ∀ key alloc, s.allocs.lookup key = some alloc → key < bcs.nextRef :=
    fun hle key alloc h => (htidy.allocRef key alloc h).trans_le hle
  cases heffect with
  | begun _ req =>
    refine { htidy with pending := ?_ }
    intro tid' req' resolved hlookup
    rcases lookup_of_insert hlookup with ⟨-, hbegin⟩ | hold
    · have hdemand := demand_beginAcquire req req' resolved hbegin
      have hid : req'.instanceSession.sessionID = req.instanceSession.sessionID :=
        congrArg Demand.sessionID hdemand
      rw [hid]
      exact hok
    · exact htidy.pending tid' req' resolved hold
  | @refused tid _ _ _ _ hreq hprep =>
    have hid := htidy.pending_demand hreq
    exact
      { wf := answered (htidy.wf.reflTransGen_prepares hprep)
        named := named_answered (htidy.named.reflTransGen_prepares hid hprep)
        pending := htidy.pending_erase tid
        allocRef := hrefs ((nextRef_le_of_prepares hprep).trans (le_succ _)) }
  | @granted tid _ _ _ bcs bcs' _ hreq hprep hobtains =>
    have hid := htidy.pending_demand hreq
    have hle : s.bcs.nextRef ≤ bcs'.nextRef :=
      (nextRef_le_of_prepares hprep).trans hobtains.nextRef_eq.ge
    exact
      { wf := answered ((htidy.wf.reflTransGen_prepares hprep).obtains hobtains)
        named := named_answered ((htidy.named.reflTransGen_prepares hid hprep).obtains hobtains)
        pending := htidy.pending_erase tid
        allocRef := by
          exact forall_lookup_insert (lt_succ_self _)
            fun key alloc' hold => lt_succ_of_lt (hrefs hle key alloc' hold) }
  | @unleased tid _ _ _ bcs _ bcs'' _ hreq hprep hobtains _ hreleases =>
    have hid := htidy.pending_demand hreq
    have hle : s.bcs.nextRef ≤ bcs''.nextRef :=
      ((nextRef_le_of_prepares hprep).trans hobtains.nextRef_eq.ge).trans hreleases.nextRef_le
    exact
      { wf := answered (((htidy.wf.reflTransGen_prepares hprep).obtains hobtains).releases hreleases)
        named := named_answered
          (((htidy.named.reflTransGen_prepares hid hprep).obtains hobtains).releases hreleases)
        pending := htidy.pending_erase tid
        allocRef := hrefs (hle.trans (le_succ _)) }
  | bare hreq hprep hkey => exact absurd hkey (htidy.not_bare hreq hprep)
  | @updated tid _ insQue ins threadIDPrefix =>
    have hsame := htidy.sameSessions (htidy.wf.handleInstanceUpdate insQue ins threadIDPrefix)
      (.handleInstanceUpdate s.bcs insQue ins threadIDPrefix)
    exact { hsame with pending := htidy.pending_erase tid }
  | @released _ _ _ _ hreleases =>
    exact
      { wf := htidy.wf.releases hreleases, named := htidy.named.releases hreleases, pending := htidy.pending
        allocRef := fun key' alloc' h => hrefs hreleases.nextRef_le key' alloc' (lookup_of_erase h) }
  | timer hu => exact { htidy with wf := htidy.wf.setUnbinds fun _ _ => WellFormed.lookup_unbinds_insert hu }
  | expired hu _ hexpires =>
    exact
      { wf := htidy.wf.expires hu hexpires, named := htidy.named.expires hexpires, pending := htidy.pending
        allocRef := hrefs hexpires.nextRef_eq.ge }
  | @cancelled _ u r hu _ hr =>
    have hset : WellFormed cfg (s.bcs.setRecord u.record { r with expireCancelCh := false }) :=
      htidy.wf.setRecord hr rfl rfl
    exact
      { wf := hset.setUnbinds fun _ _ => WellFormed.lookup_unbinds_insert hu
        named := htidy.named.setRecord hr rfl
        pending := htidy.pending
        allocRef := htidy.allocRef }
  | @stored _ u r _ _ hr =>
    have hset : WellFormed cfg (s.bcs.setRecord u.record { r with expiring := false }) :=
      htidy.wf.setRecord hr rfl rfl
    exact
      { wf := hset.setUnbinds fun _ _ => WellFormed.lookup_unbinds_erase
        named := htidy.named.setRecord hr rfl
        pending := htidy.pending
        allocRef := htidy.allocRef }
  | addInstance ins threadIDPrefix =>
    exact htidy.sameSessions (htidy.wf.pushNew _ ins threadIDPrefix) (.pushNew s.bcs _ ins threadIDPrefix)
  | delInstance ins => exact htidy.sameSessions (htidy.wf.delInstance s.ring ins) (.setQueue s.bcs _ _)
  | instanceUpdate =>
    refine { htidy with pending := ?_ }
    intro tid' req resolved hlookup
    rcases lookup_of_insert hlookup with ⟨-, hpc⟩ | hold
    · cases hpc
    · exact htidy.pending tid' req resolved hold
  | ownerUpdate isFuncOwner =>
    exact htidy.sameSessions (htidy.wf.handleFuncOwnerUpdate s.ring isFuncOwner)
      (.handleFuncOwnerUpdate s.bcs s.ring isFuncOwner)
  | ringChange => exact { htidy with }

theorem of_reach (hok : ∀ s e, ok s e → tidy cfg e = true) (hreach : (scheduler cfg).Reach ok s) :
    Tidy cfg s :=
  hreach.invariant (fun _ hinit => of_init hinit) fun _ e _ _ _ hoke htidy hstep =>
    htidy.effect (hok _ e hoke) (effect_of_step htidy.wf hstep)

end Tidy

end Yuanrong.Concurrency
