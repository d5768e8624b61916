import Yuanrong.ConcurrencyScheduler.Proof.WellFormed

/-!
# What a step of the running scheduler can do

One constructor for each kind of step, with the state it leads to. Invariants are proved against
this list and never look into the step function.
-/

namespace Yuanrong.Concurrency

open BasicConcurrencyScheduler Option Prod

def BasicConcurrencyScheduler.answered (bcs : BasicConcurrencyScheduler) : BasicConcurrencyScheduler :=
  { bcs with nextRef := bcs.nextRef + 1 }

inductive Effect (cfg : Config) (s : System) : Event → System → Prop
  | begun (tid : Nat) (req : InstanceAcquireRequest) :
      Effect cfg s (.acquire tid req)
        { s with threads := s.threads.insert tid (s.beginAcquire cfg req) }
  | refused {tid : Nat} {choice : Choice} {req : InstanceAcquireRequest} {resolved : Bool}
      {bcs : BasicConcurrencyScheduler}
      (hreq : s.threads.lookup tid = some (.acquire req resolved))
      (hprep : Prepared cfg req.demand s.bcs bcs) :
      Effect cfg s (.resume tid choice)
        { s with bcs := bcs.answered, threads := s.threads.erase tid }
  | granted {tid : Nat} {choice : Choice} {req : InstanceAcquireRequest} {resolved : Bool}
      {bcs bcs' : BasicConcurrencyScheduler} {alloc : InstanceAllocation}
      (hreq : s.threads.lookup tid = some (.acquire req resolved))
      (hprep : Prepared cfg req.demand s.bcs bcs)
      (hobtains : Obtains cfg req.demand bcs alloc bcs') :
      Effect cfg s (.resume tid choice)
        { s with
          bcs := bcs'.answered
          allocs := s.allocs.insert bcs'.nextRef alloc
          threads := s.threads.erase tid }
  | unleased {tid : Nat} {choice : Choice} {req : InstanceAcquireRequest} {resolved : Bool}
      {bcs bcs' bcs'' : BasicConcurrencyScheduler} {alloc : InstanceAllocation}
      (hreq : s.threads.lookup tid = some (.acquire req resolved))
      (hprep : Prepared cfg req.demand s.bcs bcs)
      (hobtains : Obtains cfg req.demand bcs alloc bcs') (hlease : choice.leaseFails = true)
      (hreleases : Releases cfg bcs' alloc bcs'') :
      Effect cfg s (.resume tid choice)
        { s with bcs := bcs''.answered, threads := s.threads.erase tid }
  | bare {tid : Nat} {choice : Choice} {req : InstanceAcquireRequest} {resolved : Bool}
      {bcs : BasicConcurrencyScheduler} {s' : System}
      (hreq : s.threads.lookup tid = some (.acquire req resolved))
      (hprep : Prepared cfg req.demand s.bcs bcs)
      (hkey : (bcs.sessionMap.lookup (req.demand.bareKey cfg)).isSome = true) :
      Effect cfg s (.resume tid choice) s'
  | updated {tid : Nat} {choice : Choice} {insQue : QueueName} {ins : Instance}
      {threadIDPrefix : String}
      (hreq : s.threads.lookup tid = some (.instanceUpdate insQue ins threadIDPrefix)) :
      Effect cfg s (.resume tid choice)
        { s with
          bcs := s.bcs.handleInstanceUpdate insQue ins threadIDPrefix
          threads := s.threads.erase tid }
  | released {key : Nat} {alloc : InstanceAllocation} {bcs : BasicConcurrencyScheduler}
      (halloc : s.allocs.lookup key = some alloc) (hreleases : Releases cfg s.bcs alloc bcs) :
      Effect cfg s (.release key) { s with bcs, allocs := s.allocs.erase key }
  | timer {g : Nat} {u : Unbind} (hu : s.bcs.unbinds.lookup g = some u) (hpc : u.pc = .selecting) :
      Effect cfg s (.timer g)
        { s with bcs := { s.bcs with unbinds := s.bcs.unbinds.insert g { u with pc := .timerFired } } }
  | expired {g : Nat} {u : Unbind} {order : List String} {bcs : BasicConcurrencyScheduler}
      (hu : s.bcs.unbinds.lookup g = some u) (hpc : u.pc = .timerFired)
      (hexpires : Expires cfg s.bcs g u order bcs) :
      Effect cfg s (.expire g order) { s with bcs }
  | cancelled {g : Nat} {u : Unbind} {r : SessionRecord} (hu : s.bcs.unbinds.lookup g = some u)
      (hpc : u.pc = .selecting) (hr : s.bcs.records.lookup u.record = some r)
      (htoken : r.expireCancelCh = true) :
      Effect cfg s (.cancel g)
        { s with
          bcs :=
            { s.bcs.setRecord u.record { r with expireCancelCh := false } with
              unbinds := s.bcs.unbinds.insert g { u with pc := .cancelled } } }
  | stored {g : Nat} {u : Unbind} {r : SessionRecord} (hu : s.bcs.unbinds.lookup g = some u)
      (hpc : u.pc = .cancelled) (hr : s.bcs.records.lookup u.record = some r) :
      Effect cfg s (.store g)
        { s with
          bcs :=
            { s.bcs.setRecord u.record { r with expiring := false } with
              unbinds := s.bcs.unbinds.erase g } }
  | addInstance (ins : Instance) (threadIDPrefix : String) :
      Effect cfg s (.addInstance ins threadIDPrefix)
        { s with bcs := s.bcs.addInstance cfg s.ring ins threadIDPrefix }
  | delInstance (ins : Instance) :
      Effect cfg s (.delInstance ins) { s with bcs := s.bcs.delInstance cfg s.ring ins }
  | instanceUpdate (tid : Nat) (ins : Instance) (threadIDPrefix : String) :
      Effect cfg s (.instanceUpdate tid ins threadIDPrefix)
        { s with
          threads := s.threads.insert tid
            (.instanceUpdate (s.bcs.queueOf cfg s.ring ins) ins threadIDPrefix) }
  | ownerUpdate (isFuncOwner : Bool) :
      Effect cfg s (.ownerUpdate isFuncOwner)
        { s with bcs := s.bcs.handleFuncOwnerUpdate cfg s.ring isFuncOwner }
  | ringChange (ring : List String) : Effect cfg s (.ringChange ring) { s with ring }

variable {s s' : System} {l : Label}

theorem effect_of_resume {tid : Nat} {choice : Choice} (hwf : WellFormed cfg s.bcs)
    (hstep : s.resume cfg tid choice = some (s', l)) : Effect cfg s (.resume tid choice) s' := by
  unfold System.resume at hstep
  split at hstep
  · cases hstep
  case h_2 req resolved hreq =>
    obtain ⟨rfl, -⟩ := mk.inj (some.inj hstep)
    unfold acquireResolved
    dsimp only
    generalize hreq' : (if resolved then req
      else s.bcs.applyStoreDesignate cfg req choice.storeRecord) = req'
    have hdemand : req'.demand = req.demand := by
      rw [← hreq']
      split
      · rfl
      unfold applyStoreDesignate
      dsimp only
      split
      case h_1 req' hpeek =>
        obtain ⟨entry, -, hmap⟩ := bind_eq_some_iff.mp hpeek
        obtain ⟨el, -, rfl⟩ := map_eq_some_iff.mp hmap
        rfl
      case h_2 => split <;> rfl
    generalize (if s.bcs.routeDesignateInstance req' (s.bcs.isFuncOwner || req'.trafficLimited)
      then QueueName.self else QueueName.other) = name
    have hacq : Acquires cfg req.demand s.bcs (s.bcs.acquireUnleased cfg name req' choice) :=
      acquires_acquireUnleased name req' hdemand choice hwf.linked
    rw [acquireInstanceInternal_eq]
    generalize s.bcs.acquireUnleased cfg name req' choice = result at hacq
    cases hacq with
    | failed hprep => exact .refused hreq hprep
    | bare hprep hkey => exact .bare hreq hprep hkey
    | @obtained _ _ alloc hprep hobtains =>
      dsimp only
      split
      case isTrue hlease =>
        have hfiled := ((hwf.reflTransGen_prepares hprep).obtains hobtains).filed
        exact .unleased hreq hprep hobtains hlease (releases_releaseInstanceInternal name alloc hfiled)
      case isFalse => exact .granted hreq hprep hobtains
  case h_3 insQue ins threadIDPrefix hreq =>
    obtain ⟨rfl, -⟩ := mk.inj (some.inj hstep)
    exact .updated hreq

theorem unbindStep_eq_some (hstep : s.unbindStep g pc f = some (s', l)) :
    ∃ u bcs, s.bcs.unbinds.lookup g = some u ∧ u.pc = pc ∧ f u = some bcs ∧ s' = { s with bcs } := by
  unfold System.unbindStep at hstep
  split at hstep
  · cases hstep
  rename_i u hu
  obtain ⟨hpc, hstep⟩ := ite_none_right_eq_some.mp hstep
  obtain ⟨bcs, hbcs, heq⟩ := map_eq_some_iff.mp hstep
  exact ⟨u, bcs, hu, hpc, hbcs, (mk.inj heq).1.symm⟩

theorem locked_eq_some (h : s.locked result = some r) : s.deadlocked = false ∧ result = some r := by
  unfold System.locked at h
  split at h
  · cases h
  case isFalse hfree => exact ⟨by simpa using hfree, h⟩

theorem effect_of_step (hwf : WellFormed cfg s.bcs) (hstep : s.step cfg e = some (s', l)) :
    Effect cfg s e s' := by
  cases e with
  | acquire tid req =>
    have hres := (locked_eq_some hstep).2
    split at hres
    · cases hres
      exact .begun tid req
    · cases hres
  | resume => exact effect_of_resume hwf (locked_eq_some hstep).2
  | release =>
    have hres := (locked_eq_some hstep).2
    unfold System.release at hres
    split at hres
    · cases hres
    case h_2 alloc halloc =>
      obtain ⟨rfl, -⟩ := mk.inj (some.inj hres)
      exact .released halloc (releases_releaseInstanceInternal _ alloc hwf.filed)
  | timer =>
    obtain ⟨u, bcs, hu, hpc, hbcs, rfl⟩ := unbindStep_eq_some hstep
    cases hbcs
    exact .timer hu hpc
  | expire g order =>
    obtain ⟨u, bcs, hu, hpc, hbcs, rfl⟩ := unbindStep_eq_some (locked_eq_some hstep).2
    cases hbcs
    exact .expired hu hpc (expires_unbindExpired hwf g u order)
  | cancel =>
    obtain ⟨u, bcs, hu, hpc, hbcs, rfl⟩ := unbindStep_eq_some hstep
    split at hbcs
    · cases hbcs
    rename_i r hr
    obtain ⟨htoken, rfl⟩ := ite_some_none_eq_some.mp hbcs
    exact .cancelled hu hpc hr htoken
  | store =>
    obtain ⟨u, bcs, hu, hpc, hbcs, rfl⟩ := unbindStep_eq_some hstep
    split at hbcs
    · cases hbcs
    case h_2 r hr =>
      cases hbcs
      exact .stored hu hpc hr
  | addInstance ins threadIDPrefix =>
    cases (locked_eq_some hstep).2
    exact .addInstance ins threadIDPrefix
  | delInstance ins =>
    cases (locked_eq_some hstep).2
    exact .delInstance ins
  | instanceUpdate tid ins threadIDPrefix =>
    unfold System.step at hstep
    dsimp only at hstep
    split at hstep
    · cases hstep
      exact .instanceUpdate tid ins threadIDPrefix
    · cases hstep
  | ownerUpdate isFuncOwner =>
    cases (locked_eq_some hstep).2
    exact .ownerUpdate isFuncOwner
  | ringChange ring =>
    cases hstep
    exact .ringChange ring

end Yuanrong.Concurrency
