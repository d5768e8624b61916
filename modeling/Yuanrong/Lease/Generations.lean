import Yuanrong.Lease.Holder

/-!
# Which lease an expiry ends

A lease is ended once: whoever runs its callback has taken it out of the map. The goroutine that
ends a lease because its task has fired knows the ID only. If the lease is extended or replaced
under its ID in the meantime, the goroutine ends a lease whose task has not fired.
-/

namespace Yuanrong.Lease

open AList List TimeWheel Nat SimpleTimeWheel

variable {w w' : SimpleTimeWheel} {id : String} {interval : Nat} {times : Int}

theorem addTask_record (hadd : w.addTask id interval times = .ok w') :
    w.record.lookup id = none ∧ w'.record = w.record.insert id (w.trigger interval times) := by
  unfold addTask at hadd
  split at hadd
  · cases hadd
  split at hadd
  case isTrue => cases hadd
  case isFalse hnone =>
    cases hadd
    exact ⟨by simpa using hnone, rfl⟩

namespace System

variable {s s' : System} {e : Event} {l : Label} {id : String}

/-- A callback is that of a live lease under its ID, and a task was set by the lease there. -/
structure Tracked (s : System) : Prop where
  callback : ∀ id n, s.il.callbackMap.lookup id = some n →
    ∃ lease, s.leases.lookup n = some lease ∧ lease.allocationID = id ∧ lease.runs = 0
  interval : ∀ id d, s.il.intervalMap.lookup id = some d → ∃ n, s.il.callbackMap.lookup id = some n
  armed : ∀ id t, s.il.timeWheel.record.lookup id = some t →
    ∃ n, s.il.callbackMap.lookup id = some n ∧ s.armedBy.lookup id = some n
  runs : ∀ n lease, s.leases.lookup n = some lease → lease.runs ≤ 1
  fresh : ∀ n lease, s.leases.lookup n = some lease → n < s.nextRef

theorem lookup_mapVal_fired {leases : FinMap Nat LeaseHistory}
    (hf : ∀ n lease, (f n lease).allocationID = lease.allocationID ∧ (f n lease).runs = lease.runs)
    (hlookup : (leases.mapVal f).lookup n = some lease') :
    ∃ lease, leases.lookup n = some lease ∧ lease' = f n lease ∧
      lease'.allocationID = lease.allocationID ∧ lease'.runs = lease.runs := by
  rw [lookup_mapVal] at hlookup
  obtain ⟨lease, hlease, rfl⟩ := Option.map_eq_some_iff.mp hlookup
  exact ⟨lease, hlease, rfl, hf n lease⟩

theorem Tracked.mapVal (htracked : s.Tracked)
    (hf : ∀ n lease, (f n lease).allocationID = lease.allocationID ∧ (f n lease).runs = lease.runs) :
    { s with leases := s.leases.mapVal f }.Tracked :=
  { htracked with
    callback id n hid := by
      obtain ⟨lease, hlease, hid', hruns⟩ := htracked.callback id n hid
      refine ⟨f n lease, ?_, (hf n lease).1.trans hid', (hf n lease).2.trans hruns⟩
      rw [lookup_mapVal, hlease, Option.map_some]
    runs n lease' hlease' := by
      obtain ⟨lease, hlease, -, -, hruns⟩ := lookup_mapVal_fired hf hlease'
      rw [hruns]
      exact htracked.runs n lease hlease
    fresh n lease' hlease' := by
      obtain ⟨lease, hlease, -⟩ := lookup_mapVal_fired hf hlease'
      exact htracked.fresh n lease hlease }

theorem markFired_history (armedBy : FinMap String Nat) (ids : List String) (n : Nat) (lease : LeaseHistory) :
    (if ids.any fun id => armedBy.lookup id = some n then { lease with fired := true }
      else lease).allocationID = lease.allocationID ∧
    (if ids.any fun id => armedBy.lookup id = some n then { lease with fired := true }
      else lease).runs = lease.runs := by
  split <;> exact ⟨rfl, rfl⟩

section

variable (htracked : s.Tracked)
include htracked

theorem endLease_tracked (id : String) : { s with
      il := s.il.endLease id
      leases := s.runCallback (s.il.callbackMap.lookup id) }.Tracked := by
  have hleases : ∀ n lease', (s.runCallback (s.il.callbackMap.lookup id)).lookup n = some lease' →
      ∃ lease, s.leases.lookup n = some lease ∧ lease'.allocationID = lease.allocationID ∧
        lease'.runs ≤ 1 := by
    intro n lease' hlease'
    unfold runCallback at hlease'
    split at hlease'
    · exact ⟨lease', hlease', rfl, htracked.runs n lease' hlease'⟩
    rename_i m hm
    obtain ⟨lease, hlease, -, hruns⟩ := htracked.callback id m hm
    rw [hlease] at hlease'
    rcases lookup_of_insert hlease' with ⟨rfl, rfl⟩ | hold
    · exact ⟨lease, hlease, rfl, by simp [hruns]⟩
    · exact ⟨lease', hold, rfl, htracked.runs n lease' hold⟩
  refine ⟨?_, ?_, ?_, ?_, ?_⟩
  · intro id' n hid'
    have hold := lookup_of_erase hid'
    have hne := ne_of_lookup_erase hid'
    obtain ⟨lease, hlease, hname, hruns⟩ := htracked.callback id' n hold
    refine ⟨lease, ?_, hname, hruns⟩
    unfold runCallback
    split
    · exact hlease
    rename_i m hm
    obtain ⟨lease₀, hlease₀, hname₀, -⟩ := htracked.callback id m hm
    rw [hlease₀]
    rw [lookup_insert_eq_ite, if_neg]
    · exact hlease
    rintro rfl
    rw [hlease] at hlease₀
    cases hlease₀
    exact hne (hname.symm.trans hname₀)
  · intro id' d hid'
    have hne := ne_of_lookup_erase hid'
    obtain ⟨n, hn⟩ := htracked.interval id' d (lookup_of_erase hid')
    exact ⟨n, (lookup_erase_ne hne).trans hn⟩
  · intro id' t ht
    have hne := ne_of_lookup_erase ht
    obtain ⟨n, hn, harmed⟩ := htracked.armed id' t (lookup_of_erase ht)
    exact ⟨n, (lookup_erase_ne hne).trans hn, harmed⟩
  · intro n lease' hlease'
    obtain ⟨-, -, -, hruns⟩ := hleases n lease' hlease'
    exact hruns
  · intro n lease' hlease'
    obtain ⟨lease, hlease, -⟩ := hleases n lease' hlease'
    exact htracked.fresh n lease hlease

theorem createLease_tracked (id : String) (interval : Nat) : (s.createLease id interval).Tracked := by
  unfold createLease
  cases hcreate : s.il.createLease id interval s.nextRef with
  | error => exact htracked
  | ok =>
    unfold InstanceLeaseHolder.createLease at hcreate
    split at hcreate
    · cases hcreate
    split at hcreate
    case h_1 => cases hcreate
    rename_i w hadd
    cases hcreate
    obtain ⟨-, hrecord⟩ := addTask_record hadd
    refine ⟨?_, ?_, ?_, ?_, ?_⟩
    · refine forall_lookup_insert ?_ fun id' n hold => ?_
      · exact ⟨_, lookup_insert _, rfl, rfl⟩
      obtain ⟨lease, hlease, hname, hruns⟩ := htracked.callback id' n hold
      have hlt := htracked.fresh n lease hlease
      exact ⟨lease, (lookup_insert_ne (by omega)).trans hlease, hname, hruns⟩
    · intro id' d hid'
      by_cases hid : id' = id
      · subst hid
        exact ⟨_, lookup_insert _⟩
      · obtain ⟨n, hn⟩ := htracked.interval id' d ((lookup_insert_ne hid).symm.trans hid')
        exact ⟨n, (lookup_insert_ne hid).trans hn⟩
    · intro id' t ht
      by_cases hid : id' = id
      · subst hid
        exact ⟨_, lookup_insert _, lookup_insert _⟩
      rw [hrecord, lookup_insert_ne hid] at ht
      obtain ⟨n, hn, harmed⟩ := htracked.armed id' t ht
      exact ⟨n, (lookup_insert_ne hid).trans hn, (lookup_insert_ne hid).trans harmed⟩
    · exact forall_lookup_insert (zero_le 1) htracked.runs
    · exact forall_lookup_insert (lt_succ_self _)
        fun n lease hold => lt_succ_of_lt (htracked.fresh n lease hold)

theorem extendLease_spec (id : String) : s.extendLease id = s ∨ ∃ il n w, s.il.extendLease id = .ok il ∧
      s.il.callbackMap.lookup id = some n ∧ w.record = s.il.timeWheel.record.insert id
        (s.il.timeWheel.trigger ((s.il.intervalMap.lookup id).getD 0) 1) ∧
      s.extendLease id =
        { s with
          il := { s.il with timeWheel := w }
          leases := s.leases.mapVal fun n' lease => if n' = n then { lease with fired := false } else lease
          armedBy := s.armedBy.insert id n } := by
  unfold extendLease
  cases hextend : s.il.extendLease id with
  | error => exact .inl rfl
  | ok =>
    unfold InstanceLeaseHolder.extendLease at hextend
    split at hextend
    · cases hextend
    split at hextend
    case h_1 => cases hextend
    rename_i interval hinterval
    split at hextend
    case h_1 => cases hextend
    rename_i w hupdate
    cases hextend
    obtain ⟨n, hn⟩ := htracked.interval id interval hinterval
    rw [hn]
    refine .inr ⟨_, n, w, rfl, rfl, ?_, rfl⟩
    rw [hinterval]
    unfold updateTask at hupdate
    split at hupdate
    · cases hupdate
      rfl
    · exact (addTask_record hupdate).2

theorem extendLease_tracked (id : String) : (s.extendLease id).Tracked := by
  rcases extendLease_spec htracked id with heq | ⟨il, n, w, -, hn, hrecord, heq⟩
  · rw [heq]
    exact htracked
  rw [heq]
  have hreset := htracked.mapVal (f := fun n' lease =>
    if n' = n then { lease with fired := false } else lease) (by
      intro n' lease
      split <;> exact ⟨rfl, rfl⟩)
  refine { hreset with armed := fun id' t ht => ?_ }
  by_cases hid : id' = id
  · subst hid
    exact ⟨n, hn, lookup_insert _⟩
  rw [hrecord, lookup_insert_ne hid] at ht
  obtain ⟨m, hm, harmed⟩ := htracked.armed id' t ht
  exact ⟨m, hm, (lookup_insert_ne hid).trans harmed⟩

theorem step_tracked (hstep : s.step e = some (s', l)) : s'.Tracked := by
  cases e with
  | tick =>
    obtain ⟨-, rfl⟩ := Option.ite_some_none_eq_some.mp (next_of_step hstep)
    have hmarked := htracked.mapVal (markFired_history s.armedBy s.il.timeWheel.fired)
    refine { hmarked with armed := fun id t ht => ?_ }
    obtain ⟨t₀, ht₀, -⟩ := s.il.timeWheel.lookup_tickRecord ht
    exact htracked.armed id t₀ ht₀
  | send =>
    have hnext := next_of_step hstep
    unfold send at hnext
    repeat' split at hnext
    all_goals cases hnext
    exact { htracked with }
  | pollCheck =>
    have hnext := next_of_step hstep
    unfold pollCheck at hnext
    split at hnext
    all_goals cases hnext
    exact { htracked with }
  | wait =>
    have hnext := next_of_step hstep
    unfold wait at hnext
    repeat' split at hnext
    all_goals cases hnext
    · exact { htracked with }
    · exact { htracked with fresh := fun n lease h => lt_succ_of_lt (htracked.fresh n lease h) }
  | expire =>
    simp only [step, expire] at hstep
    split at hstep
    all_goals cases hstep
    exact { endLease_tracked htracked _ with }
  | createLease id interval =>
    cases hstep
    exact createLease_tracked htracked id interval
  | extendLease id =>
    cases hstep
    exact extendLease_tracked htracked id
  | releaseLease id =>
    cases hstep
    unfold releaseLease
    split
    · exact endLease_tracked htracked id
    · exact htracked
  | stop =>
    cases hstep
    exact { htracked with }
  | stopWheel =>
    simp only [step] at hstep
    split at hstep
    all_goals cases hstep
    exact { htracked with }

end

end System

theorem tracked_of_reachable (hreach : leaseHolder.Reachable s) : s.Tracked := by
  refine hreach.invariant (fun s hinit => ?_) fun s e s' l _ _ htracked hstep =>
    System.step_tracked htracked hstep
  rw [hinit]
  constructor <;> intro _ _ h <;> cases h

namespace System

variable {s s' : System} {e : Event} {l : Label} {id : String}

/-- The ID is in a list that the goroutines of `pollLease` have still to work through. -/
def inFlight (s : System) (id : String) : Bool :=
  (s.sending.any fun ids => ids.contains id) || s.readyCh.any (fun ids => ids.contains id) ||
    s.goroutines.entries.any fun entry => entry.2.contains id

theorem inFlight_iff : s.inFlight id = true ↔
    (∃ ids, s.sending = some ids ∧ id ∈ ids) ∨ (∃ ids ∈ s.readyCh, id ∈ ids) ∨
      ∃ g ids, s.goroutines.lookup g = some ids ∧ id ∈ ids := by
  unfold inFlight
  simp only [Bool.or_eq_true, Option.any_eq_true, any_eq_true, contains_iff_mem, or_assoc]
  refine or_congr Iff.rfl (or_congr Iff.rfl ⟨?_, ?_⟩)
  · rintro ⟨⟨g, ids⟩, hentry, hmem⟩
    exact ⟨g, ids, mem_entries_iff.mp hentry, hmem⟩
  · rintro ⟨g, ids, hlookup, hmem⟩
    exact ⟨⟨g, ids⟩, mem_entries_iff.mpr hlookup, hmem⟩

def Settled (s : System) : Prop :=
  ∀ id n lease, s.inFlight id = true → s.il.callbackMap.lookup id = some n →
    s.leases.lookup n = some lease → lease.fired = true

/-- No lease is created or extended under an ID that is in flight. -/
def unhurried (s : System) : Event → Bool
  | .createLease id interval =>
    match s.il.createLease id interval s.nextRef with
    | .error _ => true
    | .ok _ => !s.inFlight id
  | .extendLease id =>
    match s.il.extendLease id with
    | .error _ => true
    | .ok _ => !s.inFlight id
  | _ => true

theorem Settled.mono (hsettled : s.Settled) (hflight : ∀ id, s'.inFlight id = true → s.inFlight id = true)
    (hleases : ∀ id n lease, s'.il.callbackMap.lookup id = some n → s'.leases.lookup n = some lease →
      ∃ old, s.il.callbackMap.lookup id = some n ∧ s.leases.lookup n = some old ∧
        (old.fired = true → lease.fired = true)) : s'.Settled := by
  intro id n lease hid hn hlease
  obtain ⟨old, hn', hold, hfired⟩ := hleases id n lease hn hlease
  exact hfired (hsettled id n old (hflight id hid) hn' hold)

theorem tick_settled (htracked : s.Tracked) (hsettled : s.Settled) (hstep : s.tick = some s') :
    s'.Settled := by
  obtain ⟨hready, rfl⟩ := Option.ite_some_none_eq_some.mp hstep
  intro id n lease' hid hn hlease'
  obtain ⟨lease, hlease, rfl, -⟩ :=
    lookup_mapVal_fired (markFired_history s.armedBy s.il.timeWheel.fired) hlease'
  -- the ID was in flight before, or its task is among those that fire
  by_cases hfired : id ∈ s.il.timeWheel.fired
  · obtain ⟨t, ht, -⟩ := s.il.timeWheel.mem_fired.mp hfired
    obtain ⟨m, hm, harmed⟩ := htracked.armed id t ht
    have hmn : m = n := Option.some.inj (hm.symm.trans hn)
    rw [if_pos]
    rw [any_eq_true]
    exact ⟨id, hfired, by simpa [hmn] using harmed⟩
  · have hold : s.inFlight id = true := by
      rw [inFlight_iff] at hid ⊢
      rcases hid with ⟨ids, hids, hmem⟩ | hid
      · split at hids
        · cases hids
        · cases hids
          exact absurd hmem hfired
      · exact .inr hid
    have hset := hsettled id n lease hold hn hlease
    split
    · rfl
    · exact hset

theorem inFlight_of_send (hstep : s.send = some s') (id : String) (hid : s'.inFlight id = true) :
    s.inFlight id = true := by
  unfold send at hstep
  split at hstep
  case h_1 => cases hstep
  rename_i readyList hsending
  split at hstep
  all_goals cases hstep
  rw [inFlight_iff] at hid ⊢
  rcases hid with ⟨ids, hids, -⟩ | ⟨ids, hids, hmem⟩ | hid
  · cases hids
  · rcases mem_append.mp hids with hids | hids
    · exact .inr (.inl ⟨ids, hids, hmem⟩)
    · rw [mem_singleton] at hids
      exact .inl ⟨readyList, hsending, hids ▸ hmem⟩
  · exact .inr (.inr hid)

theorem inFlight_of_wait (hstep : s.wait = some s') (id : String) (hid : s'.inFlight id = true) :
    s.inFlight id = true := by
  obtain ⟨-, hstep⟩ := Option.ite_none_right_eq_some.mp hstep
  split at hstep
  case h_1 =>
    split at hstep
    all_goals cases hstep
    exact hid
  case h_2 readyList rest hready =>
    cases hstep
    rw [inFlight_iff] at hid ⊢
    rcases hid with hid | ⟨ids, hids, hmem⟩ | ⟨g, ids, hids, hmem⟩
    · exact .inl hid
    · exact .inr (.inl ⟨ids, by rw [hready]; exact mem_cons_of_mem _ hids, hmem⟩)
    rcases lookup_of_insert hids with ⟨-, rfl⟩ | hold
    · exact .inr (.inl ⟨_, by rw [hready]; exact mem_cons_self, hmem⟩)
    · exact .inr (.inr ⟨g, ids, hold, hmem⟩)

section

variable (htracked : s.Tracked)
include htracked

theorem endLease_leases (id x : String) (hn : (s.il.endLease id).callbackMap.lookup x = some n)
    (hlease : (s.runCallback (s.il.callbackMap.lookup id)).lookup n = some lease) :
    ∃ old, s.il.callbackMap.lookup x = some n ∧ s.leases.lookup n = some old ∧
      (old.fired = true → lease.fired = true) := by
  refine Exists.imp (fun old h => ⟨lookup_of_erase hn, h⟩) ?_
  unfold runCallback at hlease
  split at hlease
  · exact ⟨lease, hlease, fun h => h⟩
  rename_i m hm
  obtain ⟨lease₀, hlease₀, -⟩ := htracked.callback id m hm
  rw [hlease₀] at hlease
  rcases lookup_of_insert hlease with ⟨rfl, rfl⟩ | hold
  · exact ⟨lease₀, hlease₀, fun h => h⟩
  · exact ⟨lease, hold, fun h => h⟩

theorem expire_settled (hsettled : s.Settled) (hstep : s.expire g = some (s', l)) : s'.Settled := by
  unfold expire at hstep
  split at hstep
  case h_2 => cases hstep
  rename_i id rest hg
  cases hstep
  refine hsettled.mono (fun x hx => ?_) fun x n lease hn hlease => endLease_leases htracked id x hn hlease
  rw [inFlight_iff] at hx ⊢
  rcases hx with hx | hx | ⟨g', ids, hids, hmem⟩
  · exact .inl hx
  · exact .inr (.inl hx)
  rcases lookup_of_insert hids with ⟨rfl, rfl⟩ | hold
  · exact .inr (.inr ⟨g', _, hg, mem_cons_of_mem id hmem⟩)
  · exact .inr (.inr ⟨g', ids, hold, hmem⟩)

theorem createLease_settled (hsettled : s.Settled)
    (hok : s.unhurried (.createLease id interval) = true) : (s.createLease id interval).Settled := by
  unfold createLease
  cases hcreate : s.il.createLease id interval s.nextRef with
  | error => exact hsettled
  | ok il =>
    simp only [unhurried, hcreate] at hok
    have hcallback : il.callbackMap = s.il.callbackMap.insert id s.nextRef := by
      unfold InstanceLeaseHolder.createLease at hcreate
      split at hcreate
      · cases hcreate
      split at hcreate
      all_goals cases hcreate
      rfl
    intro x n lease hx hn hlease
    have hx' : s.inFlight x = true := hx
    rw [hcallback] at hn
    rcases lookup_of_insert hn with ⟨rfl, rfl⟩ | hold
    · rw [hx'] at hok
      cases hok
    obtain ⟨lease₀, hlease₀, -⟩ := htracked.callback x n hold
    have hlt := htracked.fresh n lease₀ hlease₀
    have hsame := (lookup_insert_ne (by omega)).symm.trans hlease
    exact hsettled x n lease hx' hold hsame

theorem extendLease_settled (hsettled : s.Settled)
    (hok : s.unhurried (.extendLease id) = true) : (s.extendLease id).Settled := by
  rcases extendLease_spec htracked id with heq | ⟨il, n, w, hextend, hn, -, heq⟩
  · rw [heq]
    exact hsettled
  simp only [unhurried, hextend] at hok
  rw [heq]
  intro x m lease' hx hm hlease'
  have hx' : s.inFlight x = true := hx
  obtain ⟨lease, hlease, rfl, -⟩ := lookup_mapVal_fired (by
    intro n' lease
    split <;> exact ⟨rfl, rfl⟩) hlease'
  have hne : m ≠ n := by
    rintro rfl
    obtain ⟨lease₁, hlease₁, hname₁, -⟩ := htracked.callback x m hm
    obtain ⟨lease₂, hlease₂, hname₂, -⟩ := htracked.callback id m hn
    rw [hlease₁] at hlease₂
    cases hlease₂
    rw [← hname₂, hname₁, hx'] at hok
    cases hok
  rw [if_neg hne]
  exact hsettled x m lease hx' hm hlease

theorem step_settled (hsettled : s.Settled) (hok : s.unhurried e = true)
    (hstep : s.step e = some (s', l)) : s'.Settled := by
  cases e with
  | tick => exact tick_settled htracked hsettled (next_of_step hstep)
  | send =>
    have hnext := next_of_step hstep
    have hflight := inFlight_of_send hnext
    unfold send at hnext
    repeat' split at hnext
    all_goals cases hnext
    exact hsettled.mono hflight fun x n lease hn hlease => ⟨lease, hn, hlease, fun h => h⟩
  | pollCheck =>
    have hnext := next_of_step hstep
    unfold pollCheck at hnext
    split at hnext
    all_goals cases hnext
    exact hsettled
  | wait =>
    have hnext := next_of_step hstep
    have hflight := inFlight_of_wait hnext
    unfold wait at hnext
    repeat' split at hnext
    all_goals cases hnext
    all_goals exact hsettled.mono hflight fun x n lease hn hlease => ⟨lease, hn, hlease, fun h => h⟩
  | expire => exact expire_settled htracked hsettled hstep
  | createLease =>
    cases hstep
    exact createLease_settled htracked hsettled hok
  | extendLease =>
    cases hstep
    exact extendLease_settled htracked hsettled hok
  | releaseLease id =>
    cases hstep
    unfold releaseLease
    split
    · exact hsettled.mono (fun x hx => hx) fun x n lease hn hlease => endLease_leases htracked id x hn hlease
    · exact hsettled
  | stop =>
    cases hstep
    exact hsettled
  | stopWheel =>
    simp only [step] at hstep
    split at hstep
    all_goals cases hstep
    refine hsettled.mono (fun x hx => ?_) fun x n lease hn hlease => ⟨lease, hn, hlease, fun h => h⟩
    rw [inFlight_iff] at hx ⊢
    rcases hx with ⟨ids, hids, -⟩ | hx
    · cases hids
    · exact .inr hx

end

end System

theorem settled_of_reach (hreach : leaseHolder.Reach (fun s e => s.unhurried e = true) s) : s.Settled := by
  refine hreach.invariant (fun s hinit => ?_) fun s e s' l hprev hok hsettled hstep =>
    System.step_settled (tracked_of_reachable hprev.reachable) hsettled hok hstep
  rw [hinit]
  intro id n lease _ hn _
  cases hn

/-- No lease is ended twice. If IDs that have fired are dealt with first, only leases whose own task
has fired are ended. -/
theorem expiry_ends_fired_lease (s : System) (hrun : leaseHolder.Reachable s) :
    (∀ n lease, s.leases.lookup n = some lease → lease.runs ≤ 1) ∧
    (leaseHolder.Reach (fun s e => s.unhurried e = true) s → ∀ g s' l n,
      leaseHolder.step s (.expire g) = some (s', l) → l.expired = some n →
        ∃ lease, s.leases.lookup n = some lease ∧ lease.fired = true ∧ lease.runs = 0) := by
  refine ⟨(tracked_of_reachable hrun).runs, ?_⟩
  intro hreach g s' l n hstep hn
  change s.expire g = some (s', l) at hstep
  unfold System.expire at hstep
  split at hstep
  case h_2 => cases hstep
  rename_i id rest hg
  cases hstep
  obtain ⟨lease, hlease, -, hruns⟩ := (tracked_of_reachable hreach.reachable).callback id n hn
  refine ⟨lease, hlease, settled_of_reach hreach id n lease ?_ hn hlease, hruns⟩
  rw [System.inFlight_iff]
  exact .inr (.inr ⟨g, _, hg, mem_cons_self⟩)

theorem expiry_ends_fired_lease_unused : ∃ s s' l lease,
    leaseHolder.Reach (fun s e => s.unhurried e = true) s ∧
      leaseHolder.step s (.expire 1) = some (s', l) ∧ l.expired = some 0 ∧
      s.leases.lookup 0 = some lease ∧ lease.fired = true ∧ lease.runs ≤ 1 := by
  obtain ⟨s, hreach, s', l, hstep, hn⟩ := leaseHolder.reach_of_run System.unhurried rfl
    ([.createLease "a" 500000000] ++ replicate 101 .tick ++ [.send, .pollCheck, .wait])
    (fun s => ∃ s' l, leaseHolder.step s (.expire 1) = some (s', l) ∧ l.expired = some 0)
    (by decide +kernel)
  obtain ⟨honce, hfired⟩ := expiry_ends_fired_lease s hreach.reachable
  obtain ⟨lease, hlease, hfired, -⟩ := hfired hreach 1 s' l 0 hstep hn
  exact ⟨s, s', l, lease, hreach, hstep, hn, hlease, hfired, honce 0 lease hlease⟩

/-- An expired ID is handed out again before the goroutine comes, which ends the new lease. -/
theorem expiry_ends_other_lease : ∃ s s' l lease, leaseHolder.Reachable s ∧
    leaseHolder.step s (.expire 1) = some (s', l) ∧ l.expired = some 2 ∧
    s.leases.lookup 2 = some lease ∧ lease.fired = false := by
  obtain ⟨s, hreach, s', l, hstep, hn, lease, hlease, hfired⟩ := leaseHolder.reachable_of_run rfl
    ([.createLease "a" 500000000] ++ replicate 101 .tick ++ [.send, .pollCheck, .wait,
      .releaseLease "a", .createLease "a" 500000000])
    (fun s => ∃ s' l, leaseHolder.step s (.expire 1) = some (s', l) ∧ l.expired = some 2 ∧
      ∃ lease, s.leases.lookup 2 = some lease ∧ lease.fired = false) (by decide +kernel)
  exact ⟨s, s', l, lease, hreach, hstep, hn, hlease, hfired⟩

end Yuanrong.Lease
