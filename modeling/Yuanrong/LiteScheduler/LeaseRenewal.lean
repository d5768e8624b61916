import Yuanrong.LiteScheduler.Proof.WellFormed

/-!
# Leases that are reaped

The wheel learns of a renewal after the record has it, and what has fired travels to the reaper as a
list of IDs. A lease is renewed in both places at once only when nothing comes between the two, and
the reaper, which looks at no time, then deletes expired leases only.
-/

namespace Yuanrong.Lite

open AList List LiteScheduler Nat TimeWheel LiteFunctionPool Bool

def LiteScheduler.expired (ls : LiteScheduler) : List String := ls.ready.flatten ++ ls.batch

def System.renewing (s : System) (allocID : String) : Bool :=
  s.threads.entries.any fun entry => entry.2.renews == some allocID

def System.issuable (cfg : Config) (s : System) (req : LiteRequest) : List String :=
  match s.ls.getPool req.funcKey with
  | none => []
  | some pool =>
    pool.instances.keys.map fun instanceID =>
      genAllocationID cfg.hash req.bindingKey instanceID (toInt64 (nextSeq pool))

/-- No lease is renewed or issued under an ID that has fired or is in the wheel, and no ID fires
between the two renewals. -/
def renewsInTime (cfg : Config) (s : System) (e : Event) : Bool :=
  match e with
  | .run tid _ =>
    match s.threads.lookup tid with
    | some (.sticky req) | some (.dispatch req) | some (.poll req _) =>
      !s.ls.tickPending && (s.issuable cfg req).all fun allocID =>
        !s.ls.expired.contains allocID && (s.ls.expiryWheel.record.lookup allocID).isNone
    | some (.refresh allocID _) => !s.ls.expired.contains allocID
    | some (.reacquire params) => !s.ls.expired.contains params.allocID
    | some (.updateTask _ _) => !s.ls.tickPending
    | _ => true
  | .tick _ => s.ls.expiryWheel.fired.all fun allocID => !s.renewing allocID
  | _ => true

/-- What has fired is expired, and what is on the wheel fires no earlier than it expires. -/
structure Timely (cfg : Config) (s : System) : Prop where
  pace : s.ls.expiryWheel.pace = liteExpiryScanPace
  lease : ∀ id a, s.ls.allocations.lookup id = some a → a.expireAt ≤ liteTTL cfg + s.ls.now
  expired : ∀ id a, s.ls.allocations.lookup id = some a → id ∈ s.ls.expired → a.expireAt ≤ s.ls.now
  ahead : ∀ id a t, s.ls.allocations.lookup id = some a →
    s.ls.expiryWheel.record.lookup id = some t → s.renewing id = false →
    a.expireAt + (if s.ls.tickPending then s.ls.expiryWheel.pace else 0) ≤
      (s.ls.now / s.ls.expiryWheel.pace + s.ls.expiryWheel.ticksLeft t) * s.ls.expiryWheel.pace

variable {s : System} {id : String}

theorem System.renewing_iff :
    s.renewing id = true ↔ ∃ tid, (s.threads.lookup tid).bind Pc.renews = some id := by
  unfold System.renewing
  rw [any_eq_true]
  constructor
  · rintro ⟨⟨tid, pc⟩, hmem, hrenews⟩
    refine ⟨tid, ?_⟩
    rw [mem_entries_iff.mp hmem]
    exact beq_iff_eq.mp hrenews
  · rintro ⟨tid, hrenews⟩
    obtain ⟨pc, hpc, hid⟩ := Option.bind_eq_some_iff.mp hrenews
    exact ⟨⟨tid, pc⟩, mem_entries_iff.mpr hpc, beq_iff_eq.mpr hid⟩

theorem System.renewing_of_next (hnext : o.next.bind Pc.renews = some id) :
    (s.finish tid o).1.renewing id = true := by
  rw [System.renewing_iff]
  refine ⟨tid, ?_⟩
  change ((s.setThread tid o.next).lookup tid).bind Pc.renews = some id
  rw [setThread_lookup, if_pos rfl]
  exact hnext

theorem System.renewing_finish
    (hkeep : (s.threads.lookup tid).bind Pc.renews = some id → o.next.bind Pc.renews = some id)
    (hrenewing : s.renewing id = true) : (s.finish tid o).1.renewing id = true := by
  obtain ⟨tid', hid⟩ := System.renewing_iff.mp hrenewing
  by_cases heq : tid' = tid
  · rw [heq] at hid
    exact System.renewing_of_next (hkeep hid)
  rw [System.renewing_iff]
  refine ⟨tid', ?_⟩
  change ((s.setThread tid o.next).lookup tid').bind Pc.renews = some id
  rw [setThread_lookup, if_neg heq]
  exact hid

/-! ### What a section does to leases and tasks -/

section Views

variable {cfg : Config} {s s' : System} {id : String}

structure Sheds (w w' : SimpleTimeWheel) : Prop where
  pace : w'.pace = w.pace
  slotNum : w'.slotNum = w.slotNum
  curSlot : w'.curSlot = w.curSlot
  record : ∀ id t, w'.record.lookup id = some t → w.record.lookup id = some t

theorem Sheds.refl (w : SimpleTimeWheel) : Sheds w w where
  pace := rfl
  slotNum := rfl
  curSlot := rfl
  record _ _ h := h

theorem Sheds.delTask (w : SimpleTimeWheel) (id : String) : Sheds w (w.delTask id) where
  pace := rfl
  slotNum := rfl
  curSlot := rfl
  record _ _ h := lookup_of_erase h

variable {w w' : SimpleTimeWheel}

theorem Sheds.trans (h : Sheds w w') (h' : Sheds w' w'') : Sheds w w'' where
  pace := h'.pace.trans h.pace
  slotNum := h'.slotNum.trans h.slotNum
  curSlot := h'.curSlot.trans h.curSlot
  record id t hlookup := h.record id t (h'.record id t hlookup)

theorem Sheds.foldl (w : SimpleTimeWheel) (ids : List String) :
    Sheds w (ids.foldl SimpleTimeWheel.delTask w) :=
  foldlRecOn ids _ (Sheds.refl w) fun w' h id _ => h.trans (Sheds.delTask w' id)

theorem Sheds.ticksLeft (h : Sheds w w') (t : TimeTrigger) : w'.ticksLeft t = w.ticksLeft t := by
  unfold SimpleTimeWheel.ticksLeft SimpleTimeWheel.slotsAhead
  rw [h.slotNum, h.curSlot]

structure Lapses (s s' : System) : Prop where
  wheel : Sheds s.ls.expiryWheel s'.ls.expiryWheel
  tickPending : s'.ls.tickPending = s.ls.tickPending
  now : s'.ls.now = s.ls.now
  expired : ∀ id, id ∈ s'.ls.expired → id ∈ s.ls.expired
  allocations : ∀ id a, s'.ls.allocations.lookup id = some a → s.ls.allocations.lookup id = some a
  renewing : ∀ id, s.renewing id = true → s'.renewing id = true

theorem Timely.lapses (h : Timely cfg s) (hlapses : Lapses s s') : Timely cfg s' where
  pace := hlapses.wheel.pace.trans h.pace
  lease id a ha := by
    rw [hlapses.now]
    exact h.lease id a (hlapses.allocations id a ha)
  expired id a ha hid := by
    rw [hlapses.now]
    exact h.expired id a (hlapses.allocations id a ha) (hlapses.expired id hid)
  ahead id a t ha ht hrenewing := by
    rw [hlapses.now, hlapses.tickPending, hlapses.wheel.pace, hlapses.wheel.ticksLeft]
    refine h.ahead id a t (hlapses.allocations id a ha) (hlapses.wheel.record id t ht) ?_
    by_contra hbefore
    rw [hlapses.renewing id (eq_true_of_not_eq_false hbefore)] at hrenewing
    cases hrenewing

section

variable (ls : LiteScheduler) (result : Except TaskError SimpleTimeWheel)
include ls result

theorem LiteScheduler.setWheel_tickPending : (ls.setWheel result).tickPending = ls.tickPending := by
  unfold setWheel
  split <;> rfl

theorem LiteScheduler.setWheel_now : (ls.setWheel result).now = ls.now := by
  unfold setWheel
  split <;> rfl

theorem LiteScheduler.setWheel_expired : (ls.setWheel result).expired = ls.expired := by
  unfold setWheel
  split <;> rfl

end

def Armed (cfg : Config) (w : SimpleTimeWheel) (id : String) (w' : SimpleTimeWheel) : Prop :=
  w' = w.setTask id (liteTTL cfg) 1 ∨ (w' = w ∧ w.record.lookup id = none)

theorem armed_registerExpiryTask (ls : LiteScheduler) (hnone : ls.expiryWheel.record.lookup id = none) :
    Armed cfg ls.expiryWheel id (registerExpiryTask cfg ls id).expiryWheel := by
  unfold registerExpiryTask SimpleTimeWheel.addTask
  split_ifs with hshort hexists
  · exact .inr ⟨rfl, hnone⟩
  · rw [hnone] at hexists
    cases hexists
  · exact .inl rfl

theorem armed_updateExpiryTask (ls : LiteScheduler) (id : String) :
    Armed cfg ls.expiryWheel id (updateExpiryTask cfg ls id).expiryWheel := by
  unfold updateExpiryTask SimpleTimeWheel.updateTask
  split_ifs with hexists
  · exact .inl rfl
  · exact armed_registerExpiryTask ls (Option.not_isSome_iff_eq_none.mp hexists)

theorem lease_le_ticksLeft (hdvd : w.pace ∣ liteTTL cfg) (now : Nat) : liteTTL cfg + now ≤
      (now / w.pace + w.ticksLeft (w.trigger (liteTTL cfg) 1)) * w.pace := by
  rw [w.ticksLeft_trigger]
  have hnow := div_add_mod' now w.pace
  have hmod := mod_lt now w.pace_pos
  calc
    liteTTL cfg + now = liteTTL cfg + (now / w.pace * w.pace + now % w.pace) := by rw [hnow]
    _ ≤ liteTTL cfg + (now / w.pace * w.pace + w.pace) := by omega
    _ = liteTTL cfg / w.pace * w.pace + (now / w.pace * w.pace + w.pace) := by
      rw [Nat.div_mul_cancel hdvd]
    _ = (now / w.pace + (liteTTL cfg / w.pace + 1)) * w.pace := by
      rw [add_mul, add_mul, one_mul]
      omega

def Leases (cfg : Config) (s s' : System) (id : String) : Prop :=
  ∀ id' a, s'.ls.allocations.lookup id' = some a → s.ls.allocations.lookup id' = some a ∨
    (id' = id ∧ a.expireAt = liteTTL cfg + s.ls.now ∧ id ∉ s.ls.expired)

section

variable (hleases : Leases cfg s s' id) (h : Timely cfg s) {id' : String} {a : Allocation}
  (ha : s'.ls.allocations.lookup id' = some a)
include hleases h ha

theorem Leases.lease : a.expireAt ≤ liteTTL cfg + s.ls.now := by
  rcases hleases id' a ha with hold | ⟨-, hnew, -⟩
  · exact h.lease id' a hold
  · exact hnew.le

theorem Leases.expired (hid : id' ∈ s.ls.expired) : a.expireAt ≤ s.ls.now := by
  rcases hleases id' a ha with hold | ⟨rfl, -, hfresh⟩
  · exact h.expired id' a hold hid
  · exact absurd hid hfresh

end

structure Arms (cfg : Config) (s s' : System) (id : String) : Prop where
  wheel : Armed cfg s.ls.expiryWheel id s'.ls.expiryWheel
  idle : s.ls.tickPending = false
  tickPending : s'.ls.tickPending = s.ls.tickPending
  now : s'.ls.now = s.ls.now
  expired : s'.ls.expired = s.ls.expired
  leases : Leases cfg s s' id
  renewing : ∀ id', id' ≠ id → s.renewing id' = true → s'.renewing id' = true

theorem Timely.arms (h : Timely cfg s) (hdvd : liteExpiryScanPace ∣ liteTTL cfg)
    (harms : Arms cfg s s' id) : Timely cfg s' := by
  have hpace : s'.ls.expiryWheel.pace = s.ls.expiryWheel.pace := by
    rcases harms.wheel with hset | ⟨hsame, -⟩
    · rw [hset]
      rfl
    · rw [hsame]
  have hticks : ∀ t, s'.ls.expiryWheel.ticksLeft t = s.ls.expiryWheel.ticksLeft t := by
    intro t
    rcases harms.wheel with hset | ⟨hsame, -⟩
    · rw [hset]
      rfl
    · rw [hsame]
  refine ⟨hpace.trans h.pace, ?_, ?_, ?_⟩
  · intro id' a ha
    rw [harms.now]
    exact harms.leases.lease h ha
  · intro id' a ha hid
    rw [harms.now]
    rw [harms.expired] at hid
    exact harms.leases.expired h ha hid
  · intro id' a t ha ht hrenewing
    rw [harms.now, harms.tickPending, hpace, hticks]
    by_cases heq : id' = id
    · rw [heq] at ht
      rcases harms.wheel with hset | ⟨hsame, hnone⟩
      · have htrigger : t = s.ls.expiryWheel.trigger (liteTTL cfg) 1 := by
          rw [hset] at ht
          exact (Option.some.inj ((lookup_insert _).symm.trans ht)).symm
        rw [htrigger, harms.idle]
        exact (harms.leases.lease h ha).trans (lease_le_ticksLeft (h.pace ▸ hdvd) s.ls.now)
      · rw [hsame, hnone] at ht
        cases ht
    · have hold : s.ls.allocations.lookup id' = some a := by
        rcases harms.leases id' a ha with hold | ⟨hid, -⟩
        · exact hold
        · exact absurd hid heq
      have htask : s.ls.expiryWheel.record.lookup id' = some t := by
        rcases harms.wheel with hset | ⟨hsame, -⟩
        · rw [hset] at ht
          exact (lookup_insert_ne heq).symm.trans ht
        · rw [← hsame]
          exact ht
      refine h.ahead id' a t hold htask ?_
      by_contra hbefore
      rw [harms.renewing id' heq (eq_true_of_not_eq_false hbefore)] at hrenewing
      cases hrenewing

structure Renews (cfg : Config) (s s' : System) (id : String) : Prop where
  wheel : s'.ls.expiryWheel = s.ls.expiryWheel
  tickPending : s'.ls.tickPending = s.ls.tickPending
  now : s'.ls.now = s.ls.now
  expired : s'.ls.expired = s.ls.expired
  leases : Leases cfg s s' id
  owes : s'.renewing id = true
  renewing : ∀ id', s.renewing id' = true → s'.renewing id' = true

theorem Timely.renews (h : Timely cfg s) (hrenews : Renews cfg s s' id) : Timely cfg s' where
  pace := by
    rw [hrenews.wheel]
    exact h.pace
  lease id' a ha := by
    rw [hrenews.now]
    exact hrenews.leases.lease h ha
  expired id' a ha hid := by
    rw [hrenews.now]
    rw [hrenews.expired] at hid
    exact hrenews.leases.expired h ha hid
  ahead id' a t ha ht hrenewing := by
    rw [hrenews.now, hrenews.tickPending, hrenews.wheel]
    rw [hrenews.wheel] at ht
    rcases hrenews.leases id' a ha with hold | ⟨rfl, -⟩
    · refine h.ahead id' a t hold ht ?_
      by_contra hbefore
      rw [hrenews.renewing id' (eq_true_of_not_eq_false hbefore)] at hrenewing
      cases hrenewing
    · rw [hrenews.owes] at hrenewing
      cases hrenewing

theorem Timely.fired (h : Timely cfg s) (hpending : s.ls.tickPending = true)
    (ha : s.ls.allocations.lookup id = some a) (ht : s.ls.expiryWheel.record.lookup id = some t)
    (hdue : s.ls.expiryWheel.due t = true) (hrenewing : s.renewing id = false) : a.expireAt ≤ s.ls.now := by
  have hahead := h.ahead id a t ha ht hrenewing
  rw [s.ls.expiryWheel.ticksLeft_of_due hdue, hpending, if_pos rfl, add_mul, one_mul] at hahead
  exact (le_of_add_le_add_right hahead).trans (div_mul_le_self _ _)

theorem Timely.tick (h : Timely cfg s) (hpending : s.ls.tickPending = true)
    (horder : order.Perm s.ls.expiryWheel.fired)
    (hspared : ∀ id, id ∈ s.ls.expiryWheel.fired → s.renewing id = false) :
    Timely cfg { s with ls := { s.ls with
      expiryWheel := s.ls.expiryWheel.tick
      tickPending := false
      ready := if order = [] then s.ls.ready else s.ls.ready ++ [order] } } where
  pace := h.pace
  lease := h.lease
  expired id a ha hid := by
    have hmem : id ∈ s.ls.expired ∨ id ∈ order := by
      unfold LiteScheduler.expired at hid ⊢
      split_ifs at hid
      · exact .inl hid
      · simp only [flatten_append, flatten_cons, flatten_nil, append_nil, mem_append] at hid ⊢
        tauto
    rcases hmem with hold | hnew
    · exact h.expired id a ha hold
    have hfired := horder.mem_iff.mp hnew
    obtain ⟨t, ht, hdue⟩ := s.ls.expiryWheel.mem_fired.mp hfired
    exact h.fired hpending ha ht hdue (hspared id hfired)
  ahead id a t' ha ht' hrenewing := by
    obtain ⟨t, ht, rfl⟩ := s.ls.expiryWheel.lookup_tickRecord ht'
    have hbefore : s.renewing id = false := hrenewing
    generalize hleft : s.ls.expiryWheel.tick.ticksLeft (s.ls.expiryWheel.visit t) = left
    have hpos : 0 < left := by
      rw [← hleft]
      exact SimpleTimeWheel.ticksLeft_pos _ _
    cases hdue : s.ls.expiryWheel.due t with
    | true =>
      have hnow := lt_div_mul_add (a := s.ls.now) s.ls.expiryWheel.pace_pos
      calc
        a.expireAt ≤ s.ls.now := h.fired hpending ha ht hdue hbefore
        _ ≤ s.ls.now / s.ls.expiryWheel.pace * s.ls.expiryWheel.pace + s.ls.expiryWheel.pace :=
          hnow.le
        _ = (s.ls.now / s.ls.expiryWheel.pace + 1) * s.ls.expiryWheel.pace := by
          rw [add_mul, one_mul]
        _ ≤ (s.ls.now / s.ls.expiryWheel.pace + left) * s.ls.expiryWheel.pace :=
          Nat.mul_le_mul_right _ (Nat.add_le_add_left hpos _)
    | false =>
      have hahead := h.ahead id a t ha ht hbefore
      have hticks := (s.ls.expiryWheel.ticksLeft_of_not_due (s.ls.expiryWheel.index_lt id t ht) hdue).1
      rw [hleft] at hticks
      rw [hpending, if_pos rfl] at hahead
      have hmul := hahead.trans
        (Nat.mul_le_mul_right _ (Nat.add_le_add_left hticks (s.ls.now / s.ls.expiryWheel.pace)))
      rw [← add_assoc, add_mul _ 1, one_mul] at hmul
      exact le_of_add_le_add_right hmul

theorem Timely.elapse (h : Timely cfg s) (d : Nat) : Timely cfg { s with ls := s.ls.elapse d } where
  pace := h.pace
  lease id a ha := (h.lease id a ha).trans (Nat.add_le_add_left (Nat.le_add_right _ _) _)
  expired id a ha hid := (h.expired id a ha hid).trans (le_add_right _ _)
  ahead id a t ha ht hrenewing := by
    have hahead := h.ahead id a t ha ht hrenewing
    change a.expireAt + (if (s.ls.tickPending || decide (s.ls.now / s.ls.expiryWheel.pace <
        (s.ls.now + d) / s.ls.expiryWheel.pace)) then s.ls.expiryWheel.pace else 0) ≤
      ((s.ls.now + d) / s.ls.expiryWheel.pace + s.ls.expiryWheel.ticksLeft t) * s.ls.expiryWheel.pace
    generalize s.ls.expiryWheel.ticksLeft t = left at hahead ⊢
    by_cases hticks : s.ls.now / s.ls.expiryWheel.pace < (s.ls.now + d) / s.ls.expiryWheel.pace
    · have hbefore := (le_add_right _ _).trans hahead
      rw [decide_eq_true hticks, Bool.or_true, if_pos rfl]
      calc
        a.expireAt + s.ls.expiryWheel.pace ≤
            (s.ls.now / s.ls.expiryWheel.pace + left) * s.ls.expiryWheel.pace +
              s.ls.expiryWheel.pace := Nat.add_le_add_right hbefore _
        _ = (s.ls.now / s.ls.expiryWheel.pace + 1 + left) * s.ls.expiryWheel.pace := by
          rw [add_right_comm, add_mul _ 1, one_mul]
        _ ≤ _ := Nat.mul_le_mul_right _ (Nat.add_le_add_right hticks _)
    · rw [decide_eq_false hticks, Bool.or_false]
      refine hahead.trans (Nat.mul_le_mul_right _ (Nat.add_le_add_right ?_ _))
      exact Nat.div_le_div_right (Nat.le_add_right _ _)

end Views

/-! ### Steps and runs -/

section Steps

variable {cfg : Config} {s : System}

theorem renewing_stays (hrenews : (s.threads.lookup tid).bind Pc.renews = o.next.bind Pc.renews ∨
      (s.threads.lookup tid).bind Pc.renews = none) (id : String) :
    s.renewing id = true → (s.finish tid o).1.renewing id = true := by
  apply System.renewing_finish
  intro hid
  rcases hrenews with hsame | hnone
  · rw [← hsame]
    exact hid
  · rw [hnone] at hid
    cases hid

variable {a : Allocation}

theorem Pc.renews_of_token {pc : Pc} (htoken : pc.token = some a) : pc.renews = none := by
  cases pc <;> first | rfl | cases htoken

theorem leases_insert (hallocs : ls.allocations = s.ls.allocations.insert id a)
    (hexpire : a.expireAt = liteTTL cfg + s.ls.now) (hfresh : id ∉ s.ls.expired) :
    Leases cfg s { ls, threads } id := by
  intro id' a' ha'
  rw [hallocs] at ha'
  rcases lookup_of_insert ha' with ⟨hid, rfl⟩ | hold
  · exact .inr ⟨hid, hexpire, hfresh⟩
  · exact .inl hold

variable {e : Event} {r : System × Label}

theorem issues_of_renewsInTime (he : e = .run tid choice)
    (hpc : s.threads.lookup tid = some (.sticky req) ∨ s.threads.lookup tid = some (.dispatch req) ∨
      ∃ deadline, s.threads.lookup tid = some (.poll req deadline))
    (hok : renewsInTime cfg s e = true) :
    s.ls.tickPending = false ∧ ∀ id, id ∈ s.issuable cfg req → id ∉ s.ls.expired ∧
      s.ls.expiryWheel.record.lookup id = none := by
  have hcond : (!s.ls.tickPending && (s.issuable cfg req).all fun allocID =>
      !s.ls.expired.contains allocID && (s.ls.expiryWheel.record.lookup allocID).isNone) = true := by
    rw [he] at hok
    unfold renewsInTime at hok
    rcases hpc with hpc | hpc | ⟨deadline, hpc⟩ <;> simpa only [hpc] using hok
  simpa [all_eq_true] using hcond

theorem arms_assign (hpending : s.ls.tickPending = false)
    (hissues : ∀ id, id ∈ s.issuable cfg req → id ∉ s.ls.expired ∧ s.ls.expiryWheel.record.lookup id = none)
    (hpc : (s.threads.lookup tid).bind Pc.renews = none) (hpool : s.ls.getPool req.funcKey = some pool)
    (hseq : pool'.seqCounter = pool.seqCounter) (hslot : pool.instances.lookup slot.instanceID = some slot') :
    Arms cfg s (s.finish tid (assignInstance cfg s.ls pool' req slot sticky)).1
      (assignedAlloc cfg s.ls pool' req slot).allocationID := by
  have hnext : nextSeq pool' = nextSeq pool := by rw [nextSeq, hseq, nextSeq]
  have hmem : (assignedAlloc cfg s.ls pool' req slot).allocationID ∈ s.issuable cfg req := by
    rw [System.issuable, hpool]
    exact mem_map.mpr ⟨slot.instanceID, mem_keys_iff.mpr ⟨slot', hslot⟩, by rw [← hnext]; rfl⟩
  obtain ⟨hfresh, hnone⟩ := hissues _ hmem
  refine ⟨?_, hpending, setWheel_tickPending _ _, setWheel_now _ _, setWheel_expired _ _, ?_, ?_⟩
  · exact armed_registerExpiryTask
      { s.ls.setPool req.funcKey (assignedPool pool' req slot sticky) with
        allocations := s.ls.allocations.insert (assignedAlloc cfg s.ls pool' req slot).allocationID
          (assignedAlloc cfg s.ls pool' req slot) } hnone
  · exact leases_insert (assignInstance_allocations ..) rfl hfresh
  · exact fun id' _ => renewing_stays (.inr hpc) id'

theorem notMem_expired_of_renewsInTime
    (hpc : (∃ slot, s.threads.lookup tid = some (.refresh id slot)) ∨
      ∃ params : ReacquireParams, params.allocID = id ∧ s.threads.lookup tid = some (.reacquire params))
    (hok : renewsInTime cfg s (.run tid choice) = true) : id ∉ s.ls.expired := by
  unfold renewsInTime at hok
  rcases hpc with ⟨slot, hpc⟩ | ⟨params, rfl, hpc⟩
  all_goals simpa [hpc] using hok

theorem Timely.step (hwf : s.WellFormed) (h : Timely cfg s) (hdvd : liteExpiryScanPace ∣ liteTTL cfg)
    (hok : renewsInTime cfg s e = true) (heffect : Effect cfg s e r) : Timely cfg r.1 := by
  have hkeep : ∀ id (a : Allocation), s.ls.allocations.lookup id = some a →
      s.ls.allocations.lookup id = some a := fun _ _ ha => ha
  have hstay : ∀ id, id ∈ s.ls.expired → id ∈ s.ls.expired := fun _ hid => hid
  have hnext : ∀ {allocID rest}, s.ls.batch = allocID :: rest →
      ∀ id, id ∈ { s.ls with batch := rest }.expired → id ∈ s.ls.expired := by
    intro allocID rest hbatch id hid
    unfold LiteScheduler.expired at hid ⊢
    rw [hbatch]
    exact mem_append.mpr ((mem_append.mp hid).imp_right (mem_cons_of_mem _))
  have hwheel := Sheds.refl s.ls.expiryWheel
  cases heffect with
  | @move _ tid o hls _ _ _ hrenews _ | @cursor _ tid o f pool d hpool hls _ _ _ hrenews _ =>
    apply h.lapses
    obtain ⟨ls, next, granted, reply⟩ := o
    cases hls
    exact ⟨hwheel, rfl, rfl, hstay, hkeep, renewing_stays (.inl hrenews.symm)⟩
  | @stickyGrant _ _ req pool slot b hpc hpool _ hslot =>
    have hid : slot.instanceID = b.instanceID := (hwf.pool _ _ hpool).instanceID _ _ hslot
    obtain ⟨hpending, hissues⟩ := issues_of_renewsInTime rfl (hpc.imp_right .inl) hok
    refine h.arms hdvd (arms_assign hpending hissues ?_ hpool
      (kept_cancelSessionUnbind pool req.bindingKey).seqCounter (hid ▸ hslot))
    rcases hpc with hpc | hpc <;> rw [hpc] <;> rfl
  | @freshGrant _ _ _ _ _ _ hpc hpool hslot =>
    obtain ⟨hpending, hissues⟩ := issues_of_renewsInTime rfl (.inr (hpc.imp_left And.left)) hok
    refine h.arms hdvd (arms_assign hpending hissues ?_ hpool rfl hslot)
    rcases hpc with ⟨hpc, -⟩ | ⟨deadline, hpc⟩ <;> rw [hpc] <;> rfl
  | release hfree =>
    apply h.lapses
    refine ⟨hwheel, rfl, rfl, hstay, fun _ _ ha => lookup_of_erase ha, renewing_stays (.inr ?_)⟩
    rw [hfree]
    rfl
  | removeTask hpc | dropTask hpc =>
    apply h.lapses
    refine ⟨Sheds.delTask _ _, rfl, rfl, hstay, hkeep, renewing_stays (.inr ?_)⟩
    rw [hpc]
    rfl
  | returned hpc htoken =>
    apply h.lapses
    refine ⟨hwheel, rfl, rfl, hstay, hkeep, renewing_stays (.inr ?_)⟩
    rw [hpc]
    exact Pc.renews_of_token htoken
  | startTimer hpc =>
    apply h.lapses
    refine ⟨hwheel, rfl, rfl, hstay, hkeep, renewing_stays (.inr ?_)⟩
    rw [hpc]
    rfl
  | dropAlloc hpc =>
    apply h.lapses
    refine ⟨hwheel, rfl, rfl, hstay, fun _ _ ha => lookup_of_erase ha, renewing_stays (.inr ?_)⟩
    rw [hpc]
    rfl
  | refresh hpc =>
    have hfresh := notMem_expired_of_renewsInTime hpc hok
    refine h.renews ⟨rfl, rfl, rfl, rfl, leases_insert rfl rfl hfresh, System.renewing_of_next rfl,
      renewing_stays (.inr ?_)⟩
    rcases hpc with ⟨slot, hpc⟩ | ⟨params, -, hpc⟩ <;> rw [hpc] <;> rfl
  | reacquireGrant hpc =>
    have hfresh := notMem_expired_of_renewsInTime (.inr ⟨_, rfl, hpc⟩) hok
    refine h.renews ⟨rfl, rfl, rfl, rfl, leases_insert rfl rfl hfresh, System.renewing_of_next rfl,
      renewing_stays (.inr ?_)⟩
    rw [hpc]
    rfl
  | @updateTask tid _ allocID reply hpc =>
    have hpending : s.ls.tickPending = false := by
      unfold renewsInTime at hok
      simpa [hpc] using hok
    have harms : Arms cfg s (s.finish tid (.answer (updateExpiryTask cfg s.ls allocID) reply)).1 allocID := by
      refine ⟨armed_updateExpiryTask s.ls allocID, hpending, setWheel_tickPending _ _,
        setWheel_now _ _, setWheel_expired _ _, ?_, ?_⟩
      · intro id a ha
        exact .inl ((setWheel_allocations s.ls _) ▸ ha)
      intro id hne
      apply System.renewing_finish
      rw [hpc]
      intro hid
      exact absurd (Option.some.inj hid).symm hne
    exact h.arms hdvd harms
  | tick hpending horder =>
    refine h.tick hpending horder ?_
    intro id hid
    have hall := all_eq_true.mp hok id hid
    simpa using hall
  | wait hbatch hready =>
    apply h.lapses
    refine ⟨hwheel, rfl, rfl, ?_, hkeep, fun _ hid => hid⟩
    intro id hid
    unfold LiteScheduler.expired at hid ⊢
    rw [hbatch, hready]
    simp only [mem_append, flatten_cons, append_nil] at hid ⊢
    exact hid.symm
  | reapNone hbatch => exact h.lapses ⟨hwheel, rfl, rfl, hnext hbatch, hkeep, fun _ hid => hid⟩
  | @reap allocID rest alloc hidle hbatch =>
    have hlapses : Lapses s (s.finish reaperTid
        { ls := { s.ls with batch := rest, allocations := s.ls.allocations.erase allocID }
          next := some (.reapSlot alloc) }).1 := by
      refine ⟨hwheel, rfl, rfl, hnext hbatch, fun _ _ ha => lookup_of_erase ha, renewing_stays (.inr ?_)⟩
      rw [hidle]
      rfl
    exact h.lapses hlapses
  | fire hpool htimer | upsert hpool hstatus =>
    exact h.lapses ⟨hwheel, rfl, rfl, hstay, hkeep, fun _ hid => hid⟩
  | remove =>
    apply h.lapses
    refine ⟨Sheds.foldl _ _, rfl, rfl, hstay, ?_, fun _ hid => hid⟩
    intro id a ha
    change ((s.ls.allocations.filter _).lookup id) = some a at ha
    rw [lookup_filter] at ha
    exact (Option.filter_eq_some_iff.mp ha).1
  | quiet hpool hquiet | report => exact h.lapses ⟨hwheel, rfl, rfl, hstay, hkeep, fun _ hid => hid⟩
  | elapse => exact h.elapse _

theorem Effect.reaped (heffect : Effect cfg s e r) (hreaped : r.2.reaped = some a) :
    ∃ allocID rest, s.ls.batch = allocID :: rest ∧
      s.ls.allocations.lookup allocID = some a := by
  cases heffect with
  | reap _ hbatch halloc =>
    cases hreaped
    exact ⟨_, _, hbatch, halloc⟩
  | _ => cases hreaped

theorem timely_of_reach (hdvd : liteExpiryScanPace ∣ liteTTL cfg)
    (hreach : (scheduler cfg).Reach (fun s e => renewsInTime cfg s e = true) s) : Timely cfg s := by
  refine hreach.invariant ?_ ?_
  · intro s hinit
    have hnone : ∀ id (a : Allocation), s.ls.allocations.lookup id ≠ some a := by
      intro id a ha
      rw [hinit.allocations] at ha
      cases ha
    refine ⟨?_, fun id a ha => absurd ha (hnone id a), fun id a ha => absurd ha (hnone id a),
      fun id a _ ha => absurd ha (hnone id a)⟩
    rw [hinit.expiryWheel]
    rfl
  · intro s e s' l hreach hok htimely hstep
    have hwf := wellFormed_of_reach hreach
    exact htimely.step hwf hdvd hok (step_effect hwf hstep)

end Steps

/-- **Only expired leases are reaped** in a run that renews every lease in time. -/
theorem reaped_lease_expired (cfg : Config) (hdvd : liteExpiryScanPace ∣ liteTTL cfg)
    (s s' : System) (e : Event) (l : Label) (a : Allocation)
    (hreach : (scheduler cfg).Reach (fun s e => renewsInTime cfg s e = true) s)
    (hstep : s.step cfg e = some (s', l)) (hreaped : l.reaped = some a) :
    a.expireAt ≤ s.ls.now := by
  have hwf := wellFormed_of_reach hreach
  have htimely := timely_of_reach hdvd hreach
  obtain ⟨allocID, rest, hbatch, halloc⟩ := (step_effect hwf hstep).reaped hreaped
  refine htimely.expired allocID a halloc ?_
  unfold expired
  rw [hbatch]
  simp

def shortLeases : Config :=
  { plainConfig with leaseSpan := 0 }

def leaseRunsOut : List Event :=
  [.instanceUpdate "t/f/1" (plainInstance "i" 4), .acquire 1 (plainRequest "s"), .run 1 {},
    .run 1 { order := ["i"] }] ++
  (List.replicate 100 [Event.elapse liteExpiryScanPace, .tick []]).flatten ++
  [.elapse liteExpiryScanPace, .tick ["lite:s:i:thread:1"]]

theorem reaped_lease_expired_unrenewed : ∃ s s' l a,
    (scheduler shortLeases).Reach (fun s e => renewsInTime shortLeases s e = true) s ∧
      s.step shortLeases .reap = some (s', l) ∧ l.reaped = some a ∧ a.expireAt ≤ s.ls.now := by
  obtain ⟨s, hreach, s', l, hstep, hsome⟩ := reach_of_run shortLeases (renewsInTime shortLeases)
    [("t/f/1", plainSpec)] (leaseRunsOut ++ [.wait])
    (fun s => ∃ s' l, s.step shortLeases .reap = some (s', l) ∧ l.reaped.isSome) (by decide +kernel)
  obtain ⟨a, hreaped⟩ := Option.isSome_iff_exists.mp hsome
  exact ⟨s, s', l, a, hreach, hstep, hreaped,
    reaped_lease_expired shortLeases (by decide) s s' _ l a hreach hstep hreaped⟩

/-- A retain succeeds while the ID is on its way to the reaper, which deletes the lease. -/
theorem renewed_lease_reaped : ∃ s s' l a, (scheduler shortLeases).Reachable s ∧
    s.step shortLeases .reap = some (s', l) ∧ l.reaped = some a ∧ ¬a.expireAt ≤ s.ls.now := by
  obtain ⟨s, hreach, s', l, hstep, a, hreaped, hlater⟩ := reachable_of_run shortLeases [("t/f/1", plainSpec)]
    (leaseRunsOut ++ [.retain 2 "lite:s:i:thread:1" none none, .run 2 {}, .run 2 {}, .run 2 {}, .wait])
    (fun s => ∃ s' l, s.step shortLeases .reap = some (s', l) ∧ ∃ a, l.reaped = some a ∧
      ¬a.expireAt ≤ s.ls.now) (by decide +kernel)
  exact ⟨s, s', l, a, hreach, hstep, hreaped, hlater⟩

end Yuanrong.Lite
