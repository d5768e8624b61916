import Mathlib.Data.List.Nodup
import Mathlib.Data.List.Perm.Subperm
import Yuanrong.Libruntime.BatchRenew

/-!
# Which runs of the batch renewal end, and what they renew

A lease of a session that is on another ring now is never passed by the iterator. Without such a
lease every round takes one lease off the rest, and at the end each lease with an instance is in one
batch.
-/

namespace Yuanrong.Libruntime.BatchRenew

open List Batches Function Prod

variable {ρ : Type} {m : Manager ρ}

variable {c : Cursor ρ} {lease : String × ρ}

theorem intercalate_append_singleton (hne : names ≠ []) (name : String) :
    ",".intercalate (names ++ [name]) = ",".intercalate names ++ "," ++ name := by
  induction names with
  | nil => exact absurd rfl hne
  | cons _ names ih =>
    by_cases hnames : names = []
    · subst hnames
      rfl
    have hmore : names ++ [name] ≠ [] := append_ne_nil_of_left_ne_nil hnames _
    rw [cons_append, String.intercalate_cons_of_ne_nil hmore, ih hnames,
      String.intercalate_cons_of_ne_nil hnames]
    simp only [String.append_assoc]

theorem intercalate_ne_empty (hne : names ≠ []) (hnames : ∀ n ∈ names, n ≠ "") :
    ",".intercalate names ≠ "" := by
  obtain ⟨first, names, rfl⟩ := exists_cons_of_ne_nil hne
  by_cases hrest : names = []
  · subst hrest
    exact hnames first mem_cons_self
  rw [String.intercalate_cons_of_ne_nil hrest]
  intro hempty
  exact hnames first mem_cons_self (String.append_eq_empty_iff.mp (String.append_eq_empty_iff.mp hempty).1).1

/-- What holds of the maps between two rounds; `ids` are the leases that were put into batches. -/
structure Batches.WellFormed (batches : Batches ρ) (ids : List String) : Prop where
  nodup_targets : batches.targets.Nodup
  mem_targets : ∀ key, key ∈ batches.targets ↔ batches.leaseIds key ≠ []
  length_le : ∀ key, (batches.leaseIds key).length ≤ batchRenewLeaseNum
  reports_fst : ∀ key, (batches.reports key).map Prod.fst = batches.leaseIds key
  nodup_leaseIds : ∀ key, (batches.leaseIds key).Nodup
  mem_ids : ∀ key, ∀ leaseId ∈ batches.leaseIds key, leaseId ∈ ids
  key_unique : ∀ key key' leaseId, leaseId ∈ batches.leaseIds key →
    leaseId ∈ batches.leaseIds key' → key = key'
  -- An empty name is taken for the absence of names, so the text is only right without one.
  names : (∀ leaseId ∈ ids, leaseId ≠ "") →
    ∀ key, batches.targetNames key = ",".intercalate (batches.leaseIds key)

theorem Batches.wellFormed_empty : (empty : Batches ρ).WellFormed [] where
  nodup_targets := nodup_nil
  mem_targets key := by simp [empty]
  length_le key := Nat.zero_le _
  reports_fst key := rfl
  nodup_leaseIds key := nodup_nil
  mem_ids key leaseId h := h
  key_unique key key' leaseId h := absurd h not_mem_nil
  names _ _ := rfl

namespace Batches

variable {batches : Batches ρ} {key : FaasInfoForBatchRenew} {leaseId : String}
  {report : InstanceReport ρ}

theorem leaseIds_add_self :
    (batches.add key leaseId report).leaseIds key = batches.leaseIds key ++ [leaseId] := by
  simp [add]

theorem leaseIds_add_of_ne (hne : key' ≠ key) :
    (batches.add key leaseId report).leaseIds key' = batches.leaseIds key' := by
  simp [add, hne]

theorem mem_leaseIds_add {id : String} : id ∈ (batches.add key leaseId report).leaseIds key' ↔
      id ∈ batches.leaseIds key' ∨ (key' = key ∧ id = leaseId) := by
  by_cases hkey : key' = key
  · subst hkey
    simp [leaseIds_add_self]
  · simp [leaseIds_add_of_ne hkey, hkey]

theorem WellFormed.add (hwf : batches.WellFormed ids) (hnew : leaseId ∉ ids)
    (hroom : (batches.leaseIds key).length < batchRenewLeaseNum) :
    (batches.add key leaseId report).WellFormed (ids ++ [leaseId]) := by
  have hfresh (key' : FaasInfoForBatchRenew) : leaseId ∉ batches.leaseIds key' :=
    fun h => hnew (hwf.mem_ids key' leaseId h)
  refine ⟨?_, ?_, ?_, ?_, ?_, ?_, ?_, ?_⟩
  · by_cases hmem : key ∈ batches.targets
    · simpa [Batches.add, hmem] using hwf.nodup_targets
    simp only [Batches.add, if_neg hmem]
    rw [← concat_eq_append, nodup_concat]
    exact ⟨hmem, hwf.nodup_targets⟩
  · intro key'
    have htargets : key' ∈ (batches.add key leaseId report).targets ↔
        key' ∈ batches.targets ∨ key' = key := by
      by_cases hmem : key ∈ batches.targets
      · simp only [Batches.add, if_pos hmem]
        exact ⟨.inl, fun h => h.elim (fun h => h) fun h => h ▸ hmem⟩
      · simp [Batches.add, if_neg hmem]
    rw [htargets, hwf.mem_targets]
    by_cases hkey : key' = key
    · subst hkey
      simp [leaseIds_add_self]
    · simp [leaseIds_add_of_ne hkey, hkey]
  · intro key'
    by_cases hkey : key' = key
    · subst hkey
      rw [leaseIds_add_self, length_append, length_singleton]
      exact hroom
    · rw [leaseIds_add_of_ne hkey]
      exact hwf.length_le key'
  · intro key'
    have hreports := hwf.reports_fst key'
    by_cases hkey : key' = key
    · subst hkey
      simp [add, hreports]
    · simpa [Batches.add, hkey] using hreports
  · intro key'
    by_cases hkey : key' = key
    · subst hkey
      rw [leaseIds_add_self, ← concat_eq_append, nodup_concat]
      exact ⟨hfresh key', hwf.nodup_leaseIds key'⟩
    · rw [leaseIds_add_of_ne hkey]
      exact hwf.nodup_leaseIds key'
  · intro key' id hid
    rcases mem_leaseIds_add.mp hid with hid | ⟨-, rfl⟩
    · exact mem_append_left _ (hwf.mem_ids key' id hid)
    · simp
  · intro key₁ key₂ id h₁ h₂
    rcases mem_leaseIds_add.mp h₁ with hold₁ | ⟨hkey₁, hid₁⟩
    · rcases mem_leaseIds_add.mp h₂ with hold₂ | ⟨-, hid₂⟩
      · exact hwf.key_unique key₁ key₂ id hold₁ hold₂
      · exact absurd (hid₂ ▸ hold₁) (hfresh key₁)
    · rcases mem_leaseIds_add.mp h₂ with hold₂ | ⟨hkey₂, -⟩
      · exact absurd (hid₁ ▸ hold₂) (hfresh key₂)
      · rw [hkey₁, hkey₂]
  · intro hids key'
    have hold := hwf.names (fun id hid => hids id (mem_append_left _ hid)) key'
    by_cases hkey : key' = key
    · subst hkey
      simp only [add, update_self, hold]
      by_cases hnil : batches.leaseIds key' = []
      · rw [hnil]
        rfl
      have hnames : ∀ n ∈ batches.leaseIds key', n ≠ "" :=
        fun n hn => hids n (mem_append_left _ (hwf.mem_ids key' n hn))
      rw [if_neg (intercalate_ne_empty hnil hnames), intercalate_append_singleton hnil]
    · rw [leaseIds_add_of_ne hkey]
      simpa [Batches.add, hkey] using hold

/-- Different indices are different full batches, so the inner loop meets a batch with room in one
round. -/
theorem WellFormed.freeIndex_isSome (hwf : batches.WellFormed ids) (faasInfo : FaasAllocationInfo) :
    ∃ i, freeIndex batches faasInfo (batches.targets.length + 1) 0 = some i ∧
      (batches.leaseIds (faasInfo.forBatchRenew i)).length < batchRenewLeaseNum := by
  have hsearch : ∀ fuel i, (∃ j, freeIndex batches faasInfo fuel i = some j ∧
      (batches.leaseIds (faasInfo.forBatchRenew j)).length < batchRenewLeaseNum) ∨
      ∀ k < fuel, (batches.leaseIds (faasInfo.forBatchRenew (i + k))).length ≥ batchRenewLeaseNum := by
    intro fuel
    induction fuel with
    | zero => exact fun i => .inr fun k hk => absurd hk (Nat.not_lt_zero k)
    | succ _ ih =>
      intro i
      by_cases hfull : (batches.leaseIds (faasInfo.forBatchRenew i)).length ≥ batchRenewLeaseNum
      · rw [freeIndex, if_pos hfull]
        rcases ih (i + 1) with hfound | hall
        · exact .inl hfound
        refine .inr fun k hk => ?_
        cases k with
        | zero => exact hfull
        | succ k =>
          rw [Nat.add_comm k 1, ← Nat.add_assoc]
          exact hall k (by omega)
      · rw [freeIndex, if_neg hfull]
        exact .inl ⟨i, rfl, Nat.lt_of_not_le hfull⟩
  rcases hsearch (batches.targets.length + 1) 0 with hfound | hall
  · exact hfound
  exfalso
  have hsubset : (List.range (batches.targets.length + 1)).map faasInfo.forBatchRenew ⊆ batches.targets := by
    intro key hkey
    obtain ⟨k, hk, rfl⟩ := mem_map.mp hkey
    have hfull := hall k (mem_range.mp hk)
    rw [Nat.zero_add] at hfull
    rw [hwf.mem_targets]
    intro hnil
    rw [hnil] at hfull
    exact absurd hfull (by decide)
  have hnodup := (nodup_range (n := batches.targets.length + 1)).map
    (f := faasInfo.forBatchRenew) fun i j h => congrArg FaasInfoForBatchRenew.batchIndex h
  have hle := (subperm_of_subset hnodup hsubset).length_le
  rw [length_map, length_range] at hle
  omega

end Batches

def Manager.due (m : Manager ρ) (lease : String × ρ) : Prop :=
  ∃ info, m.getInstanceInfo lease.2 lease.1 = some info ∧
    m.otherRing lease.2 info.faasInfo.ringName = false

def Manager.stuck (m : Manager ρ) (lease : String × ρ) : Prop :=
  ∃ info, m.getInstanceInfo lease.2 lease.1 = some info ∧
    m.otherRing lease.2 info.faasInfo.ringName = true

/-- The lease is in a batch for the scheduler that its instance records. -/
def Manager.Placed (m : Manager ρ) (batches : Batches ρ) (lease : String × ρ) : Prop :=
  ∃ info i, m.getInstanceInfo lease.2 lease.1 = some info ∧
    lease.1 ∈ batches.leaseIds (info.faasInfo.forBatchRenew i)

structure Manager.Inv (m : Manager ρ) (c : Cursor ρ) : Prop where
  wellFormed : c.batches.WellFormed (c.kept.map Prod.fst)
  sublist : (c.kept ++ c.rest).Sublist m.globalLeases
  placed : ∀ lease ∈ c.kept, m.Placed c.batches lease
  seen : ∀ lease ∈ m.globalLeases, m.due lease → lease ∈ c.kept ∨ lease ∈ c.rest

theorem Manager.round_cons (hinv : m.Inv c) (hrest : c.rest = lease :: rest) :
    (m.getInstanceInfo lease.2 lease.1 = none ∧ m.round c = { c with rest }) ∨
    (m.stuck lease ∧ m.round c = c) ∨
    (¬ m.stuck lease ∧ ∃ info i, m.getInstanceInfo lease.2 lease.1 = some info ∧
      (c.batches.leaseIds (info.faasInfo.forBatchRenew i)).length < batchRenewLeaseNum ∧
      m.round c = Cursor.mk (c.kept ++ [lease]) rest
        (c.batches.add (info.faasInfo.forBatchRenew i) lease.1 (instanceReport lease.2 info))) := by
  obtain ⟨leaseId, resource⟩ := lease
  unfold Manager.round
  rw [hrest]
  cases hinfo : m.getInstanceInfo resource leaseId with
  | none => exact .inl ⟨rfl, by simp only [hinfo]⟩
  | some info =>
    obtain ⟨i, hi, hroom⟩ := hinv.wellFormed.freeIndex_isSome info.faasInfo
    cases hring : m.otherRing resource info.faasInfo.ringName with
    | true =>
      refine .inr (.inl ⟨⟨info, hinfo, hring⟩, ?_⟩)
      simp [hinfo, hi, hring]
    | false =>
      refine .inr (.inr ⟨?_, info, i, rfl, hroom, ?_⟩)
      · rintro ⟨info', hinfo', hring'⟩
        rw [hinfo] at hinfo'
        cases hinfo'
        exact Bool.false_ne_true (hring.symm.trans hring')
      · simp [hinfo, hi, hring]

theorem Manager.round_nil (hrest : c.rest = []) : m.round c = c := by
  unfold Manager.round
  rw [hrest]

theorem Manager.Inv.round (hinv : m.Inv c) : m.Inv (m.round c) := by
  cases hrest : c.rest with
  | nil => rwa [round_nil hrest]
  | cons lease rest =>
    have hsublist := hinv.sublist
    rw [hrest] at hsublist
    rcases round_cons hinv hrest with
      ⟨hnone, hround⟩ | ⟨-, hround⟩ | ⟨-, info, i, hinfo, hroom, hround⟩
    · rw [hround]
      refine { hinv with sublist := ?_, seen := ?_ }
      · exact ((sublist_cons_self lease rest).append_left c.kept).trans hsublist
      intro lease' hmem hdue
      rcases hinv.seen lease' hmem hdue with h | h
      · exact .inl h
      rw [hrest] at h
      rcases mem_cons.mp h with rfl | h
      · obtain ⟨info, hinfo, -⟩ := hdue
        rw [hnone] at hinfo
        cases hinfo
      · exact .inr h
    · rwa [hround]
    · rw [hround]
      have hnew : lease.1 ∉ c.kept.map fst := by
        intro h
        have hnodup := m.nodup_globalLeases.sublist (hsublist.map fst)
        rw [map_append, map_cons] at hnodup
        exact (nodup_append.mp hnodup).2.2 _ h _ mem_cons_self rfl
      refine ⟨?_, ?_, ?_, ?_⟩
      · simpa using hinv.wellFormed.add hnew hroom
      · simpa using hsublist
      · intro lease' hmem
        rcases mem_append.mp hmem with hmem | hmem
        · obtain ⟨info', j, hinfo', hj⟩ := hinv.placed lease' hmem
          exact ⟨info', j, hinfo', mem_leaseIds_add.mpr (.inl hj)⟩
        · obtain rfl := mem_singleton.mp hmem
          exact ⟨info, i, hinfo, mem_leaseIds_add.mpr (.inr ⟨rfl, rfl⟩)⟩
      · intro lease' hmem hdue
        rcases hinv.seen lease' hmem hdue with h | h
        · exact .inl (mem_append_left _ h)
        rw [hrest] at h
        rcases mem_cons.mp h with rfl | h
        · exact .inl (by simp)
        · exact .inr h

theorem Manager.rounds_succ (m : Manager ρ) (n : Nat) : m.rounds (n + 1) = m.round (m.rounds n) :=
  iterate_succ_apply' _ _ _

theorem Manager.inv_rounds (m : Manager ρ) (n : Nat) : m.Inv (m.rounds n) := by
  induction n with
  | zero =>
    refine ⟨wellFormed_empty, List.Sublist.refl _, ?_, fun _ hmem _ => .inr hmem⟩
    exact fun _ h => absurd h not_mem_nil
  | succ _ ih =>
    rw [m.rounds_succ]
    exact ih.round

theorem Manager.stuck_mem_rest (hmem : lease ∈ m.globalLeases) (hstuck : m.stuck lease) (n : Nat) :
    lease ∈ (m.rounds n).rest := by
  induction n with
  | zero => exact hmem
  | succ n ih =>
    rw [m.rounds_succ]
    obtain ⟨head, rest, hrest⟩ := exists_cons_of_ne_nil (ne_nil_of_mem ih)
    have hinv := m.inv_rounds n
    have htail (hne : lease ≠ head) : lease ∈ rest := by
      rw [hrest] at ih
      exact (mem_cons.mp ih).resolve_left hne
    rcases round_cons hinv hrest with ⟨hnone, hround⟩ | ⟨-, hround⟩ | ⟨hnot, _, _, -, -, hround⟩
    · rw [hround]
      apply htail
      rintro rfl
      obtain ⟨info, hinfo, -⟩ := hstuck
      rw [hinfo] at hnone
      cases hnone
    · rwa [hround]
    · rw [hround]
      exact htail fun heq => hnot (heq ▸ hstuck)

theorem Manager.rest_eq_drop (hfree : ∀ lease ∈ m.globalLeases, ¬ m.stuck lease) (n : Nat) :
    (m.rounds n).rest = m.globalLeases.drop n := by
  induction n with
  | zero => rfl
  | succ n ih =>
    rw [m.rounds_succ]
    have hinv := m.inv_rounds n
    cases hrest : (m.rounds n).rest with
    | nil =>
      rw [round_nil hrest, hrest, ← drop_drop, ← ih, hrest]
      rfl
    | cons lease rest =>
      have htail : rest = m.globalLeases.drop (n + 1) := by
        rw [← drop_drop, ← ih, hrest]
        rfl
      have hmem : lease ∈ m.globalLeases := by
        apply mem_of_mem_drop
        rw [← ih, hrest]
        exact mem_cons_self
      rcases round_cons hinv hrest with ⟨-, hround⟩ | ⟨hstuck, -⟩ | ⟨-, _, _, -, -, hround⟩
      · rw [hround]
        exact htail
      · exact absurd hstuck (hfree lease hmem)
      · rw [hround]
        exact htail

/-- What a run of the handler should have sent. -/
structure Manager.Covers (m : Manager ρ) (requests : List (BatchRetain ρ)) : Prop where
  bounded : ∀ request ∈ requests, request.leaseIds.length ≤ batchRenewLeaseNum
  reported : ∀ request ∈ requests, request.reports.map Prod.fst = request.leaseIds
  named : (∀ lease ∈ m.globalLeases, lease.1 ≠ "") → ∀ request ∈ requests,
    request.acquireOps = "batchRetain#" ++ ",".intercalate request.leaseIds
  once : ∀ lease ∈ m.globalLeases, m.due lease →
    requests.countP (fun request => decide (lease.1 ∈ request.leaseIds)) = 1 ∧
    ∀ request ∈ requests, lease.1 ∈ request.leaseIds → request.leaseIds.count lease.1 = 1 ∧
      ∃ info, m.getInstanceInfo lease.2 lease.1 = some info ∧
        request.instanceId = info.faasInfo.schedulerInstanceID ∧
        request.function = info.faasInfo.schedulerFunctionID

theorem Manager.covers_of_rest_eq_nil (hinv : m.Inv c) (hrest : c.rest = []) :
    m.Covers (c.batches.targets.map c.batches.request) := by
  have hwf := hinv.wellFormed
  refine ⟨?_, ?_, ?_, ?_⟩
  · intro request hrequest
    obtain ⟨key, -, rfl⟩ := mem_map.mp hrequest
    exact hwf.length_le key
  · intro request hrequest
    obtain ⟨key, -, rfl⟩ := mem_map.mp hrequest
    exact hwf.reports_fst key
  · intro hids request hrequest
    obtain ⟨key, -, rfl⟩ := mem_map.mp hrequest
    have hnames : ∀ leaseId ∈ c.kept.map fst, leaseId ≠ "" := by
      intro leaseId hmem
      obtain ⟨lease, hlease, rfl⟩ := mem_map.mp hmem
      exact hids lease (hinv.sublist.subset (mem_append_left _ hlease))
    exact congrArg ("batchRetain#" ++ ·) (hwf.names hnames key)
  · intro lease hmem hdue
    have hkept : lease ∈ c.kept := by
      rcases hinv.seen lease hmem hdue with h | h
      · exact h
      · rw [hrest] at h
        cases h
    obtain ⟨info, i, hinfo, hi⟩ := hinv.placed lease hkept
    have hkey : ∀ key, lease.1 ∈ c.batches.leaseIds key ↔ key = info.faasInfo.forBatchRenew i :=
      fun key => ⟨fun h => hwf.key_unique _ _ _ h hi, fun h => h ▸ hi⟩
    have htarget : info.faasInfo.forBatchRenew i ∈ c.batches.targets :=
      (hwf.mem_targets _).mpr (ne_nil_of_mem hi)
    constructor
    · rw [countP_map]
      have hcount : c.batches.targets.countP
          ((fun request => decide (lease.1 ∈ request.leaseIds)) ∘ c.batches.request) =
          c.batches.targets.count (info.faasInfo.forBatchRenew i) := by
        refine countP_congr fun key _ => ?_
        simp only [comp_apply, request, beq_iff_eq]
        exact decide_eq_true_iff.trans (hkey key)
      rw [hcount]
      exact count_eq_one_of_mem hwf.nodup_targets htarget
    · intro request hrequest hin
      obtain ⟨key, -, rfl⟩ := mem_map.mp hrequest
      obtain rfl := (hkey key).mp hin
      exact ⟨count_eq_one_of_mem (hwf.nodup_leaseIds _) hi, info, hinfo, rfl, rfl⟩

def Manager.Renews (m : Manager ρ) : Prop :=
  ∃ n requests left, m.batchRenewHandler n = some (requests, left) ∧ m.Covers requests

/-- No lease waits for its session to come back; a cancelled handler has none. -/
def Manager.Passable (m : Manager ρ) : Prop :=
  if m.leaseTimer then ∀ lease ∈ m.globalLeases, ¬ m.stuck lease
  else ∀ lease ∈ m.globalLeases, ¬ m.due lease

/-- Every due lease is in one request to its scheduler exactly if no session is on another ring. -/
theorem renews_iff_passable (m : Manager ρ) : m.Renews ↔ m.Passable := by
  unfold Manager.Renews Manager.Passable Manager.batchRenewHandler
  cases m.leaseTimer with
  | false =>
    constructor
    · rintro ⟨n, requests, left, hresult, hcovers⟩ lease hmem hdue
      cases hresult
      have hcount := (hcovers.once lease hmem hdue).1
      cases hcount
    · intro hnone
      refine ⟨0, [], m.globalLeases, rfl, ⟨?_, ?_, ?_, ?_⟩⟩
      · exact fun request h => absurd h not_mem_nil
      · exact fun request h => absurd h not_mem_nil
      · exact fun _ request h => absurd h not_mem_nil
      · exact fun lease hmem hdue => absurd hdue (hnone lease hmem)
  | true =>
    simp only [if_true]
    constructor
    · rintro ⟨n, requests, left, hresult, -⟩ lease hmem hstuck
      have hin := Manager.stuck_mem_rest hmem hstuck n
      cases hrest : (m.rounds n).rest with
      | nil =>
        rw [hrest] at hin
        cases hin
      | cons =>
        rw [hrest] at hresult
        cases hresult
    · intro hfree
      have hrest : (m.rounds m.globalLeases.length).rest = [] := by
        rw [Manager.rest_eq_drop hfree, drop_length]
      refine ⟨m.globalLeases.length, _, _, if_pos ?_, Manager.covers_of_rest_eq_nil (m.inv_rounds _) hrest⟩
      rw [hrest]
      rfl

def movedSession : Manager (Option String) :=
  { leaseTimer := true, blueRatio := 50, hashToPer := fun _ => 30, session := fun session => session
    getInstanceInfo := fun _ _ => some
      { faasInfo := { functionId := "f", schedulerInstanceID := "scheduler",
                      schedulerFunctionID := "faasscheduler", ringName := "green" }
        report := { procReqNum := 0, avgProcTime := 0, maxProcTime := 0, isAbnormal := false }
        needReacquire := false }
    globalLeases := [("lease", some "session")]
    nodup_globalLeases := by decide }

theorem movedSession_never_ends :
    (∀ n, movedSession.batchRenewHandler n = none) ∧ ¬ movedSession.Renews := by
  have hround : movedSession.round movedSession.start = movedSession.start := rfl
  have hrounds (n : Nat) : movedSession.rounds n = movedSession.start :=
    iterate_fixed hround n
  have hnone (n : Nat) : movedSession.batchRenewHandler n = none := by
    unfold Manager.batchRenewHandler
    rw [hrounds n]
    rfl
  refine ⟨hnone, ?_⟩
  rintro ⟨n, requests, left, hresult, -⟩
  rw [hnone n] at hresult
  cases hresult

end Yuanrong.Libruntime.BatchRenew
