import Yuanrong.Libruntime.AsyncDecreRef

/-!
# What becomes of a pushed reference

Every pushed occurrence is at one place at any time: in its tenant's queue, with the thread,
released, given up, or dropped by a thread that has no client. How often an occurrence is tried is
another matter: the thread counts the failures of its submissions, not those of the ids in them.
-/

namespace Yuanrong.Libruntime.AsyncDecreRef

open AList List Option ProcessPhase Bool

variable {s : AsyncDecreRef} {e : Event} {x : Occurrence}

def queued (m : FinMap String (List Occurrence)) (x : Occurrence) : Nat := m.total fun _ q => q.count x

/-- Every occurrence is at one place, and every batch is of one tenant. -/
structure Books (s : AsyncDecreRef) : Prop where
  places : ∀ (i : Nat) (x : Occurrence), s.pushed[i]? = some x → x.place = i
  balanced : ∀ x, queued s.objQueue x + s.process.taken.count x + s.released.count x +
    s.abandoned.count x + s.dropped.count x = s.pushed.count x
  tenants : ∀ t q, s.objQueue.lookup t = some q → ∀ x ∈ q, x.tenantId = t
  takenTenant : ∀ x ∈ s.process.taken, s.process.tenant = some x.tenantId

structure Submitted (s : AsyncDecreRef) : Prop where
  tenants : ∀ sub ∈ s.submissions, ∀ x ∈ sub.batch, x.tenantId = sub.tenantId
  released : ∀ sub ∈ s.submissions, ∀ x ∈ sub.batch, x ∉ sub.failed → x ∈ s.released
  settled : ∀ x, x ∈ s.released ∨ x ∈ s.abandoned → ∃ sub ∈ s.submissions, x ∈ sub.batch
  once : s.submissions.Pairwise fun later earlier =>
    ∀ x ∈ earlier.batch, x ∉ earlier.failed → x ∉ later.batch

structure Stopping (s : AsyncDecreRef) : Prop where
  checkEmpty : s.process = .checkEmpty → s.running = false
  returned : s.process = .returned → s.client = true → s.running = false ∧ s.objQueue.entries = []
  stopped : s.stoppedWithClient = true →
    s.process = .notStarted ∧ s.running = false ∧ s.objQueue.entries = []

variable {m : FinMap String (List Occurrence)} {objs : List Occurrence}

theorem queued_insert_append (m : FinMap String (List Occurrence)) (t : String) (objs : List Occurrence)
    (x : Occurrence) : queued (m.insert t ((m.lookup t).getD [] ++ objs)) x = queued m x + objs.count x := by
  cases hlookup : m.lookup t with
  | none =>
    rw [queued, total_insert_of_none m _ _ hlookup]
    rfl
  | some q =>
    have htotal := total_insert_add m (fun _ q => count x q) (q ++ objs) hlookup
    simp only [count_append] at htotal
    simp only [queued, getD_some]
    omega

theorem tenants_append (hm : ∀ t' q, m.lookup t' = some q → ∀ x ∈ q, x.tenantId = t')
    (hobjs : ∀ x ∈ objs, x.tenantId = t) (t' : String) (q : List Occurrence)
    (hlookup : (m.insert t ((m.lookup t).getD [] ++ objs)).lookup t' = some q) :
    ∀ x ∈ q, x.tenantId = t' := by
  intro x hx
  rcases lookup_of_insert hlookup with ⟨rfl, rfl⟩ | hold
  · rcases mem_append.mp hx with hold | hnew
    · cases hq : m.lookup t' with
      | none => simp [hq] at hold
      | some q₀ =>
        rw [hq] at hold
        exact hm t' q₀ hq x hold
    · exact hobjs x hnew
  · exact hm t' q hold x hx

theorem mem_of_queued (hpos : 0 < queued m x) : ∃ t q, m.lookup t = some q ∧ x ∈ q := by
  by_contra hnone
  have hzero : queued m x = 0 := by
    apply total_eq_zero
    intro t q hlookup
    apply count_eq_zero.mpr
    exact fun hmem => hnone ⟨t, q, hlookup, hmem⟩
  omega

theorem popFrom_spec (size : Nat) (order : List String) : (∀ x, queued (popFrom size m order).1 x +
      (((popFrom size m order).2.map (·.2)).getD []).count x = queued m x) ∧
    (∀ t q, (popFrom size m order).1.lookup t = some q → ∃ q₀, m.lookup t = some q₀ ∧ q ⊆ q₀) ∧
    (∀ t objs, (popFrom size m order).2 = some (t, objs) → ∃ q₀, m.lookup t = some q₀ ∧ objs ⊆ q₀) := by
  induction order generalizing m with
  | nil => refine ⟨fun x => rfl, fun t q hlookup => ⟨q, hlookup, List.Subset.refl q⟩, nofun⟩
  | cons tenantId _ ih =>
    unfold popFrom
    split
    case h_1 => exact ih
    case h_2 hlookup =>
      obtain ⟨hcount, hqueue, hbatch⟩ := ih
      refine ⟨?_, ?_, ?_⟩
      · intro x
        have herase := total_erase_add m (fun _ q => count x q) hlookup
        have hx := hcount x
        exact hx.trans herase
      · intro t q hq
        obtain ⟨q₀, hq₀, hsub⟩ := hqueue t q hq
        exact ⟨q₀, lookup_of_erase hq₀, hsub⟩
      · intro t objs ho
        obtain ⟨q₀, hq₀, hsub⟩ := hbatch t objs ho
        exact ⟨q₀, lookup_of_erase hq₀, hsub⟩
    case h_3 objs _ hlookup =>
      split
      · refine ⟨?_, ?_, ?_⟩
        · intro x
          exact total_erase_add m (fun _ q => count x q) hlookup
        · intro t q hq
          exact ⟨q, lookup_of_erase hq, List.Subset.refl q⟩
        · rintro t _ ⟨⟩
          exact ⟨objs, hlookup, List.Subset.refl objs⟩
      · refine ⟨?_, ?_, ?_⟩
        · intro x
          have htotal := total_insert_add m (fun _ q => count x q) (objs.take (objs.length - size)) hlookup
          have hsplit := congrArg (count x) (take_append_drop (objs.length - size) objs)
          rw [count_append] at hsplit
          simp only [queued, map_some, getD_some] at htotal ⊢
          omega
        · exact forall_lookup_insert ⟨objs, hlookup, take_subset _ _⟩
            fun _ q hold => ⟨q, hold, List.Subset.refl q⟩
        · rintro t _ ⟨⟩
          exact ⟨objs, hlookup, drop_subset _ _⟩

section

variable (h : Books s)
include h

theorem Books.nodup : s.pushed.Nodup := by
  rw [nodup_iff_injective_getElem]
  intro i j heq
  have hi := h.places i _ (getElem?_eq_getElem i.2)
  have hj := h.places j _ (getElem?_eq_getElem j.2)
  exact Fin.ext (hi.symm.trans ((congrArg Occurrence.place heq).trans hj))

theorem Books.move {process : ProcessPhase} (hbefore : s.process.taken = [])
    (hafter : process.taken = []) {running nonEmpty client stopped : Bool} {retryTime : Nat} :
    Books { s with
      process, running, nonEmpty, client, retryTime, stoppedWithClient := stopped } := by
  refine ⟨h.places, ?_, h.tenants, ?_⟩
  · intro x
    have hbalanced := h.balanced x
    rw [hbefore] at hbalanced
    rw [hafter]
    exact hbalanced
  · rw [hafter]
    nofun

theorem Books.push (objs : List String) (tenantId : String) : Books (s.push objs tenantId) := by
  unfold AsyncDecreRef.push
  split
  case isFalse => exact h
  refine ⟨?_, ?_, ?_, h.takenTenant⟩
  · intro i x hget
    by_cases hold : i < s.pushed.length
    · rw [getElem?_append_left hold] at hget
      exact h.places i x hget
    rw [getElem?_append_right (Nat.le_of_not_lt hold), newOccurrences, getElem?_mapIdx] at hget
    obtain ⟨objId, -, rfl⟩ := map_eq_some_iff.mp hget
    show s.pushed.length + (i - s.pushed.length) = i
    omega
  · intro x
    have hbalanced := h.balanced x
    have hqueue := queued_insert_append s.objQueue tenantId (s.newOccurrences objs tenantId) x
    simp only [append, count_append]
    omega
  · apply tenants_append h.tenants
    intro y hy
    obtain ⟨i, _, rfl⟩ := mem_mapIdx.mp hy
    rfl

theorem Books.popBatch (htaken : s.process.taken = []) (order : List String) : Books (s.popBatch order) := by
  obtain ⟨hcount, hqueue, hbatch⟩ := popFrom_spec decreRefBatchSize order
  unfold AsyncDecreRef.popBatch
  refine ⟨h.places, ?_, ?_, ?_⟩
  · intro x
    have hbalanced := h.balanced x
    have hx := hcount x
    rw [htaken, count_nil] at hbalanced
    cases hpop : (popFrom decreRefBatchSize s.objQueue order).2 with
    | none =>
      rw [hpop] at hx
      simp only [taken, map_none, getD_none, count_nil] at hx ⊢
      omega
    | some =>
      rw [hpop] at hx
      simp only [taken, map_some, getD_some] at hx ⊢
      omega
  · intro t q hlookup y hy
    obtain ⟨q₀, hq₀, hsub⟩ := hqueue t q hlookup
    exact h.tenants t q₀ hq₀ y (hsub hy)
  · intro y hy
    cases hpop : (popFrom decreRefBatchSize s.objQueue order).2 with
    | none =>
      simp only [hpop, taken] at hy
      cases hy
    | some batch =>
      obtain ⟨t, objs⟩ := batch
      simp only [hpop, taken] at hy
      obtain ⟨q₀, hq₀, hsub⟩ := hbatch t objs hpop
      simp only [tenant]
      rw [h.tenants t q₀ hq₀ y (hsub hy)]

end

variable {tenantId : String} {failedIds : List Occurrence} {others : List Occurrence}

theorem Books.requeue (h : Books s) (hprocess : s.process = .requeuing tenantId failedIds) :
    Books { s with objQueue := s.append tenantId failedIds, nonEmpty := true, process := .loop } := by
  refine ⟨h.places, ?_, ?_, nofun⟩
  · intro x
    have hbalanced := h.balanced x
    have hqueue := queued_insert_append s.objQueue tenantId failedIds x
    simp only [hprocess, taken] at hbalanced
    simp only [append, taken, count_nil]
    omega
  · apply tenants_append h.tenants
    intro y hy
    have htenant := h.takenTenant y (by rw [hprocess]; exact hy)
    rw [hprocess] at htenant
    exact (some.inj htenant).symm

section Answer

theorem submissions_answered : (s.answered tenantId objs failedIds others).submissions =
    { tenantId, batch := objs, failed := failedIds } :: s.submissions := by
  unfold answered
  split
  · rfl
  · split <;> rfl

variable
  (hprocess : s.process = .submitting tenantId objs) (hperm : (failedIds ++ others).Perm objs)
include hprocess hperm

theorem Books.answered (h : Books s) : Books (s.answered tenantId objs failedIds others) := by
  have hcount : ∀ x, objs.count x = failedIds.count x + others.count x := by
    intro x
    rw [← hperm.count_eq, count_append]
  have hbalanced : ∀ x, queued s.objQueue x + (failedIds.count x + others.count x) +
      s.released.count x + s.abandoned.count x + s.dropped.count x = s.pushed.count x := by
    intro x
    have hx := h.balanced x
    simp only [hprocess, taken, hcount] at hx
    exact hx
  unfold AsyncDecreRef.answered
  split
  case isTrue hnil =>
    refine ⟨h.places, ?_, h.tenants, nofun⟩
    intro x
    have hx := hbalanced x
    rw [hnil] at hx
    simp only [taken, count_nil, count_append] at hx ⊢
    omega
  case isFalse =>
    split
    · refine ⟨h.places, ?_, h.tenants, nofun⟩
      intro x
      have hx := hbalanced x
      simp only [taken, count_nil, count_append]
      omega
    · refine ⟨h.places, ?_, h.tenants, ?_⟩
      · intro x
        have hx := hbalanced x
        simp only [taken, count_append]
        omega
      · intro y hy
        have hmem : y ∈ objs := hperm.subset (mem_append_left _ hy)
        have htenant := h.takenTenant y (by rw [hprocess]; exact hmem)
        rw [hprocess] at htenant
        exact htenant

theorem Submitted.answered (h : Submitted s) (hbooks : Books s) :
    Submitted (s.answered tenantId objs failedIds others) := by
  have hreleased : (s.answered tenantId objs failedIds others).released = s.released ++ others := by
    unfold AsyncDecreRef.answered
    split
    · rfl
    · split <;> rfl
  have habandoned : ∀ y ∈ (s.answered tenantId objs failedIds others).abandoned,
      y ∈ s.abandoned ∨ y ∈ failedIds := by
    unfold AsyncDecreRef.answered
    split
    · exact fun y hy => .inl hy
    split
    · exact fun y hy => mem_append.mp hy
    · exact fun y hy => .inl hy
  have hbatch : ∀ y ∈ objs, y ∈ s.process.taken := by
    intro y hy
    rw [hprocess]
    exact hy
  refine ⟨?_, ?_, ?_, ?_⟩
  · rw [submissions_answered]
    intro sub hsub y hy
    rcases mem_cons.mp hsub with rfl | hold
    · have htenant := hbooks.takenTenant y (hbatch y hy)
      rw [hprocess] at htenant
      exact (some.inj htenant).symm
    · exact h.tenants sub hold y hy
  · rw [submissions_answered, hreleased]
    intro sub hsub y hy hnot
    rcases mem_cons.mp hsub with rfl | hold
    · rcases mem_append.mp (hperm.symm.subset hy) with hfailed | hother
      · exact absurd hfailed hnot
      · exact mem_append_right _ hother
    · exact mem_append_left _ (h.released sub hold y hy hnot)
  · rw [submissions_answered, hreleased]
    intro y hy
    have hcases : (y ∈ s.released ∨ y ∈ s.abandoned) ∨ y ∈ objs := by
      rcases hy with hrel | hab
      · rcases mem_append.mp hrel with hold | hother
        · exact .inl (.inl hold)
        · exact .inr (hperm.subset (mem_append_right _ hother))
      · rcases habandoned y hab with hold | hfailed
        · exact .inl (.inr hold)
        · exact .inr (hperm.subset (mem_append_left _ hfailed))
    rcases hcases with hold | hnew
    · obtain ⟨sub, hsub, hmem⟩ := h.settled y hold
      exact ⟨sub, mem_cons_of_mem _ hsub, hmem⟩
    · exact ⟨_, mem_cons_self, hnew⟩
  · rw [submissions_answered]
    refine pairwise_cons.mpr ⟨?_, h.once⟩
    intro sub hsub y hy hnot hagain
    have htaken := count_pos_iff.mpr (hbatch y hagain)
    have hreleased := count_pos_iff.mpr (h.released sub hsub y hy hnot)
    have hbalanced := hbooks.balanced y
    have hone := nodup_iff_count_le_one.mp hbooks.nodup y
    omega

end Answer

theorem gDecreaseRef_some (hstep : s.gDecreaseRef err failedIds others = some s') :
    ∃ tenantId objs, s.process = .submitting tenantId objs ∧
      ((s.client = false ∧ s' = { s with process := .returned, dropped := s.dropped ++ objs }) ∨
        ∃ failedIds' others', (failedIds' ++ others').Perm objs ∧
          s' = s.answered tenantId objs failedIds' others') := by
  unfold gDecreaseRef at hstep
  split at hstep
  case h_2 => cases hstep
  rename_i tenantId objs hprocess
  refine ⟨tenantId, objs, hprocess, ?_⟩
  split at hstep
  case isFalse hclient =>
    cases hstep
    exact .inl ⟨by simpa using hclient, rfl⟩
  obtain ⟨hperm, hstep⟩ := ite_none_right_eq_some.mp hstep
  right
  split at hstep
  · cases hstep
    exact ⟨objs, [], by simp, rfl⟩
  · cases hstep
    exact ⟨failedIds, others, hperm, rfl⟩

theorem Books.drop (h : Books s) (hprocess : s.process = .submitting tenantId objs) :
    Books { s with process := .returned, dropped := s.dropped ++ objs } := by
  refine ⟨h.places, ?_, h.tenants, nofun⟩
  intro x
  have hbalanced := h.balanced x
  simp only [hprocess, taken] at hbalanced
  simp only [taken, count_nil, count_append]
  omega

theorem Books.step (h : Books s) (hstep : s.next e = some s') : Books s' := by
  cases e with
  | stop =>
    cases hstep
    exact { h with }
  | push objs tenantId =>
    cases hstep
    exact h.push objs tenantId
  | init =>
    obtain ⟨hcan, rfl⟩ := ite_some_none_eq_some.mp hstep
    exact h.move (by rw [hcan]; rfl) rfl
  | join | wake =>
    obtain ⟨hcan, rfl⟩ := ite_some_none_eq_some.mp hstep
    exact h.move (by rw [hcan.1]; rfl) rfl
  | loopTest | isEmpty =>
    obtain ⟨hcan, rfl⟩ := ite_some_none_eq_some.mp hstep
    exact h.move (by rw [hcan]; rfl) (by split <;> rfl)
  | popBatch order =>
    obtain ⟨hcan, rfl⟩ := ite_some_none_eq_some.mp hstep
    exact h.popBatch (by rw [hcan.1]; rfl) order
  | gDecreaseRef =>
    obtain ⟨tenantId, objs, hprocess, hcase⟩ := gDecreaseRef_some hstep
    rcases hcase with ⟨-, rfl⟩ | ⟨failedIds', others', hperm, rfl⟩
    · exact h.drop hprocess
    · exact h.answered hprocess hperm
  | requeue =>
    simp only [next, AsyncDecreRef.requeue] at hstep
    split at hstep
    case h_2 => cases hstep
    case h_1 tenantId failedIds hprocess =>
      cases hstep
      exact h.requeue hprocess

theorem records_of_step (hstep : s.next e = some s') :
    (s'.submissions = s.submissions ∧ s'.released = s.released ∧ s'.abandoned = s.abandoned) ∨
      ∃ err f o tenantId objs failedIds others, e = .gDecreaseRef err f o ∧
        s.process = .submitting tenantId objs ∧ (failedIds ++ others).Perm objs ∧
        s' = s.answered tenantId objs failedIds others := by
  cases e with
  | stop =>
    cases hstep
    exact .inl ⟨rfl, rfl, rfl⟩
  | push objs tenantId =>
    cases hstep
    refine .inl ?_
    unfold push
    split <;> exact ⟨rfl, rfl, rfl⟩
  | gDecreaseRef err f o =>
    obtain ⟨tenantId, objs, hprocess, ⟨-, rfl⟩ | ⟨failedIds, others, hperm, rfl⟩⟩ := gDecreaseRef_some hstep
    · exact .inl ⟨rfl, rfl, rfl⟩
    · exact .inr ⟨err, f, o, tenantId, objs, failedIds, others, rfl, hprocess, hperm, rfl⟩
  | requeue =>
    simp only [next, requeue] at hstep
    split at hstep
    · cases hstep
      exact .inl ⟨rfl, rfl, rfl⟩
    · cases hstep
  | init | join | loopTest | isEmpty | wake | popBatch =>
    obtain ⟨-, rfl⟩ := ite_some_none_eq_some.mp hstep
    exact .inl ⟨rfl, rfl, rfl⟩

theorem Submitted.step (h : Submitted s) (hbooks : Books s) (hstep : s.next e = some s') : Submitted s' := by
  rcases records_of_step hstep with ⟨hsubs, hreleased, habandoned⟩ |
    ⟨err, f, o, tenantId, objs, failedIds, others, -, hprocess, hperm, rfl⟩
  · refine ⟨?_, ?_, ?_, ?_⟩
    · rw [hsubs]
      exact h.tenants
    · rw [hsubs, hreleased]
      exact h.released
    · rw [hsubs, hreleased, habandoned]
      exact h.settled
    · rw [hsubs]
      exact h.once
  · exact h.answered hprocess hperm hbooks

theorem answered_flags (s : AsyncDecreRef) (tenantId : String) (objs failedIds others : List Occurrence) :
    (s.answered tenantId objs failedIds others).stoppedWithClient = s.stoppedWithClient ∧
      (s.answered tenantId objs failedIds others).process ≠ .checkEmpty ∧
      (s.answered tenantId objs failedIds others).process ≠ .returned := by
  unfold answered
  split
  · exact ⟨rfl, nofun, nofun⟩
  · split <;> exact ⟨rfl, nofun, nofun⟩

theorem Stopping.not_stopped (h : Stopping s) (hprocess : s.process ≠ .notStarted) :
    ¬s.stoppedWithClient = true :=
  fun hstopped => hprocess (h.stopped hstopped).1

theorem Stopping.step (h : Stopping s) (hstep : s.next e = some s') : Stopping s' := by
  cases e with
  | init =>
    obtain ⟨hcan, rfl⟩ := ite_some_none_eq_some.mp hstep
    exact ⟨nofun, nofun, nofun⟩
  | stop =>
    cases hstep
    exact ⟨fun _ => rfl, fun hp hc => ⟨rfl, (h.returned hp hc).2⟩,
      fun hs => ⟨(h.stopped hs).1, rfl, (h.stopped hs).2.2⟩⟩
  | join =>
    obtain ⟨hcan, rfl⟩ := ite_some_none_eq_some.mp hstep
    exact ⟨nofun, nofun, fun hclient => ⟨rfl, hcan.2, (h.returned hcan.1 hclient).2⟩⟩
  | push =>
    cases hstep
    unfold push
    split
    case isFalse => exact h
    rename_i hcan
    refine ⟨h.checkEmpty, ?_, ?_⟩
    · intro hp hc
      exact absurd ((h.returned hp hc).1.symm.trans hcan.1) false_ne_true
    · intro hs
      exact absurd ((h.stopped hs).2.1.symm.trans hcan.1) false_ne_true
  | loopTest =>
    obtain ⟨hcan, rfl⟩ := ite_some_none_eq_some.mp hstep
    have hnot := h.not_stopped (by rw [hcan]; nofun)
    refine ⟨?_, ?_, fun hs => absurd hs hnot⟩
    · intro hp
      cases hrun : s.running with
      | false => rfl
      | true => simp [hrun] at hp
    · intro hp
      cases hrun : s.running <;> simp [hrun] at hp
  | isEmpty =>
    obtain ⟨hcan, rfl⟩ := ite_some_none_eq_some.mp hstep
    have hnot := h.not_stopped (by rw [hcan]; nofun)
    refine ⟨?_, ?_, fun hs => absurd hs hnot⟩
    · intro hp
      split at hp <;> cases hp
    intro hp _
    refine ⟨h.checkEmpty hcan, ?_⟩
    split at hp
    · rename_i hempty
      exact isEmpty_iff.mp hempty
    · cases hp
  | wake =>
    obtain ⟨hcan, rfl⟩ := ite_some_none_eq_some.mp hstep
    have hnot := h.not_stopped (by rw [hcan.1]; nofun)
    exact ⟨nofun, nofun, fun hs => absurd hs hnot⟩
  | popBatch =>
    obtain ⟨hcan, rfl⟩ := ite_some_none_eq_some.mp hstep
    have hnot := h.not_stopped (by rw [hcan.1]; nofun)
    unfold popBatch
    refine ⟨?_, ?_, fun hs => absurd hs hnot⟩
    all_goals
      intro hp
      split at hp <;> cases hp
  | gDecreaseRef =>
    obtain ⟨tenantId, objs, hprocess, hcase⟩ := gDecreaseRef_some hstep
    have hnot := h.not_stopped (by rw [hprocess]; nofun)
    rcases hcase with ⟨hclient, rfl⟩ | ⟨failedIds', others', -, rfl⟩
    · exact ⟨nofun, fun _ hc => absurd (hclient.symm.trans hc) false_ne_true,
        fun hs => absurd hs hnot⟩
    obtain ⟨hflag, hcheck, hreturned⟩ := answered_flags s tenantId objs failedIds' others'
    exact ⟨fun hp => absurd hp hcheck, fun hp => absurd hp hreturned,
      fun hs => absurd (hflag ▸ hs) hnot⟩
  | requeue =>
    simp only [next, requeue] at hstep
    split at hstep
    case h_2 => cases hstep
    rename_i tenantId failedIds hprocess
    cases hstep
    have hnot := h.not_stopped (by rw [hprocess]; nofun)
    exact ⟨nofun, nofun, fun hs => absurd hs hnot⟩

/-- The batch that is submitted after failures is one of ids that have themselves failed as
often. -/
def retriesOwn (s : AsyncDecreRef) (e : Event) : Bool :=
  match e, s.process with
  | .gDecreaseRef _ _ _, .submitting _ objs => objs.all fun x => s.retryTime ≤ s.failures x
  | _, _ => true

theorem tried_answered (hperm : (failedIds ++ others).Perm objs)
    (hown : ∀ x ∈ objs, s.retryTime ≤ s.failures x) (h : ∀ x ∈ s.abandoned, decreRefMaxRetry ≤ s.failures x) :
    ∀ x ∈ (s.answered tenantId objs failedIds others).abandoned,
      decreRefMaxRetry ≤ (s.answered tenantId objs failedIds others).failures x := by
  intro x hx
  have hfailures : (s.answered tenantId objs failedIds others).failures x =
      s.failures x + if x ∈ failedIds then 1 else 0 := by
    simp [failures, submissions_answered, countP_cons]
  rw [hfailures]
  have hold : x ∈ s.abandoned → decreRefMaxRetry ≤ s.failures x + if x ∈ failedIds then 1 else 0 :=
    fun hmem => (h x hmem).trans (Nat.le_add_right _ _)
  unfold answered at hx
  split at hx
  · exact hold hx
  split at hx
  case isTrue hlimit =>
    rcases mem_append.mp hx with hmem | hfailed
    · exact hold hmem
    rw [if_pos hfailed]
    have hx := hown x (hperm.subset (mem_append_left _ hfailed))
    omega
  case isFalse => exact hold hx

end Yuanrong.Libruntime.AsyncDecreRef

namespace Yuanrong.Libruntime

open AsyncDecreRef

theorem tried_of_reach (hrun : asyncDecreRef.Reach (fun s e => s.retriesOwn e = true) s) :
    ∀ x ∈ s.abandoned, decreRefMaxRetry ≤ s.failures x := by
  refine hrun.invariant (P := fun s => ∀ x ∈ s.abandoned, decreRefMaxRetry ≤ s.failures x) ?_ ?_
  · rintro s rfl
    nofun
  intro s e s' l _ hok h hstep
  have hnext := next_of_step hstep
  rcases records_of_step hnext with ⟨hsubs, -, habandoned⟩ |
    ⟨err, f, o, tenantId, objs, failedIds, others, rfl, hprocess, hperm, rfl⟩
  · intro x hx
    rw [failures, hsubs]
    exact h x (habandoned ▸ hx)
  · simp only [retriesOwn, hprocess, List.all_eq_true, decide_eq_true_eq] at hok
    exact tried_answered hperm hok h

/-- Occurrences are submitted under their tenant and not again once released, none is lost, none is
queued after `Stop`, and only those that failed `DECRE_REF_MAX_RETRY` times are given up. -/
theorem pushed_references_released {s : AsyncDecreRef} (hrun : asyncDecreRef.Reachable s) :
    ((∀ sub ∈ s.submissions, ∀ x ∈ sub.batch, x.tenantId = sub.tenantId) ∧
      s.submissions.Pairwise (fun later earlier =>
        ∀ x ∈ earlier.batch, x ∉ earlier.failed → x ∉ later.batch) ∧
      (∀ x ∈ s.pushed, (∃ q, s.objQueue.lookup x.tenantId = some q ∧ x ∈ q) ∨ x ∈ s.process.taken ∨
        x ∈ s.dropped ∨ ∃ sub ∈ s.submissions, x ∈ sub.batch) ∧
      (s.stoppedWithClient = true → s.objQueue.entries = [])) ∧
    (asyncDecreRef.Reach (fun s e => s.retriesOwn e = true) s →
      ∀ x ∈ s.abandoned, decreRefMaxRetry ≤ s.failures x) := by
  obtain ⟨hbooks, hsubmitted, hstopping⟩ : s.Books ∧ s.Submitted ∧ s.Stopping := by
    refine hrun.invariant (P := fun s => s.Books ∧ s.Submitted ∧ s.Stopping) ?_ ?_
    · rintro s rfl
      exact ⟨⟨nofun, fun _ => rfl, nofun, nofun⟩, ⟨nofun, nofun, nofun, List.Pairwise.nil⟩,
        ⟨nofun, nofun, nofun⟩⟩
    · intro s e s' l _ _ h hstep
      have hnext := next_of_step hstep
      exact ⟨h.1.step hnext, h.2.1.step h.1 hnext, h.2.2.step hnext⟩
  refine ⟨⟨hsubmitted.tenants, hsubmitted.once, ?_, fun hs => (hstopping.stopped hs).2.2⟩, tried_of_reach⟩
  intro x hx
  have hbalanced := hbooks.balanced x
  have hpos := List.count_pos_iff.mpr hx
  by_cases hqueue : 0 < queued s.objQueue x
  · obtain ⟨t, q, hlookup, hmem⟩ := mem_of_queued hqueue
    left
    rw [hbooks.tenants t q hlookup x hmem]
    exact ⟨q, hlookup, hmem⟩
  · right
    have hother : x ∈ s.process.taken ∨ x ∈ s.dropped ∨ x ∈ s.released ∨ x ∈ s.abandoned := by
      by_contra hnone
      simp only [not_or] at hnone
      rw [List.count_eq_zero.mpr hnone.1, List.count_eq_zero.mpr hnone.2.1,
        List.count_eq_zero.mpr hnone.2.2.1, List.count_eq_zero.mpr hnone.2.2.2] at hbalanced
      omega
    rcases hother with htaken | hdropped | hsettled
    · exact .inl htaken
    · exact .inr (.inl hdropped)
    · exact .inr (.inr (hsubmitted.settled x hsettled))

theorem pushed_references_released_stopped :
    ∃ s, asyncDecreRef.Reach (fun s e => s.retriesOwn e = true) s ∧ s.stoppedWithClient = true ∧
      s.abandoned = [⟨"a", "t", 0⟩] ∧ s.released = [⟨"b", "u", 1⟩] ∧ s.objQueue.entries = [] ∧
      decreRefMaxRetry ≤ s.failures ⟨"a", "t", 0⟩ := by
  obtain ⟨s, hrun, hs⟩ := asyncDecreRef.reach_of_run retriesOwn (show asyncDecreRef.init {} from rfl)
    [.init true, .push ["a"] "t", .loopTest, .wake, .popBatch ["t"],
      .gDecreaseRef true [] [⟨"a", "t", 0⟩], .requeue, .loopTest, .wake, .popBatch ["t"],
      .gDecreaseRef false [⟨"a", "t", 0⟩] [], .push ["b"] "u", .stop, .loopTest, .isEmpty, .wake,
      .popBatch ["u"], .gDecreaseRef false [] [⟨"b", "u", 1⟩], .loopTest, .isEmpty, .join]
    (fun s => s.stoppedWithClient ∧ s.abandoned = [⟨"a", "t", 0⟩] ∧ s.released = [⟨"b", "u", 1⟩])
    (by decide)
  have hmain := pushed_references_released hrun.reachable
  exact ⟨s, hrun, hs.1, hs.2.1, hs.2.2, hmain.1.2.2.2 hs.1,
    hmain.2 hrun _ (by rw [hs.2.1]; exact List.mem_singleton_self _)⟩

/-- The failures of two tenants' batches are counted together: an id is given up after it has failed
once. -/
theorem reference_given_up_early :
    ∃ s x, asyncDecreRef.Reachable s ∧ x ∈ s.abandoned ∧ s.failures x = 1 ∧ 1 < decreRefMaxRetry := by
  obtain ⟨s, hrun, habandoned, hfailures⟩ :=
    asyncDecreRef.reachable_of_run (show asyncDecreRef.init {} from rfl)
    [.init true, .push ["a"] "t", .push ["b"] "u", .loopTest, .wake, .popBatch ["t", "u"],
      .gDecreaseRef true [] [⟨"a", "t", 0⟩], .requeue, .loopTest, .wake, .popBatch ["u", "t"],
      .gDecreaseRef true [] [⟨"b", "u", 1⟩]]
    (fun s => s.abandoned = [⟨"b", "u", 1⟩] ∧ s.failures ⟨"b", "u", 1⟩ = 1) (by decide)
  exact ⟨s, _, hrun, by rw [habandoned]; exact List.mem_singleton_self _, hfailures, by decide⟩

end Yuanrong.Libruntime
