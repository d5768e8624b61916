import Yuanrong.Libruntime.InvokeOrderManager

/-!
# No number is left open

The entries of the order manager only move forward: a number that counts as finished does so for as
long as its entry is there. A call that ends before it is sent, or by a cancel, has nobody who
reports its number.
-/

namespace Yuanrong.Libruntime

open AList InvokeOrderManager Option List Bool Nat

theorem takeFinished_le (n : Nat) (l : List Nat) : n ≤ (takeFinished n l).1 := by
  induction l generalizing n with
  | nil => exact le_rfl
  | cons _ _ ih =>
    unfold takeFinished
    split
    · exact (le_succ n).trans (ih (n + 1))
    · exact le_rfl

variable {c' : OrderedCall}
  {m : InvokeOrderManager} {o : InstanceOrdering}

/-- The loop loses no number: what it takes from the set is then below the unfinished one. -/
theorem takeFinished_keeps (hk : k < n ∨ k ∈ l) : k < (takeFinished n l).1 ∨ k ∈ (takeFinished n l).2 := by
  induction l generalizing n with
  | nil => exact hk
  | cons _ _ ih =>
    unfold takeFinished
    split
    case isTrue heq =>
      apply ih
      rcases hk with hbelow | hmem
      · exact .inl (lt_succ_of_lt hbelow)
      rcases mem_cons.mp hmem with rfl | hrest
      · exact .inl (heq ▸ lt_succ_self k)
      · exact .inr hrest
    case isFalse => exact hk

namespace InstanceOrdering

variable {o o' : InstanceOrdering}

theorem counts_iff : o.counts n = true ↔ n < o.unfinishedSeqNo ∨ n ∈ o.finishedOrderedReqSeqNo := by
  simp [counts]

structure Later (o o' : InstanceOrdering) : Prop where
  serial : o.serial = o'.serial
  unfinished : o.unfinishedSeqNo ≤ o'.unfinishedSeqNo
  counts : ∀ n, o.counts n = true → o'.counts n = true

theorem Later.refl (o : InstanceOrdering) : o.Later o := ⟨rfl, le_rfl, fun _ h => h⟩

theorem Later.trans (h : o.Later o') (h' : o'.Later o'') : o.Later o'' :=
  ⟨h.serial.trans h'.serial, h.unfinished.trans h'.unfinished, fun n hn => h'.counts n (h.counts n hn)⟩

theorem mem_emplace : n ∈ o.emplace seqNo ↔ n = seqNo ∨ n ∈ o.finishedOrderedReqSeqNo := by
  unfold emplace
  split
  case isTrue hmem =>
    refine ⟨.inr, ?_⟩
    rintro (rfl | h)
    · exact contains_iff_mem.mp hmem
    · exact h
  case isFalse => exact mem_orderedInsert _

theorem counts_finish_of (h : n = seqNo ∨ o.counts n = true) : (o.finish seqNo).counts n = true := by
  rw [counts_iff] at h ⊢
  unfold finish
  split
  case isTrue hbelow =>
    rcases h with rfl | h
    · exact .inl hbelow
    · exact h
  case isFalse =>
    apply takeFinished_keeps
    rcases h with rfl | hbelow | hmem
    · exact .inr (mem_emplace.mpr (.inl rfl))
    · exact .inl hbelow
    · exact .inr (mem_emplace.mpr (.inr hmem))

theorem later_finish (o : InstanceOrdering) (seqNo : Nat) : o.Later (o.finish seqNo) := by
  refine ⟨?_, ?_, fun n hn => counts_finish_of (.inr hn)⟩
  · unfold finish
    split <;> rfl
  unfold finish
  split
  · exact le_rfl
  · exact takeFinished_le _ _

end InstanceOrdering

namespace InvokeOrderManager

variable {m m' : InvokeOrderManager}

def WellFormed (m : InvokeOrderManager) : Prop :=
  ∀ instanceId o, m.instances.lookup instanceId = some o → o.serial < m.made

structure Grows (m m' : InvokeOrderManager) : Prop where
  made : m.made ≤ m'.made
  wellFormed : m'.WellFormed
  entries : ∀ instanceId o', m'.instances.lookup instanceId = some o' → m.made ≤ o'.serial ∨
    ∃ o, m.instances.lookup instanceId = some o ∧ o.Later o'

theorem Grows.refl (hwf : m.WellFormed) : m.Grows m :=
  ⟨le_rfl, hwf, fun _ o' h => .inr ⟨o', h, .refl o'⟩⟩

theorem Grows.trans (h : m.Grows m') (h' : m'.Grows m'') : m.Grows m'' := by
  refine ⟨h.made.trans h'.made, h'.wellFormed, ?_⟩
  intro instanceId o'' hlookup
  rcases h'.entries instanceId o'' hlookup with hnew | ⟨o', hlookup', hlater'⟩
  · exact .inl (h.made.trans hnew)
  rcases h.entries instanceId o' hlookup' with hnew | ⟨o, hlookup₀, hlater⟩
  · exact .inl (hlater'.serial ▸ hnew)
  · exact .inr ⟨o, hlookup₀, hlater.trans hlater'⟩

section

variable (hwf : m.WellFormed)
include hwf

theorem Grows.of_subset (hmade : m'.made = m.made)
    (hsub : ∀ instanceId o, m'.instances.lookup instanceId = some o →
      m.instances.lookup instanceId = some o) : m.Grows m' :=
  ⟨hmade.ge, fun instanceId o h => hmade ▸ hwf instanceId o (hsub instanceId o h),
    fun instanceId o h => .inr ⟨o, hsub instanceId o h, .refl o⟩⟩

theorem grows_insertNew (instanceId : String) (counter unfinished : Nat) :
    m.Grows (m.insertNew instanceId counter unfinished) := by
  unfold insertNew
  split
  case isTrue => exact .refl hwf
  refine ⟨le_succ _, ?_, ?_⟩
  · exact forall_lookup_insert (lt_succ_self _) fun k o hold => lt_succ_of_lt (hwf k o hold)
  · exact forall_lookup_insert (.inl le_rfl) fun _ o hold => .inr ⟨o, hold, .refl o⟩

theorem grows_modify (instanceId : String)
    (hf : ∀ o, InstanceOrdering.Later o (f o)) : m.Grows (m.modify instanceId f) := by
  unfold modify
  split
  case h_1 o hentry =>
    refine ⟨le_rfl, ?_, ?_⟩
    · exact forall_lookup_insert ((hf o).serial ▸ hwf instanceId o hentry) hwf
    · exact forall_lookup_insert (.inr ⟨o, hentry, hf o⟩) fun _ o' hold => .inr ⟨o', hold, .refl o'⟩
  case h_2 => exact .refl hwf

theorem grows_updateFinishReqSeqNo (instanceId : String) (invokeSeqNo : Nat) :
    m.Grows (m.updateFinishReqSeqNo instanceId invokeSeqNo) :=
  grows_modify hwf instanceId fun o => o.later_finish invokeSeqNo

theorem grows_update (u : OrderUpdate) : m.Grows (m.update u) := by
  cases u with
  | createInstance instanceId | createGroupInstance instanceId => exact grows_insertNew hwf instanceId 1 0
  | registerInstance instanceId => exact grows_insertNew hwf instanceId 0 0
  | registerInstanceAndUpdateOrder instanceId restored =>
    cases restored with
    | true => exact grows_insertNew hwf instanceId 0 0
    | false => exact grows_insertNew hwf instanceId 1 1
  | notifyGroupInstance instanceId =>
    refine grows_modify hwf instanceId fun o => ⟨rfl, le_succ _, ?_⟩
    intro n hn
    rw [InstanceOrdering.counts_iff] at hn ⊢
    exact hn.imp lt_succ_of_lt id
  | updateFinishReqSeqNo instanceId invokeSeqNo => exact grows_updateFinishReqSeqNo hwf instanceId invokeSeqNo
  | removeInstance => exact .of_subset hwf rfl fun _ _ h => lookup_of_erase h
  | clear => exact .of_subset hwf rfl nofun

theorem grows_entryFor (instanceId : String) (isGetInstance : Bool) :
    m.Grows (m.entryFor instanceId isGetInstance) := by
  cases isGetInstance with
  | true => exact grows_insertNew hwf instanceId 0 0
  | false => exact .refl hwf

theorem grows_invoke (instanceId : String) (isGetInstance : Bool) :
    m.Grows (m.invoke instanceId isGetInstance) := by
  unfold invoke
  split
  case isTrue => exact .refl hwf
  case isFalse =>
    have hentry := grows_entryFor hwf instanceId isGetInstance
    exact hentry.trans (grows_modify hentry.wellFormed instanceId fun o => ⟨rfl, le_rfl, fun _ h => h⟩)

theorem nextNumber_made (hnext : m.nextNumber instanceId isGetInstance = some (seqNo, serial)) :
    serial < (m.invoke instanceId isGetInstance).made := by
  obtain ⟨hne, hnext⟩ := ite_none_left_eq_some.mp hnext
  obtain ⟨o, hlookup, ⟨⟩⟩ := map_eq_some_iff.mp hnext
  have hentry := grows_entryFor hwf instanceId isGetInstance
  have hmodify := grows_modify hentry.wellFormed instanceId
    (f := fun o => { o with orderingCounter := o.orderingCounter + 1 })
    fun o => ⟨rfl, le_rfl, fun _ h => h⟩
  rw [invoke, if_neg hne]
  exact (hentry.wellFormed instanceId o hlookup).trans_le hmodify.made

end

def Numbers (m : InvokeOrderManager) (c : OrderedCall) (o : InstanceOrdering) : Prop :=
  m.instances.lookup c.instanceId = some o ∧ c.entry = some o.serial

structure Settled (m : InvokeOrderManager) (c : OrderedCall) : Prop where
  made : ∀ serial, c.entry = some serial → serial < m.made
  sent : c.phase = .sent ∨ c.phase = .readying ∨ c.phase = .failing → c.sent = true
  counts : (c.completed = true ∧ c.phase ≠ .failing) ∨ c.phase = .readying →
    ∀ o, m.Numbers c o → o.counts c.invokeSeqNo = true
  below : c.completed = true → c.sent = false → ∀ o, m.Numbers c o →
    c.invokeSeqNo < o.unfinishedSeqNo

variable {c : OrderedCall}

theorem Grows.numbers (h : m.Grows m') (hmade : ∀ serial, c.entry = some serial → serial < m.made)
    (hnum : m'.Numbers c o') : ∃ o, m.Numbers c o ∧ o.Later o' := by
  rcases h.entries c.instanceId o' hnum.1 with hnew | ⟨o, hlookup, hlater⟩
  · exact absurd (hmade o'.serial hnum.2) (not_lt.mpr hnew)
  · exact ⟨o, ⟨hlookup, hlater.serial ▸ hnum.2⟩, hlater⟩

theorem Settled.grow (hc : m.Settled c) (h : m.Grows m') : m'.Settled c where
  made serial heq := (hc.made serial heq).trans_le h.made
  sent := hc.sent
  counts hdone o' hnum := by
    obtain ⟨o, hnum₀, hlater⟩ := h.numbers hc.made hnum
    exact hlater.counts _ (hc.counts hdone o hnum₀)
  below hdone hunsent o' hnum := by
    obtain ⟨o, hnum₀, hlater⟩ := h.numbers hc.made hnum
    exact (hc.below hdone hunsent o hnum₀).trans_le hlater.unfinished

/-- The number needs no report any more: its entry is gone or counts it. -/
def reported (m : InvokeOrderManager) (c : OrderedCall) : Bool :=
  match m.instances.lookup c.instanceId with
  | some o =>
    c.entry ≠ some o.serial ||
      if c.sent then o.counts c.invokeSeqNo else c.invokeSeqNo < o.unfinishedSeqNo
  | none => true

theorem of_reported (hrep : m.reported c = true) (hnum : m.Numbers c o) :
    o.counts c.invokeSeqNo = true ∧ (c.sent = false → c.invokeSeqNo < o.unfinishedSeqNo) := by
  simp only [reported, hnum.1, hnum.2, ne_eq, not_true_eq_false, decide_false, Bool.false_or] at hrep
  cases hsent : c.sent with
  | true =>
    rw [hsent, if_pos rfl] at hrep
    exact ⟨hrep, nofun⟩
  | false =>
    rw [hsent, if_neg Bool.false_ne_true, decide_eq_true_eq] at hrep
    exact ⟨InstanceOrdering.counts_iff.mpr (.inl hrep), fun _ => hrep⟩

end InvokeOrderManager

namespace OrderedCalls

variable {s : OrderedCalls} {e : Event} {requestId : String}

/-- The step ends no call whose number is still to be reported. -/
def reportsBack (s : OrderedCalls) (e : Event) : Bool :=
  match e with
  | .resolved requestId false | .putRefArgToDs requestId false | .cancel requestId =>
    (s.calls.lookup requestId).all fun c => c.completed || s.order.reported c
  | _ => true

structure NoGaps (s : OrderedCalls) : Prop where
  wellFormed : s.order.WellFormed
  settled : ∀ requestId c, s.calls.lookup requestId = some c → s.order.Settled c

variable {c : OrderedCall}

theorem NoGaps.store (h : s.NoGaps) {order : InvokeOrderManager} (hgrows : s.order.Grows order)
    (hc : order.Settled c) : NoGaps { order, calls := s.calls.insert requestId c } := by
  refine ⟨hgrows.wellFormed, ?_⟩
  exact forall_lookup_insert hc fun r c' hold => (h.settled r c' hold).grow hgrows

theorem NoGaps.set (h : s.NoGaps) (hc : s.order.Settled c) : (s.set requestId c).NoGaps :=
  h.store (.refl h.wellFormed) hc

theorem advance_some (hstep : s.advance requestId phase f = some s') :
    ∃ c, s.calls.lookup requestId = some c ∧ c.phase = phase ∧ s' = f c := by
  unfold advance at hstep
  split at hstep
  case h_1 c hlookup =>
    split at hstep
    · rename_i hphase
      exact ⟨c, hlookup, hphase, (some.inj hstep).symm⟩
    · cases hstep
  case h_2 => cases hstep

theorem NoGaps.invokeByInstanceId (h : s.NoGaps)
    (hstep : s.invokeByInstanceId requestId instanceId isGetInstance = some s') : s'.NoGaps := by
  obtain ⟨-, rfl⟩ := ite_some_none_eq_some.mp hstep
  apply h.store (grows_invoke h.wellFormed instanceId isGetInstance)
  split
  case h_1 seqNo serial hnext =>
    refine ⟨?_, nofun, nofun, nofun⟩
    intro k heq
    cases heq
    exact nextNumber_made h.wellFormed hnext
  case h_2 => exact ⟨nofun, nofun, nofun, nofun⟩

theorem settled_of_going (hc : m.Settled c)
    (hphase : c.phase ≠ .failing) (unfinished : Nat) (phase : CallPhase) (sent : Bool)
    (hnext : (phase = .puttingArgs ∧ sent = c.sent) ∨ (phase = .sent ∧ sent = true)) :
    m.Settled { c with phase, sent, invokeUnfinishedSeqNo := unfinished } := by
  refine ⟨hc.made, ?_, ?_, ?_⟩
  · rcases hnext with ⟨rfl, -⟩ | ⟨rfl, hsent⟩
    · nofun
    · exact fun _ => hsent
  · rintro (⟨hdone, -⟩ | hready) o hnum
    · exact hc.counts (.inl ⟨hdone, hphase⟩) o hnum
    · rcases hnext with ⟨rfl, -⟩ | ⟨rfl, -⟩ <;> cases hready
  · intro hdone hunsent o hnum
    rcases hnext with ⟨-, rfl⟩ | ⟨-, rfl⟩
    · exact hc.below hdone hunsent o hnum
    · cases hunsent

theorem settled_of_ending (hc : s.order.Settled c) (hrep : (c.completed || s.order.reported c) = true)
    (hphase : phase = c.phase ∨ (c.phase ≠ .failing ∧ phase = .ended)) :
    s.order.Settled { c with phase, inManager, completed } := by
  have hfailing : phase ≠ .failing → c.phase ≠ .failing := by
    rcases hphase with heq | ⟨hne, -⟩
    · exact heq ▸ id
    · exact fun _ => hne
  refine ⟨hc.made, ?_, ?_, ?_⟩
  · intro h
    rcases hphase with heq | ⟨-, heq⟩
    · exact hc.sent (heq ▸ h)
    · simp [heq] at h
  · intro hdone o hnum
    rcases or_eq_true_iff.mp hrep with hcompleted | hreported
    · have hne : phase ≠ .failing := by
        rcases hdone with ⟨-, hne⟩ | heq
        · exact hne
        · simp only at heq
          simp [heq]
      exact hc.counts (.inl ⟨hcompleted, hfailing hne⟩) o hnum
    · exact (of_reported hreported hnum).1
  · intro _ hunsent o hnum
    rcases or_eq_true_iff.mp hrep with hcompleted | hreported
    · exact hc.below hcompleted hunsent o hnum
    · exact (of_reported hreported hnum).2 hunsent

theorem settled_of_finished (hc : m.Settled c)
    (hwf : m.WellFormed) (hsent : c.sent = true) (phase : CallPhase) (inManager : Bool) :
    (m.updateFinishReqSeqNo c.instanceId c.invokeSeqNo).Settled { c with phase, inManager } := by
  refine ⟨?_, fun _ => hsent, ?_, ?_⟩
  · intro serial heq
    exact (hc.made serial heq).trans_le (grows_updateFinishReqSeqNo hwf c.instanceId c.invokeSeqNo).made
  · intro _ o hnum
    have hlookup := hnum.1
    change (m.updateFinishReqSeqNo c.instanceId c.invokeSeqNo).instances.lookup c.instanceId = _ at hlookup
    simp only [updateFinishReqSeqNo, InvokeOrderManager.modify] at hlookup
    split at hlookup
    case h_1 o₀ hentry =>
      rw [lookup_insert] at hlookup
      cases hlookup
      exact InstanceOrdering.counts_finish_of (.inl rfl)
    case h_2 hnone => rw [hnone] at hlookup; cases hlookup
  · intro _ hunsent
    exact absurd (hunsent.symm.trans hsent) false_ne_true

theorem NoGaps.notify (h : s.NoGaps) (hstep : s.notify requestId result = some s') : s'.NoGaps := by
  obtain ⟨c, hlookup, hphase, rfl⟩ := advance_some hstep
  have hc := h.settled requestId c hlookup
  have hsent := hc.sent (.inl hphase)
  split
  case isFalse => exact h
  cases result with
  | retry => exact h
  | success =>
    exact h.store (grows_updateFinishReqSeqNo h.wellFormed _ _)
      (settled_of_finished hc h.wellFormed hsent .readying c.inManager)
  | failure =>
    apply h.set
    refine ⟨hc.made, fun _ => hsent, ?_, ?_⟩
    · rintro (⟨-, hne⟩ | hready)
      · exact absurd rfl hne
      · cases hready
    · intro _ hunsent
      exact absurd (hunsent.symm.trans hsent) false_ne_true

theorem NoGaps.setReady (h : s.NoGaps) (hstep : s.setReady requestId = some s') : s'.NoGaps := by
  obtain ⟨c, hlookup, hphase, rfl⟩ := advance_some hstep
  have hc := h.settled requestId c hlookup
  have hsent := hc.sent (.inr (.inl hphase))
  apply h.set
  refine ⟨hc.made, nofun, fun _ o hnum => hc.counts (.inr hphase) o hnum, ?_⟩
  intro _ hunsent
  exact absurd (hunsent.symm.trans hsent) false_ne_true

theorem NoGaps.step (h : s.NoGaps) (hok : s.reportsBack e = true) (hstep : s.next e = some s') :
    s'.NoGaps := by
  cases e with
  | invokeByInstanceId => exact h.invokeByInstanceId hstep
  | resolved r ok =>
    obtain ⟨c, hlookup, hphase, rfl⟩ := advance_some hstep
    have hc := h.settled r c hlookup
    cases ok with
    | true => exact h.set (settled_of_going hc (by simp [hphase]) _ .puttingArgs _ (.inl ⟨rfl, rfl⟩))
    | false =>
      simp only [reportsBack, hlookup, all_some] at hok
      exact h.set (settled_of_ending hc hok (.inr ⟨by simp [hphase], rfl⟩))
  | putRefArgToDs r ok =>
    obtain ⟨c, hlookup, hphase, rfl⟩ := advance_some hstep
    have hc := h.settled r c hlookup
    cases ok with
    | true => exact h.set (settled_of_going hc (by simp [hphase]) _ .sent _ (.inr ⟨rfl, rfl⟩))
    | false =>
      simp only [reportsBack, hlookup, all_some] at hok
      exact h.set (settled_of_ending hc hok (.inr ⟨by simp [hphase], rfl⟩))
  | notify => exact h.notify hstep
  | setReady => exact h.setReady hstep
  | notifyInvokeSuccess r =>
    obtain ⟨c, hlookup, hphase, rfl⟩ := advance_some hstep
    have hc := h.settled r c hlookup
    exact h.store (grows_updateFinishReqSeqNo h.wellFormed _ _)
      (settled_of_finished hc h.wellFormed (hc.sent (.inr (.inr hphase))) .ended false)
  | cancel r =>
    simp only [next, cancel] at hstep
    split at hstep
    case h_2 => cases hstep
    rename_i c hlookup
    split at hstep
    case isFalse => cases hstep
    case isTrue =>
      cases hstep
      simp only [reportsBack, hlookup, all_some] at hok
      exact h.set (settled_of_ending (h.settled r c hlookup) hok (.inl rfl))
  | update u =>
    cases hstep
    have hgrows := grows_update h.wellFormed u
    exact ⟨hgrows.wellFormed, fun r c hlookup => (h.settled r c hlookup).grow hgrows⟩

end OrderedCalls

/-- When calls with open numbers do not end early, the number of an ended call counts as finished,
and the unfinished one is no unsent call's. -/
theorem ended_call_counts {s : OrderedCalls} {requestId : String} {c : OrderedCall}
    {o : InstanceOrdering} (hrun : orderedCalls.Reach (fun s e => s.reportsBack e = true) s)
    (hcall : s.calls.lookup requestId = some c) (hcompleted : c.completed = true)
    (hphase : c.phase ≠ .failing) (hentry : s.order.instances.lookup c.instanceId = some o)
    (hserial : c.entry = some o.serial) :
    o.counts c.invokeSeqNo = true ∧ (c.sent = false → o.unfinishedSeqNo ≠ c.invokeSeqNo) := by
  have hgaps : s.NoGaps := by
    refine hrun.invariant ?_ ?_
    · rintro s rfl
      exact ⟨nofun, nofun⟩
    · intro s e s' l _ hok h hstep
      exact h.step hok (next_of_step hstep)
  have hc := hgaps.settled requestId c hcall
  refine ⟨hc.counts (.inl ⟨hcompleted, hphase⟩) o ⟨hentry, hserial⟩, ?_⟩
  intro hunsent
  exact (hc.below hcompleted hunsent o ⟨hentry, hserial⟩).ne'

theorem ended_call_counts_failed : ∃ s o c, orderedCalls.Reach (fun s e => s.reportsBack e = true) s ∧
      s.calls.lookup "r2" = some c ∧ s.order.instances.lookup "i" = some o ∧
      c.completed = true ∧ o.unfinishedSeqNo = 0 ∧ c.invokeSeqNo = 1 ∧ o.counts 1 = true := by
  obtain ⟨s, hrun, hs⟩ := orderedCalls.reach_of_run OrderedCalls.reportsBack
    (show orderedCalls.init {} from rfl)
    [.update (.registerInstance "i"), .invokeByInstanceId "r1" "i" false,
      .invokeByInstanceId "r2" "i" false, .resolved "r1" true, .resolved "r2" true,
      .putRefArgToDs "r1" true, .putRefArgToDs "r2" true, .notify "r2" .failure,
      .notifyInvokeSuccess "r2"]
    (fun s => s.calls.lookup "r2" = some ⟨"i", 1, some 0, 0, .ended, false, true, true⟩ ∧
      s.order.instances.lookup "i" = some ⟨2, 0, [1], 0⟩) (by decide)
  exact ⟨s, _, _, hrun, hs.1, hs.2, rfl, rfl, rfl, (ended_call_counts hrun hs.1 rfl nofun hs.2 rfl).1⟩

/-- A call whose dependency fails keeps its number: the next call is sent with it as the unfinished
one. -/
theorem failed_dependency_leaves_gap :
    ∃ s o c c', orderedCalls.Reachable s ∧ s.calls.lookup "r1" = some c ∧
      s.order.instances.lookup c.instanceId = some o ∧ c.entry = some o.serial ∧
      c.completed = true ∧ c.phase = .ended ∧ c.sent = false ∧ o.counts c.invokeSeqNo = false ∧
      s.calls.lookup "r2" = some c' ∧ c'.phase = .sent ∧
      c'.invokeUnfinishedSeqNo = c.invokeSeqNo := by
  obtain ⟨s, hrun, hs⟩ := orderedCalls.reachable_of_run (show orderedCalls.init {} from rfl)
    [.update (.registerInstance "i"), .invokeByInstanceId "r1" "i" false, .resolved "r1" false,
      .invokeByInstanceId "r2" "i" false, .resolved "r2" true, .putRefArgToDs "r2" true]
    (fun s => s.calls.lookup "r1" = some ⟨"i", 0, some 0, 0, .ended, true, false, true⟩ ∧
      s.order.instances.lookup "i" = some ⟨2, 0, [], 0⟩ ∧
      s.calls.lookup "r2" = some ⟨"i", 1, some 0, 0, .sent, true, true, false⟩) (by decide)
  exact ⟨s, _, _, _, hrun, hs.1, hs.2.1, rfl, rfl, rfl, rfl, rfl, hs.2.2, rfl, rfl⟩

end Yuanrong.Libruntime
