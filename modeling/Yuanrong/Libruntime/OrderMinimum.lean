import Yuanrong.Libruntime.SequenceGaps

/-!
# The least number that is not finished

A report takes off the set what follows the least unfinished number. `NotifyGroupInstance` only
raises that number, and leaves the next one in the set if it was reported before.
-/

namespace Yuanrong.Libruntime

open AList Option List Function

/-- The group instances, and the numbers of each instance that were reported finished. -/
structure OrderReports where
  order : InvokeOrderManager := {}
  groups : List String := []
  reported : String → List Nat := fun _ => []

namespace OrderReports

inductive Event
  | createInstance (instanceId : String)
  | createGroupInstance (instanceId : String)
  | invoke (instanceId : String) (isGetInstance : Bool)
  | notifyInvokeSuccess (instanceId : String) (invokeSeqNo : Nat)
  | notifyGroupInstance (instanceId : String)

variable (s : OrderReports)

/-- Only numbers that were given out are reported. -/
def report (id : String) (seqNo : Nat) (order : InvokeOrderManager) : Option OrderReports :=
  if (s.order.instances.lookup id).any (seqNo < ·.orderingCounter) then
    some { s with order, reported := Function.update s.reported id (seqNo :: s.reported id) }
  else none

def next : Event → Option OrderReports
  | .createInstance id => some { s with order := s.order.createInstance id }
  | .createGroupInstance id => some { s with
      order := s.order.createGroupInstance id
      groups := if (s.order.instances.lookup id).isNone then id :: s.groups else s.groups }
  | .invoke id isGetInstance => some { s with order := s.order.invoke id isGetInstance }
  | .notifyInvokeSuccess id seqNo =>
    -- no call has the first number of a group instance
    if seqNo = 0 ∧ id ∈ s.groups then none
    else s.report id seqNo (s.order.updateFinishReqSeqNo id seqNo)
  | .notifyGroupInstance id =>
    if id ∈ s.groups ∧ 0 ∉ s.reported id then s.report id 0 (s.order.notifyGroupInstance id) else none

/-- A group instance is notified before the call with its second number ends. -/
def inTurn : Event → Bool
  | .notifyGroupInstance id => 1 ∉ s.reported id
  | _ => true

end OrderReports

def orderReports : StepSystem OrderReports OrderReports.Event Unit where
  init s := s = {}
  step s e := (s.next e).map (·, ())

theorem takeFinished_spec (hsorted : l.Pairwise (· < ·)) (hle : ∀ k ∈ l, n ≤ k) :
    (takeFinished n l).2.Pairwise (· < ·) ∧ (takeFinished n l).1 ∉ l ∧
      (∀ k, n ≤ k → k < (takeFinished n l).1 → k ∈ l) ∧
      ∀ k, k ∈ (takeFinished n l).2 ↔ k ∈ l ∧ (takeFinished n l).1 < k := by
  induction l generalizing n with
  | nil => simp [takeFinished]
  | cons k rest ih =>
    obtain ⟨hfirst, hrest⟩ := pairwise_cons.mp hsorted
    unfold takeFinished
    split
    case isTrue heq =>
      subst heq
      obtain ⟨htail, hnot, hmem, hleft⟩ := ih hrest hfirst
      have hgrows := takeFinished_le (k + 1) rest
      refine ⟨htail, by grind, by grind, by grind⟩
    case isFalse hne =>
      have hlt : n < k := lt_of_le_of_ne (hle k mem_cons_self) (Ne.symm hne)
      refine ⟨hsorted, by grind, by grind, by grind⟩

namespace InstanceOrdering

variable {o : InstanceOrdering} {reported : List Nat}

structure Exact (o : InstanceOrdering) (reported : List Nat) : Prop where
  sorted : o.finishedOrderedReqSeqNo.Pairwise (· < ·)
  finished : ∀ n, n ∈ o.finishedOrderedReqSeqNo ↔ n ∈ reported ∧ o.unfinishedSeqNo < n
  unreported : o.unfinishedSeqNo ∉ reported
  below : ∀ n < o.unfinishedSeqNo, n ∈ reported
  issued : ∀ n ∈ reported, n < o.orderingCounter

theorem sorted_emplace (hsorted : o.finishedOrderedReqSeqNo.Pairwise (· < ·)) :
    (o.emplace seqNo).Pairwise (· < ·) := by
  unfold emplace
  split
  · exact hsorted
  rename_i hnot
  have hle := (hsorted.imp le_of_lt).orderedInsert seqNo o.finishedOrderedReqSeqNo
  have hnodup := (perm_orderedInsert (· ≤ ·) seqNo o.finishedOrderedReqSeqNo).nodup_iff.mpr
    (nodup_cons.mpr ⟨by simpa using hnot, hsorted.imp ne_of_lt⟩)
  exact hle.imp₂ (fun _ _ => lt_of_le_of_ne) hnodup

theorem Exact.finish (h : o.Exact reported) (hissued : seqNo < o.orderingCounter) :
    (o.finish seqNo).Exact (seqNo :: reported) := by
  have hall : ∀ n ∈ seqNo :: reported, n < o.orderingCounter :=
    forall_mem_cons.mpr ⟨hissued, h.issued⟩
  obtain ⟨hsorted, hfinished, hunreported, hbelow, -⟩ := h
  unfold InstanceOrdering.finish
  split
  case isTrue hold => exact ⟨hsorted, by grind, by grind, by grind, hall⟩
  case isFalse hnew =>
    have hle : ∀ k ∈ o.emplace seqNo, o.unfinishedSeqNo ≤ k := by
      intro k hk
      rcases mem_emplace.mp hk with rfl | hk
      · exact Nat.le_of_not_lt hnew
      · exact ((hfinished k).mp hk).2.le
    obtain ⟨htail, hfree, hmem, hleft⟩ := takeFinished_spec (sorted_emplace hsorted) hle
    have hgrows := takeFinished_le o.unfinishedSeqNo (o.emplace seqNo)
    simp only [mem_emplace, hfinished] at hfree hmem hleft
    exact ⟨htail, by grind, by grind, by grind, hall⟩

theorem Exact.notified (h : o.Exact reported) (hissued : 0 < o.orderingCounter) (hzero : 0 ∉ reported)
    (hone : 1 ∉ reported) : Exact { o with unfinishedSeqNo := o.unfinishedSeqNo + 1 } (0 :: reported) := by
  have hfirst : o.unfinishedSeqNo = 0 := by
    by_contra hpos
    exact hzero (h.below 0 (Nat.pos_of_ne_zero hpos))
  refine ⟨h.sorted, ?_, ?_, ?_, forall_mem_cons.mpr ⟨hissued, h.issued⟩⟩
  · grind [h.finished]
  · grind
  · grind

end InstanceOrdering

namespace InvokeOrderManager

variable {m : InvokeOrderManager} {reported : String → List Nat} {id : String}

def Exact (m : InvokeOrderManager) (reported : String → List Nat) : Prop :=
  ∀ id, (m.instances.lookup id).elim (reported id = []) (·.Exact (reported id))

theorem Exact.of_lookup (h : m.Exact reported)
    (hlookup : m.instances.lookup id = some o) : o.Exact (reported id) := by
  have hid := h id
  rwa [hlookup] at hid

theorem Exact.insertNew (h : m.Exact reported) (counter : Nat) :
    (m.insertNew id counter 0).Exact reported := by
  unfold InvokeOrderManager.insertNew
  split
  · exact h
  rename_i hnew
  intro id'
  rw [lookup_insert_eq_ite]
  split
  · rename_i heq
    have hold := h id
    rw [not_isSome_iff_eq_none.mp fun hsome => hnew (.inr hsome)] at hold
    rw [heq, hold]
    exact ⟨.nil, by simp, by simp, by simp, by simp⟩
  · exact h id'

theorem Exact.modify (h : m.Exact reported) (hnone : m.instances.lookup id = none → l = reported id)
    (hf : ∀ o, m.instances.lookup id = some o → (f o).Exact l) :
    (m.modify id f).Exact (Function.update reported id l) := by
  intro id'
  unfold InvokeOrderManager.modify
  split
  case h_1 o hlookup =>
    rw [lookup_insert_eq_ite, Function.update_apply]
    split
    · exact hf o hlookup
    · exact h id'
  case h_2 hlookup =>
    rw [hnone hlookup, update_eq_self]
    exact h id'

theorem Exact.invoke (h : m.Exact reported) (isGetInstance : Bool) :
    (m.invoke id isGetInstance).Exact reported := by
  unfold InvokeOrderManager.invoke
  split
  · exact h
  have hentry : (m.entryFor id isGetInstance).Exact reported := by
    cases isGetInstance
    · exact h
    · exact h.insertNew 0
  rw [← update_eq_self id reported]
  refine hentry.modify (fun _ => rfl) fun o hlookup => ?_
  have ho := hentry.of_lookup hlookup
  exact { ho with issued := fun n hn => Nat.lt_succ_of_lt (ho.issued n hn) }

end InvokeOrderManager

namespace OrderReports

variable {s : OrderReports} {e : Event} {id : String}

theorem exact_report (h : s.order.Exact s.reported)
    (hf : ∀ o, o.Exact (s.reported id) → seqNo < o.orderingCounter → (f o).Exact (seqNo :: s.reported id))
    (hreport : s.report id seqNo (s.order.modify id f) = some s') : s'.order.Exact s'.reported := by
  obtain ⟨hany, rfl⟩ := ite_some_none_eq_some.mp hreport
  refine h.modify (fun hnone => ?_) fun o hlookup => ?_
  · rw [hnone] at hany
    cases hany
  · rw [hlookup] at hany
    exact hf o (h.of_lookup hlookup) (of_decide_eq_true hany)

theorem exact_next (h : s.order.Exact s.reported) (hturn : s.inTurn e = true)
    (hstep : s.next e = some s') : s'.order.Exact s'.reported := by
  cases e with
  | createInstance | createGroupInstance =>
    cases hstep
    exact h.insertNew 1
  | invoke _ isGetInstance =>
    cases hstep
    exact h.invoke isGetInstance
  | notifyInvokeSuccess =>
    obtain ⟨-, hreport⟩ := ite_none_left_eq_some.mp hstep
    exact exact_report h (fun o ho => ho.finish) hreport
  | notifyGroupInstance =>
    obtain ⟨⟨-, hzero⟩, hreport⟩ := ite_none_right_eq_some.mp hstep
    exact exact_report h (fun o ho hissued => ho.notified hissued hzero (of_decide_eq_true hturn)) hreport

end OrderReports

/-- If group instances are notified in turn, the unfinished number is the least one not reported,
and the set has those reported above it. -/
theorem unfinished_is_least {s : OrderReports} {id : String} {o : InstanceOrdering}
    (hrun : orderReports.Reach (fun s e => s.inTurn e = true) s)
    (hentry : s.order.instances.lookup id = some o) :
    IsLeast {n | n ≤ o.orderingCounter ∧ n ∉ s.reported id} o.unfinishedSeqNo ∧
      (∀ n, n ∈ o.finishedOrderedReqSeqNo ↔ n ∈ s.reported id ∧ o.unfinishedSeqNo < n) ∧
      o.unfinishedSeqNo ≤ o.orderingCounter := by
  have hexact : s.order.Exact s.reported := by
    refine hrun.invariant (P := fun s => s.order.Exact s.reported) ?_ ?_
    · rintro s rfl
      exact fun _ => rfl
    · intro s e s' l _ hturn h hstep
      exact OrderReports.exact_next h hturn (next_of_step hstep)
  have h := hexact.of_lookup hentry
  have hle : o.unfinishedSeqNo ≤ o.orderingCounter := by
    by_contra hlt
    exact Nat.lt_irrefl _ (h.issued _ (h.below _ (Nat.lt_of_not_le hlt)))
  refine ⟨⟨⟨hle, h.unreported⟩, ?_⟩, h.finished, hle⟩
  rintro n ⟨-, hn⟩
  exact Nat.le_of_not_lt fun hlt => hn (h.below n hlt)

theorem unfinished_is_least_group : ∃ s o, s.order.instances.lookup "g" = some o ∧
      o.finishedOrderedReqSeqNo = [2] ∧
      IsLeast {n | n ≤ o.orderingCounter ∧ n ∉ OrderReports.reported s "g"} o.unfinishedSeqNo := by
  obtain ⟨s, hrun, o, hentry, hfinished⟩ := orderReports.reach_of_run OrderReports.inTurn
    (show orderReports.init {} from rfl)
    [.createGroupInstance "g", .invoke "g" false, .invoke "g" false, .notifyInvokeSuccess "g" 2,
      .notifyGroupInstance "g"]
    (fun s => ∃ o, s.order.instances.lookup "g" = some o ∧ o.finishedOrderedReqSeqNo = [2]) (by decide)
  exact ⟨s, o, hentry, hfinished, (unfinished_is_least hrun hentry).1⟩

/-- The call ends before the group instance is notified: the unfinished number is a reported one. -/
theorem unfinished_was_reported : ∃ s, orderReports.Reachable s ∧
      ∃ o, s.order.instances.lookup "g" = some o ∧ o.unfinishedSeqNo = 1 ∧ 1 ∈ s.reported "g" ∧
        o.finishedOrderedReqSeqNo = [1] :=
  orderReports.reachable_of_run (show orderReports.init {} from rfl)
    [.createGroupInstance "g", .invoke "g" false, .notifyInvokeSuccess "g" 1, .notifyGroupInstance "g"]
    _ (by decide)

end Yuanrong.Libruntime
