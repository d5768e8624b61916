import Yuanrong.Libruntime.OrderedExecutionManager

/-!
# Handlers are started in order

A handler is started when its number is the expected one, which then goes up, so the starts are in
order. But a request may be left behind: the loop only looks at the head of the map, and a jump of
the expected number past a request that waits there leaves it at the head for good.
-/

namespace Yuanrong.Libruntime

open List Option

namespace Invoker

variable {i : Invoker} {req : InvokeReq}

def InOrder (i : Invoker) : Prop :=
  i.started.Pairwise (· < ·) ∧ ∀ n ∈ i.started, n < i.invokeUnfinishedSeqNo

def NoneBehind (i : Invoker) : Prop :=
  ∀ entry ∈ i.waitingInvokeReqs, i.invokeUnfinishedSeqNo ≤ entry.1

@[simp]
theorem receive_started (seqNo unfinishedSeqNo : Nat) (reqId : String) :
    (i.receive seqNo unfinishedSeqNo reqId).started = i.started := by
  unfold receive
  dsimp only
  split <;> rfl

@[simp]
theorem receive_invokeUnfinishedSeqNo (seqNo unfinishedSeqNo : Nat) (reqId : String) :
    (i.receive seqNo unfinishedSeqNo reqId).invokeUnfinishedSeqNo =
      max i.invokeUnfinishedSeqNo unfinishedSeqNo := by
  unfold receive
  dsimp only
  split <;> rfl

theorem InOrder.receive (h : i.InOrder) (seqNo unfinishedSeqNo : Nat) (reqId : String) :
    (i.receive seqNo unfinishedSeqNo reqId).InOrder := by
  unfold InOrder
  rw [receive_started, receive_invokeUnfinishedSeqNo]
  refine ⟨h.1, ?_⟩
  intro n hn
  exact lt_of_lt_of_le (h.2 n hn) (le_max_left _ _)

theorem InOrder.take (h : i.InOrder) (cancelled : Bool) : (i.take cancelled).InOrder := by
  obtain ⟨hpairwise, hbefore⟩ := h
  have hlater : ∀ n ∈ i.started, n < i.invokeUnfinishedSeqNo + 1 := fun n hn =>
    (hbefore n hn).trans (Nat.lt_succ_self _)
  cases cancelled with
  | true => exact ⟨hpairwise, hlater⟩
  | false =>
    refine ⟨?_, ?_⟩
    · apply pairwise_append.mpr
      refine ⟨hpairwise, pairwise_singleton _ _, ?_⟩
      intro n hn k hk
      rw [mem_singleton.mp hk]
      exact hbefore n hn
    · intro n hn
      rcases mem_append.mp hn with hold | hnew
      · exact hlater n hold
      · rw [mem_singleton.mp hnew]
        exact Nat.lt_succ_self _

theorem NoneBehind.receive (h : i.NoneBehind)
    (hjump : ∀ entry ∈ i.waitingInvokeReqs, unfinishedSeqNo ≤ entry.1) :
    (i.receive seqNo unfinishedSeqNo reqId).NoneBehind := by
  have hold : ∀ entry ∈ i.waitingInvokeReqs,
      max i.invokeUnfinishedSeqNo unfinishedSeqNo ≤ entry.1 := fun entry hmem =>
    max_le (h entry hmem) (hjump entry hmem)
  unfold NoneBehind
  rw [receive_invokeUnfinishedSeqNo]
  intro entry hmem
  unfold Invoker.receive at hmem
  dsimp only at hmem
  split at hmem
  · rename_i hahead
    rcases mem_insertWaiting hmem with rfl | hwaits
    · exact hahead
    · exact hold entry hwaits
  · exact hold entry hmem

theorem exists_of_due (hdue : i.due = some req) :
    ∃ rest, i.waitingInvokeReqs = (i.invokeUnfinishedSeqNo, req) :: rest := by
  unfold due at hdue
  split at hdue
  · rename_i k r rest hwaiting
    split at hdue
    · rename_i heq
      cases hdue
      exact ⟨rest, by rw [hwaiting, heq]⟩
    · cases hdue
  · cases hdue

theorem noneBehind_take (hdue : i.due = some req) (cancelled : Bool) : (i.take cancelled).NoneBehind := by
  obtain ⟨rest, hwaiting⟩ := exists_of_due hdue
  intro entry hmem
  have hsorted := i.sorted
  rw [hwaiting] at hsorted
  have hrest : entry ∈ rest := by
    have htail : entry ∈ i.waitingInvokeReqs.tail := hmem
    rwa [hwaiting] at htail
  exact (pairwise_cons.mp hsorted).1 entry hrest

theorem NoneBehind.lt_of_not_due (h : i.NoneBehind) (hdue : i.due = none) :
    ∀ entry ∈ i.waitingInvokeReqs, i.invokeUnfinishedSeqNo < entry.1 := by
  cases hwaiting : i.waitingInvokeReqs with
  | nil => nofun
  | cons head =>
    have hhead : i.invokeUnfinishedSeqNo < head.1 := by
      apply lt_of_le_of_ne (h head (by rw [hwaiting]; exact mem_cons_self))
      intro heq
      unfold due at hdue
      rw [hwaiting] at hdue
      simp only [heq, if_true, reduceCtorEq] at hdue
    have hsorted := i.sorted
    rw [hwaiting] at hsorted
    intro entry hmem
    rcases mem_cons.mp hmem with rfl | hrest
    · exact hhead
    · exact hhead.trans ((pairwise_cons.mp hsorted).1 entry hrest)

end Invoker

namespace OrderedExecutionManager

variable {m m' : OrderedExecutionManager} {e : Event} {invokerId : String}

theorem invoker_insert (other : String) (i : Invoker) :
    ({ m with invokers := m.invokers.insert other i } : OrderedExecutionManager).invoker invokerId =
      if invokerId = other then i else m.invoker invokerId := by
  unfold invoker
  rw [AList.lookup_insert_eq_ite]
  split <;> rfl

inductive Moves (m m' : OrderedExecutionManager) (invokerId : String) : Event → Prop
  | stays {e : Event} : m'.invoker invokerId = m.invoker invokerId →
      (m'.handling = some invokerId ∨ m.handling ≠ some invokerId ∨
        (m.invoker invokerId).due = none) → Moves m m' invokerId e
  | receives {seqNo unfinishedSeqNo : Nat} {reqId : String} :
      m'.invoker invokerId = (m.invoker invokerId).receive seqNo unfinishedSeqNo reqId →
      m'.handling = some invokerId →
      Moves m m' invokerId (.handle invokerId seqNo unfinishedSeqNo reqId)
  | takes {req : InvokeReq} {cancelled : Bool} : (m.invoker invokerId).due = some req →
      m'.invoker invokerId = (m.invoker invokerId).take cancelled → m'.handling = some invokerId →
      Moves m m' invokerId .loop

theorem moves_of_next (hnext : m.next e = some m') (invokerId : String) : Moves m m' invokerId e := by
  cases e with
  | handle id =>
    simp only [next, handle] at hnext
    split_ifs at hnext with hempty hfree
    · cases hnext
      exact .stays rfl (by tauto)
    cases hnext
    by_cases heq : invokerId = id
    · subst heq
      refine .receives ?_ rfl
      exact (invoker_insert _ _).trans (if_pos rfl)
    · refine .stays ((invoker_insert _ _).trans (if_neg heq)) (.inr (.inl ?_))
      rw [hfree]
      exact nofun
  | loop =>
    obtain ⟨id, hid, hnext⟩ := bind_eq_some_iff.mp hnext
    obtain ⟨req, hdue, rfl⟩ := map_eq_some_iff.mp hnext
    by_cases heq : invokerId = id
    · subst heq
      exact .takes hdue ((invoker_insert _ _).trans (if_pos rfl)) hid
    refine .stays ((invoker_insert (m := m) _ _).trans (if_neg heq)) (.inr (.inl ?_))
    rw [hid]
    intro hsome
    exact heq (some.inj hsome).symm
  | handled =>
    obtain ⟨id, hid, hnext⟩ := bind_eq_some_iff.mp hnext
    obtain ⟨hdue, rfl⟩ := ite_some_none_eq_some.mp hnext
    refine .stays rfl (.inr ?_)
    by_cases heq : invokerId = id
    · subst heq
      exact .inr hdue
    left
    rw [hid]
    intro hsome
    exact heq (some.inj hsome).symm
  | findInvoker =>
    simp only [next, findInvoker] at hnext
    split_ifs at hnext with hfresh hempty hfree hnone
    all_goals
      cases hnext
      exact .stays rfl (by tauto)
  | setCancel =>
    obtain ⟨reqId, -, rfl⟩ := map_eq_some_iff.mp hnext
    exact .stays rfl (by tauto)

theorem inOrder_of_reachable (hreach : orderedExecution.Reachable m) (invokerId : String) :
    (m.invoker invokerId).InOrder := by
  refine hreach.invariant (P := fun m => (m.invoker invokerId).InOrder) ?_ ?_
  · rintro m rfl
    exact ⟨List.Pairwise.nil, fun n hn => by cases hn⟩
  intro m e m' l _ _ hinv hstep
  obtain ⟨m₁, hnext, ⟨⟩⟩ := map_eq_some_iff.mp hstep
  cases moves_of_next hnext invokerId with
  | stays hsame =>
    rw [hsame]
    exact hinv
  | receives hreceive =>
    rw [hreceive]
    exact hinv.receive _ _ _
  | takes _ htake =>
    rw [htake]
    exact hinv.take _

/-- No call jumps past a request of its invoker that waits. -/
def jumpsPastNone (m : OrderedExecutionManager) : Event → Bool
  | .handle invokerId _ unfinishedSeqNo _ =>
    (m.invoker invokerId).waitingInvokeReqs.all fun entry => unfinishedSeqNo ≤ entry.1
  | _ => true

/-- Nothing is behind, and outside of `Handle` nothing is due. -/
def Settled (m : OrderedExecutionManager) : Prop :=
  ∀ invokerId, (m.invoker invokerId).NoneBehind ∧
    (m.handling ≠ some invokerId → (m.invoker invokerId).due = none)

theorem settled_step (hok : m.jumpsPastNone e = true) (hinv : m.Settled)
    (hnext : m.next e = some m') : m'.Settled := by
  intro invokerId
  obtain ⟨hbehind, hdue⟩ := hinv invokerId
  cases moves_of_next hnext invokerId with
  | stays hsame hidle =>
    rw [hsame]
    refine ⟨hbehind, ?_⟩
    intro hnot
    rcases hidle with hhandling | hother | hnone
    · exact absurd hhandling hnot
    · exact hdue hother
    · exact hnone
  | receives hreceive hhandling =>
    rw [hreceive]
    refine ⟨hbehind.receive ?_, fun hnot => absurd hhandling hnot⟩
    intro entry hmem
    exact of_decide_eq_true (all_eq_true.mp hok entry hmem)
  | takes hreq htake hhandling =>
    rw [htake]
    exact ⟨Invoker.noneBehind_take hreq _, fun hnot => absurd hhandling hnot⟩

theorem settled_of_reach (hreach : orderedExecution.Reach (fun m e => m.jumpsPastNone e = true) m) :
    m.Settled := by
  refine hreach.invariant ?_ ?_
  · rintro m rfl invokerId
    exact ⟨nofun, fun _ => rfl⟩
  intro m e m' l _ hok hinv hstep
  obtain ⟨m₁, hnext, ⟨⟩⟩ := map_eq_some_iff.mp hstep
  exact settled_step hok hinv hnext

end OrderedExecutionManager

open OrderedExecutionManager in
/-- Handlers are started in order, none twice. If no waiting number is declared finished, none up to
the expected one waits. -/
theorem handlers_start_in_order (m : OrderedExecutionManager) (hrun : orderedExecution.Reachable m) :
    (∀ invokerId, (m.invoker invokerId).started.Pairwise (· < ·)) ∧
      (orderedExecution.Reach (fun m e => m.jumpsPastNone e = true) m →
        ∀ invokerId, m.handling ≠ some invokerId → ∀ entry ∈ (m.invoker invokerId).waitingInvokeReqs,
            (m.invoker invokerId).invokeUnfinishedSeqNo < entry.1) := by
  refine ⟨fun invokerId => (inOrder_of_reachable hrun invokerId).1, ?_⟩
  intro hreach invokerId hnot
  obtain ⟨hbehind, hdue⟩ := settled_of_reach hreach invokerId
  exact hbehind.lt_of_not_due (hdue hnot)

theorem handlers_start_in_order_cancelled : ∃ m : OrderedExecutionManager,
    orderedExecution.Reachable m ∧ m.handling = none ∧ (m.invoker "invoker").started = [0, 2] ∧
      (m.invoker "invoker").started.Pairwise (· < ·) ∧
      ∀ entry ∈ (m.invoker "invoker").waitingInvokeReqs,
        (m.invoker "invoker").invokeUnfinishedSeqNo < entry.1 := by
  obtain ⟨m, hreach, hm⟩ := orderedExecution.reach_of_run OrderedExecutionManager.jumpsPastNone rfl
    [.handle "invoker" 2 0 "c", .handled, .handle "invoker" 1 0 "b", .handled,
      .handle "invoker" 5 0 "f", .handled, .findInvoker 1 "invoker" "b",
      .handle "invoker" 0 0 "a", .loop, .setCancel 1, .loop, .loop, .handled]
    (fun m => m.handling = none ∧ (m.invoker "invoker").started = [0, 2]) (by decide)
  obtain ⟨horder, hlater⟩ := handlers_start_in_order m hreach.reachable
  refine ⟨m, hreach.reachable, hm.1, hm.2, horder "invoker", hlater hreach "invoker" ?_⟩
  rw [hm.1]
  exact nofun

/-- Call 5 declares 3 finished while call 2 waits: call 4 is never started. -/
theorem request_left_behind : ∃ m : OrderedExecutionManager,
    orderedExecution.Reachable m ∧ m.handling = none ∧
      (m.invoker "invoker").invokeUnfinishedSeqNo = 4 ∧
      (m.invoker "invoker").waitingInvokeReqs = [(2, ⟨"c"⟩), (4, ⟨"e"⟩), (5, ⟨"f"⟩)] ∧
      (m.invoker "invoker").started = [] :=
  orderedExecution.reachable_of_run rfl
    [.handle "invoker" 2 0 "c", .handled, .handle "invoker" 5 4 "f", .handled,
      .handle "invoker" 4 4 "e", .handled] _ (by decide)

end Yuanrong.Libruntime
