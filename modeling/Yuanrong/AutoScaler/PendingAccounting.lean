import Yuanrong.AutoScaler.System

/-!
# The threads that are pending

`pendingInsThdNum` goes up by the concurrency for every instance to be created and down for every
one to be deleted, and back when the goroutine that does it is through. A deletion that cancels a
creation takes its own change back but not that of the creation, whose goroutine never runs.
-/

namespace Yuanrong.Scaling

open AList List Option Bool Nat Int

namespace AutoScaler

variable (sc : AutoScaler)

theorem scaleUpInstances_eq (metrics : Option InvokeMetrics) (reqNum : Nat) :
    ∃ remainedInsThdReqNum, (sc.scaleUpInstances metrics reqNum).1 =
      { sc with
        minScaleDemand := 0
        remainedInsThdReqNum
        pendingInsThdNum :=
          sc.pendingInsThdNum + (sc.scaleUpInstances metrics reqNum).2 * sc.concurrentNum } := by
  unfold scaleUpInstances handlePendingInsNumIncrease
  cases metrics with
  | none => exact ⟨_, rfl⟩
  | some =>
    dsimp only
    split
    · exact ⟨_, by rw [zero_mul, add_zero]⟩
    split
    · exact ⟨_, rfl⟩
    · exact ⟨_, by rw [zero_mul, add_zero]⟩

theorem scaleDownInstances_eq (metrics : Option InvokeMetrics) : (sc.scaleDownInstances metrics).1 =
    { sc with pendingInsThdNum :=
        sc.pendingInsThdNum - (sc.scaleDownInstances metrics).2 * sc.concurrentNum } := by
  unfold scaleDownInstances handlePendingInsNumDecrease
  cases metrics with
  | none => rfl
  | some =>
    dsimp only
    split
    · simp
    split
    · rfl
    · simp

section

variable (metrics : Option InvokeMetrics) (hpos : 0 < sc.concurrentNum)
include hpos

theorem scaleUpInstances_nonneg (reqNum : Nat) : 0 ≤ (sc.scaleUpInstances metrics reqNum).2 := by
  unfold scaleUpInstances
  cases metrics with
  | none => exact ceil_nonneg (div_nonneg (le_max_right _ _) (by positivity))
  | some =>
    dsimp only
    split
    · rfl
    split
    case isTrue hlt => exact hlt.le
    case isFalse => rfl

theorem scaleDownInstances_nonneg : 0 ≤ (sc.scaleDownInstances metrics).2 := by
  unfold scaleDownInstances
  cases metrics with
  | none => exact floor_nonneg.mpr (div_nonneg (neg_nonneg.mpr (min_le_right _ 0)) (by positivity))
  | some =>
    dsimp only
    split
    · rfl
    split
    case isTrue hlt => exact hlt.le
    case isFalse => rfl

end

theorem triggerScale_eq (htrigger : sc.triggerScale minConcurrency = some sc') : sc' = { sc with
      minScaleDemand := max sc.minScaleDemand minConcurrency
      autoScaleUpFlag := true
      scaleUpTriggerCh := sc.scaleUpTriggerCh || !sc.autoScaleUpFlag } := by
  have hdemand : (if sc.minScaleDemand < minConcurrency then
      { sc with minScaleDemand := minConcurrency } else sc) =
        { sc with minScaleDemand := max sc.minScaleDemand minConcurrency } := by
    split
    case isTrue hlt => rw [max_eq_right hlt.le]
    case isFalse hle => rw [max_eq_left (not_lt.mp hle)]
  unfold triggerScale at htrigger
  rw [hdemand] at htrigger
  cases hflag : sc.autoScaleUpFlag with
  | true | false => simp_all

end AutoScaler

namespace InstanceCreateQueue

variable {iq : InstanceCreateQueue}

structure Linked (iq : InstanceCreateQueue) : Prop where
  nodup : iq.queue.Nodup
  createHead : iq.createHead = iq.queue.head?
  cancelHead : iq.cancelHead = iq.queue.getLast?

theorem Linked.push (hlinked : iq.Linked) (hnew : request ∉ iq.queue) : (iq.push request).Linked where
  nodup := by
    rw [InstanceCreateQueue.push, ← concat_eq_append, nodup_concat]
    exact ⟨hnew, hlinked.nodup⟩
  createHead := by
    simp only [InstanceCreateQueue.push, hlinked.createHead]
    cases iq.queue with
    | nil => simp
    | cons => simp
  cancelHead := by simp [InstanceCreateQueue.push]

theorem remove_front (hlinked : iq.Linked) (hqueue : iq.queue = request :: rest) :
    (iq.remove request).queue = rest ∧ (iq.remove request).Linked := by
  obtain ⟨hnodup, hcreate, hcancel⟩ := hlinked
  rw [hqueue] at hnodup hcreate hcancel
  obtain ⟨hnot, hrest⟩ := nodup_cons.mp hnodup
  have herase : (iq.remove request).queue = rest := by simp [remove, hqueue]
  refine ⟨herase, by rwa [herase], ?_, ?_⟩
  · rw [herase]
    simp [remove, hcreate, next, hqueue]
  rw [herase]
  simp only [remove, hcancel, prev, hqueue]
  cases rest with
  | nil => simp
  | cons =>
    rw [getLast?_cons_cons, if_neg]
    intro hlast
    exact hnot (mem_of_getLast? hlast)

theorem getForCreate_spec (hlinked : iq.Linked)
    (hget : iq.getForCreate = some (request, iq')) : iq.queue = request :: iq'.queue ∧ iq'.Linked := by
  unfold getForCreate at hget
  split at hget
  · cases hget
  obtain ⟨r, hhead, ⟨⟩⟩ := map_eq_some_iff.mp hget
  rw [hlinked.createHead] at hhead
  obtain ⟨rest, hqueue⟩ := head?_eq_some_iff.mp hhead
  obtain ⟨hrest, hlinked'⟩ := remove_front hlinked hqueue
  rw [hrest]
  exact ⟨hqueue, hlinked'⟩

end InstanceCreateQueue

namespace System

variable {cfg : Config} {s s' : System} {e : Event}

/-- The creations that are decided and not through, less the deletions. -/
def underWay (s : System) : Int :=
  s.createQueue.queue.length + s.toPush + s.creates.len - s.downs.len

/-- A request is queued or has a goroutine, and all numbers are below `nextRef`. -/
structure Numbered (s : System) : Prop where
  linked : s.createQueue.Linked
  queued : ∀ x ∈ s.createQueue.queue, x < s.nextRef ∧ s.creates.lookup x = none
  creates : ∀ x pc, s.creates.lookup x = some pc → x < s.nextRef
  downs : ∀ x pc, s.downs.lookup x = some pc → x < s.nextRef

structure Idle (s s' : System) : Prop where
  pendingInsThdNum : s'.sc.pendingInsThdNum = s.sc.pendingInsThdNum
  concurrentNum : s'.sc.concurrentNum = s.sc.concurrentNum
  queue : s'.createQueue.queue = s.createQueue.queue
  linked : s.createQueue.Linked → s'.createQueue.Linked
  creates : s'.creates = s.creates
  downs : s'.downs = s.downs
  toPush : s'.toPush = s.toPush
  nextRef : s'.nextRef = s.nextRef
  funcDeleted : s'.funcDeleted = s.funcDeleted

/-- What the scaler counts is what is under way, for a function that is not deleted. -/
structure Accounted (s : System) : Prop extends s.Numbered where
  positive : 0 < s.sc.concurrentNum
  alive : s.funcDeleted = false
  pending : s.sc.pendingInsThdNum = s.sc.concurrentNum * s.underWay

theorem Accounted.idle (hacc : s.Accounted) (hidle : Idle s s') : s'.Accounted where
  linked := hidle.linked hacc.linked
  queued := by simpa only [hidle.queue, hidle.nextRef, hidle.creates] using hacc.queued
  creates := by simpa only [hidle.nextRef, hidle.creates] using hacc.creates
  downs := by simpa only [hidle.nextRef, hidle.downs] using hacc.downs
  positive := by simpa only [hidle.concurrentNum] using hacc.positive
  alive := by simpa only [hidle.funcDeleted] using hacc.alive
  pending := by
    simpa only [underWay, hidle.pendingInsThdNum, hidle.concurrentNum, hidle.queue, hidle.toPush,
      hidle.creates, hidle.downs] using hacc.pending

variable {sc : AutoScaler} {scaleUpChan ticker tick stopCh : Bool} {downLoop : DownLoopPc}
  {announced unannounced : Nat}

theorem Idle.of_eq (hsc : sc.concurrentNum = s.sc.concurrentNum ∧
    sc.pendingInsThdNum = s.sc.pendingInsThdNum) : Idle s { s with
      sc, scaleUpChan, ticker, tick, downLoop, announced, unannounced, stopCh } :=
  ⟨hsc.2, hsc.1, rfl, id, rfl, rfl, rfl, rfl, rfl⟩

theorem locked_eq_some (hlocked : s.locked f = some s') : s.toPush = 0 ∧ f s.sc = some s' := by
  obtain ⟨hzero, hlocked⟩ := ite_none_right_eq_some.mp hlocked
  exact ⟨hzero, hlocked⟩

variable {pc : UpLoopPc}

theorem up_eq_some {next : Option System} (hup : s.up pc next = some s') :
    s.upLoop = pc ∧ next = some s' := by
  obtain ⟨hpc, hup⟩ := ite_none_right_eq_some.mp hup
  exact ⟨hpc, hup⟩

theorem toPush_of_upLoop (hpc : s.upLoop = pc) (hnot : ∀ left, pc ≠ .pushing left) : s.toPush = 0 := by
  unfold toPush
  split
  case h_1 left hpush => exact absurd (hpc.symm.trans hpush) (hnot left)
  case h_2 => rfl

theorem toPush_pushes (s : System) (left : Nat) : { s with upLoop := pushes left }.toPush = left := by
  unfold toPush pushes
  by_cases hzero : left = 0
  · simp [hzero]
  · simp [hzero]

theorem scaleUpInstances_accounted (hacc : s.Accounted)
    (hstep : s.scaleUpInstances metrics = some s') : s'.Accounted := by
  obtain ⟨hpc, hstep⟩ := up_eq_some hstep
  obtain ⟨hzero, ⟨⟩⟩ := locked_eq_some hstep
  obtain ⟨remained, hsc⟩ := s.sc.scaleUpInstances_eq metrics s.reqNum
  have hnum := toNat_of_nonneg (s.sc.scaleUpInstances_nonneg metrics hacc.positive s.reqNum)
  refine ⟨{ hacc with }, by rw [hsc]; exact hacc.positive, hacc.alive, ?_⟩
  have hold := hacc.pending
  have hleft := toPush_pushes s (s.sc.scaleUpInstances metrics s.reqNum).2.toNat
  unfold underWay at hold ⊢
  rw [hzero] at hold
  change (s.sc.scaleUpInstances metrics s.reqNum).1.pendingInsThdNum =
    (s.sc.scaleUpInstances metrics s.reqNum).1.concurrentNum *
      (s.createQueue.queue.length + toPush { s with upLoop := pushes _ } + s.creates.len - s.downs.len)
  rw [hsc, hleft, hnum]
  dsimp only
  rw [hold]
  ring

theorem push_accounted (hacc : s.Accounted) (hstep : s.push = some s') : s'.Accounted := by
  unfold push at hstep
  split at hstep
  case h_2 => cases hstep
  rename_i left hpc
  cases hstep
  have hnew : s.nextRef ∉ s.createQueue.queue :=
    fun hmem => absurd (hacc.queued _ hmem).1 (lt_irrefl _)
  refine ⟨⟨hacc.linked.push hnew, ?_, ?_, ?_⟩, hacc.positive, hacc.alive, ?_⟩
  · intro x hx
    rcases mem_append.mp hx with hx | hx
    · exact ⟨lt_succ_of_lt (hacc.queued x hx).1, (hacc.queued x hx).2⟩
    rw [mem_singleton] at hx
    subst hx
    exact ⟨lt_succ_self _, eq_none_iff_forall_ne_some.mpr fun pc hpc => lt_irrefl _ (hacc.creates _ pc hpc)⟩
  · exact fun x pc hx => lt_succ_of_lt (hacc.creates x pc hx)
  · exact fun x pc hx => lt_succ_of_lt (hacc.downs x pc hx)
  · have hold := hacc.pending
    have htoPush : s.toPush = left + 1 := by simp [toPush, hpc]
    have hleft := toPush_pushes s left
    unfold underWay at hold ⊢
    change s.sc.pendingInsThdNum = s.sc.concurrentNum *
      ((s.createQueue.queue ++ [s.nextRef]).length + toPush { s with upLoop := pushes left } +
        s.creates.len - s.downs.len)
    rw [hold, hleft, htoPush, length_append, length_singleton]
    push_cast
    ring

section

variable {downs : FinMap Nat DownPc} {nextRef : Nat}
  (hfresh : ∀ x pc, downs.lookup x = some pc → x < nextRef) (n : Nat)
include hfresh n

theorem lookup_spawn_of_ge : ∀ x pc, (spawn downs nextRef n).lookup x = some pc → x < nextRef + n := by
  induction n with
  | zero => exact hfresh
  | succ _ ih =>
    refine forall_lookup_insert ?_ fun x pc hx => ?_
    · omega
    · have hlt := ih x pc hx
      omega

theorem len_spawn : (spawn downs nextRef n).len = downs.len + n := by
  induction n with
  | zero => rfl
  | succ n ih =>
    rw [spawn, len_insert_of_none, ih]
    · rfl
    · exact eq_none_iff_forall_ne_some.mpr fun pc hpc => lt_irrefl _ (lookup_spawn_of_ge hfresh n _ pc hpc)

end

section

variable (hacc : s.Accounted)
include hacc

theorem scaleDownInstances_accounted (hstep : s.scaleDownInstances metrics = some s') : s'.Accounted := by
  obtain ⟨-, hstep⟩ := ite_none_right_eq_some.mp hstep
  obtain ⟨-, ⟨⟩⟩ := locked_eq_some hstep
  have hsc := s.sc.scaleDownInstances_eq metrics
  have hnum := toNat_of_nonneg (s.sc.scaleDownInstances_nonneg metrics hacc.positive)
  refine ⟨⟨hacc.linked, ?_, ?_, lookup_spawn_of_ge hacc.downs _⟩, by rw [hsc]; exact hacc.positive,
    hacc.alive, ?_⟩
  · exact fun x hx => ⟨Nat.lt_add_right _ (hacc.queued x hx).1, (hacc.queued x hx).2⟩
  · exact fun x pc hx => Nat.lt_add_right _ (hacc.creates x pc hx)
  have hold := hacc.pending
  unfold underWay at hold ⊢
  change (s.sc.scaleDownInstances metrics).1.pendingInsThdNum =
    (s.sc.scaleDownInstances metrics).1.concurrentNum * (s.createQueue.queue.length + s.toPush +
      s.creates.len - (spawn s.downs s.nextRef (s.sc.scaleDownInstances metrics).2.toNat).len)
  rw [hsc, len_spawn hacc.downs, natCast_add, hnum]
  dsimp only
  rw [hold]
  ring

theorem getForCreate_accounted (hstep : s.getForCreate cfg = some s') : s'.Accounted := by
  obtain ⟨⟨request, createQueue⟩, hget, rfl⟩ := map_eq_some_iff.mp hstep
  obtain ⟨hqueue, hlinked⟩ := InstanceCreateQueue.getForCreate_spec hacc.linked hget
  have hnodup := hacc.linked.nodup
  rw [hqueue] at hnodup
  have hmem : ∀ x ∈ createQueue.queue, x ∈ s.createQueue.queue := by
    intro x hx
    rw [hqueue]
    exact mem_cons_of_mem request hx
  have hrequest := hacc.queued request (by rw [hqueue]; exact mem_cons_self)
  refine ⟨⟨hlinked, ?_, ?_, hacc.downs⟩, hacc.positive, hacc.alive, ?_⟩
  · intro x hx
    refine ⟨(hacc.queued x (hmem x hx)).1, ?_⟩
    rw [lookup_insert_eq_ite, if_neg]
    · exact (hacc.queued x (hmem x hx)).2
    · rintro rfl
      exact (nodup_cons.mp hnodup).1 hx
  · exact forall_lookup_insert hrequest.1 hacc.creates
  · have hold := hacc.pending
    unfold underWay at hold ⊢
    rw [hqueue, length_cons] at hold
    dsimp only [toPush] at hold ⊢
    rw [hold, len_insert_of_none _ hrequest.2]
    push_cast
    ring

theorem setCreate_accounted {pc : CreatePc} (hlookup : s.creates.lookup request = some pc) (pc' : CreatePc) :
    { s with creates := s.creates.insert request pc' }.Accounted := by
  refine ⟨⟨hacc.linked, ?_, ?_, hacc.downs⟩, hacc.positive, hacc.alive, ?_⟩
  · intro x hx
    refine ⟨(hacc.queued x hx).1, ?_⟩
    rw [lookup_insert_eq_ite, if_neg]
    · exact (hacc.queued x hx).2
    · rintro rfl
      exact absurd (hlookup.symm.trans (hacc.queued _ hx).2) (by simp)
  · exact forall_lookup_insert (hacc.creates _ _ hlookup) hacc.creates
  · have hold := hacc.pending
    unfold underWay at hold ⊢
    dsimp only [toPush] at hold ⊢
    rw [hold, len_insert_of_some _ hlookup]

theorem setDown_accounted {pc : DownPc} (hlookup : s.downs.lookup g = some pc) (pc' : DownPc) :
    { s with downs := s.downs.insert g pc' }.Accounted := by
  refine ⟨{ hacc with downs := ?_ }, hacc.positive, hacc.alive, ?_⟩
  · exact forall_lookup_insert (hacc.downs _ _ hlookup) hacc.downs
  have hold := hacc.pending
  unfold underWay at hold ⊢
  dsimp only [toPush] at hold ⊢
  rw [hold, len_insert_of_some _ hlookup]

theorem createCallback_accounted (hstep : s.createCallback request = some s') : s'.Accounted := by
  unfold createCallback at hstep
  split at hstep
  case h_2 => cases hstep
  rename_i hlookup
  obtain ⟨-, ⟨⟩⟩ := locked_eq_some hstep
  refine ⟨⟨hacc.linked, ?_, fun x pc hx => hacc.creates x pc (lookup_of_erase hx),
    hacc.downs⟩, hacc.positive, hacc.alive, ?_⟩
  · intro x hx
    refine ⟨(hacc.queued x hx).1, ?_⟩
    rw [lookup_erase_eq_ite]
    split
    · rfl
    · exact (hacc.queued x hx).2
  · have hold := hacc.pending
    have hlen := len_erase_of_some hlookup
    unfold underWay at hold ⊢
    dsimp only [toPush, AutoScaler.handlePendingInsNumDecrease] at hold ⊢
    rw [hold, ← hlen]
    push_cast
    ring

theorem scaleDownCallback_accounted (hstep : s.scaleDownCallback g = some s') : s'.Accounted := by
  unfold scaleDownCallback at hstep
  split at hstep
  case h_2 => cases hstep
  rename_i hlookup
  obtain ⟨-, ⟨⟩⟩ := locked_eq_some hstep
  refine ⟨{ hacc with downs := fun x pc hx => hacc.downs x pc (lookup_of_erase hx) }, hacc.positive,
    hacc.alive, ?_⟩
  have hold := hacc.pending
  have hlen := len_erase_of_some hlookup
  unfold underWay at hold ⊢
  dsimp only [toPush, AutoScaler.handlePendingInsNumIncrease] at hold ⊢
  rw [hold, ← hlen]
  push_cast
  ring

end

def steady (s : System) : Event → Bool
  | .handleFuncSpecUpdate concurrentNum => getConcurrentNum concurrentNum = s.sc.concurrentNum
  | .deleteFunction => false
  | _ => true

def uncancelled (s : System) : Event → Bool
  | .scaleDownInstance _ => s.createQueue.getForCancel.isNone
  | _ => true

theorem Idle.of_upLoop (hpc : s.upLoop = pc) (hout : ∀ left, pc ≠ .pushing left) {upLoop : UpLoopPc}
    (hout' : ∀ left, upLoop ≠ .pushing left) (hsc : sc.concurrentNum = s.sc.concurrentNum ∧
    sc.pendingInsThdNum = s.sc.pendingInsThdNum) : Idle s { s with
      upLoop, sc, scaleUpChan, ticker, tick, downLoop, announced, unannounced, stopCh } := by
  refine ⟨hsc.2, hsc.1, rfl, id, rfl, rfl, ?_, rfl, rfl⟩
  rw [toPush_of_upLoop hpc hout]
  exact toPush_of_upLoop rfl hout'

def decides : Event → Bool
  | .scaleUpInstances _ | .push | .scaleDownInstances _ | .getForCreate | .createInstance _ _
  | .createCallback _ | .scaleDownInstance _ | .scaleDownCallback _ | .instanceDeleted _
  | .deleteFunction => true
  | _ => false

theorem step_idle (hsteady : s.steady e = true) (hdecides : decides e = false)
    (hstep : s.step cfg e = some s') : Idle s s' := by
  cases e with
  | receiveRound | receiveTrigger | receiveTick | stopUpLoop =>
    obtain ⟨hpc, hstep⟩ := up_eq_some hstep
    split at hstep
    all_goals cases hstep
    exact .of_upLoop hpc (by simp) (by simp) ⟨rfl, rfl⟩
  | checkRequests =>
    obtain ⟨hpc, ⟨⟩⟩ := up_eq_some hstep
    refine .of_upLoop hpc (by simp) ?_ ⟨rfl, rfl⟩
    intro left
    split <;> simp
  | checkDemand =>
    obtain ⟨hpc, hstep⟩ := up_eq_some hstep
    obtain ⟨-, ⟨⟩⟩ := locked_eq_some hstep
    refine .of_upLoop hpc (by simp) ?_ ⟨rfl, rfl⟩
    intro left
    split <;> simp
  | pauseScale =>
    obtain ⟨hpc, hstep⟩ := up_eq_some hstep
    obtain ⟨-, ⟨⟩⟩ := locked_eq_some hstep
    exact .of_upLoop hpc (by simp) (by simp) ⟨rfl, rfl⟩
  | startRound =>
    simp only [step, startRound] at hstep
    split at hstep
    · cases hstep
    split at hstep
    case h_1 hpc | h_2 hpc =>
      cases hstep
      exact .of_upLoop hpc (by simp) (by simp) ⟨rfl, rfl⟩
    case h_3 => cases hstep
  | triggerRequest waiting =>
    change s.triggerRequest waiting = some s' at hstep
    obtain ⟨-, hstep⟩ := locked_eq_some hstep
    split at hstep
    · cases hstep
    obtain ⟨sc, htrigger, heq⟩ := map_eq_some_iff.mp hstep
    obtain rfl := s.sc.triggerScale_eq htrigger
    cases waiting with
    | true | false =>
      cases heq
      exact .of_eq ⟨rfl, rfl⟩
  | triggerScale minConcurrency =>
    change s.triggerScale minConcurrency = some s' at hstep
    obtain ⟨-, hstep⟩ := locked_eq_some hstep
    obtain ⟨sc, htrigger, rfl⟩ := map_eq_some_iff.mp hstep
    obtain rfl := s.sc.triggerScale_eq htrigger
    exact .of_eq ⟨rfl, rfl⟩
  | receiveScaleDown =>
    simp only [step, receiveScaleDown] at hstep
    split at hstep
    case h_2 => cases hstep
    obtain ⟨-, hstep⟩ := locked_eq_some hstep
    split at hstep
    all_goals cases hstep
    exact .of_eq ⟨rfl, rfl⟩
  | pauseScaleDown =>
    obtain ⟨-, hstep⟩ := ite_none_right_eq_some.mp hstep
    obtain ⟨-, ⟨⟩⟩ := locked_eq_some hstep
    exact .of_eq ⟨rfl, rfl⟩
  | handleInsThdUpdate =>
    simp only [step] at hstep
    obtain ⟨-, ⟨⟩⟩ := locked_eq_some hstep
    refine .of_eq ?_
    unfold AutoScaler.handleInsThdUpdate
    dsimp only
    split <;> exact ⟨rfl, rfl⟩
  | updateCreateMetrics =>
    simp only [step] at hstep
    obtain ⟨-, ⟨⟩⟩ := locked_eq_some hstep
    refine .of_eq ?_
    unfold AutoScaler.updateCreateMetrics
    split <;> exact ⟨rfl, rfl⟩
  | handleFuncSpecUpdate =>
    simp only [step] at hstep
    obtain ⟨-, ⟨⟩⟩ := locked_eq_some hstep
    exact .of_eq ⟨of_decide_eq_true hsteady, rfl⟩
  | destroy =>
    cases hstep
    exact ⟨rfl, rfl, rfl, fun h => { h with }, rfl, rfl, rfl, rfl, rfl⟩
  | answerRequest announced =>
    cases announced with
    | true | false =>
      simp only [step] at hstep
      split at hstep
      all_goals cases hstep
      exact .of_eq ⟨rfl, rfl⟩
  | addRequest =>
    cases hstep
    exact .of_eq ⟨rfl, rfl⟩
  | fireTicker | stopDownLoop =>
    obtain ⟨-, rfl⟩ := ite_some_none_eq_some.mp hstep
    exact .of_eq ⟨rfl, rfl⟩
  | _ => cases hdecides

theorem step_accounted (hacc : s.Accounted) (hsteady : s.steady e = true)
    (huncancelled : s.uncancelled e = true) (hstep : s.step cfg e = some s') : s'.Accounted := by
  cases e with
  | scaleUpInstances => exact scaleUpInstances_accounted hacc hstep
  | push => exact push_accounted hacc hstep
  | scaleDownInstances => exact scaleDownInstances_accounted hacc hstep
  | getForCreate => exact getForCreate_accounted hacc hstep
  | createInstance =>
    simp only [step, createInstance] at hstep
    split at hstep
    case h_2 => cases hstep
    rename_i hlookup
    rw [if_neg (by rw [hacc.alive]; exact false_ne_true)] at hstep
    cases hstep
    exact setCreate_accounted hacc hlookup _
  | createCallback => exact createCallback_accounted hacc hstep
  | scaleDownInstance =>
    simp only [step, scaleDownInstance] at hstep
    split at hstep
    case h_2 => cases hstep
    rename_i hlookup
    rw [if_neg (by rw [hacc.alive]; exact false_ne_true), isNone_iff_eq_none.mp huncancelled] at hstep
    cases hstep
    exact setDown_accounted hacc hlookup _
  | scaleDownCallback => exact scaleDownCallback_accounted hacc hstep
  | instanceDeleted =>
    simp only [step, instanceDeleted] at hstep
    split at hstep
    case h_2 => cases hstep
    rename_i hlookup
    cases hstep
    exact setDown_accounted hacc hlookup _
  | deleteFunction => cases hsteady
  | _ => exact hacc.idle (step_idle hsteady rfl hstep)

theorem Init.accounted (hinit : s.Init cfg) (hpos : 0 ≤ cfg.concurrentNum) : s.Accounted where
  linked := by
    rw [hinit.createQueue]
    exact ⟨nodup_nil, rfl, rfl⟩
  queued x hx := by
    rw [hinit.createQueue] at hx
    cases hx
  creates x pc hx := by
    rw [hinit.creates] at hx
    cases hx
  downs x pc hx := by
    rw [hinit.downs] at hx
    cases hx
  positive := by
    rw [hinit.concurrentNum, getConcurrentNum]
    split <;> omega
  alive := hinit.funcDeleted
  pending := by
    rw [hinit.pendingInsThdNum, underWay, hinit.createQueue, hinit.creates, hinit.downs,
      toPush_of_upLoop hinit.upLoop (by simp)]
    simp

end System

/-- If no deletion cancels a creation, the pending threads are those to be created less those to be
deleted. -/
theorem pending_is_under_way (cfg : Config) (hpos : 0 ≤ cfg.concurrentNum) (s : System)
    (hreach : (autoScaler cfg).Reach (fun s e => (s.steady e && s.uncancelled e) = true) s) :
    s.sc.pendingInsThdNum = s.sc.concurrentNum *
      (s.createQueue.queue.length + s.toPush + s.creates.len - s.downs.len) := by
  have hacc : s.Accounted := by
    refine hreach.invariant (fun s hinit => System.Init.accounted hinit hpos) ?_
    intro s e s' l _ hok hacc hstep
    have hnext := next_of_step hstep
    rw [and_eq_true] at hok
    exact System.step_accounted hacc hok.1 hok.2 hnext
  exact hacc.pending

theorem pending_is_under_way_both : ∃ s,
    (autoScaler { concurrentNum := 2 }).Reach (fun s e => (s.steady e && s.uncancelled e) = true) s ∧
      s.creates.len = 1 ∧ s.downs.len = 2 ∧ s.sc.pendingInsThdNum = -2 := by
  obtain ⟨s, hreach, hcreates, hdowns, hqueue, hconc⟩ := (autoScaler { concurrentNum := 2 }).reach_of_run
    (fun s e => s.steady e && s.uncancelled e) (System.init_created _)
    [.addRequest, .triggerRequest true, .receiveTrigger, .startRound, .receiveRound, .checkRequests,
      .scaleUpInstances none, .push, .getForCreate, .handleInsThdUpdate 0 2, .receiveScaleDown,
      .scaleDownInstances none, .scaleDownInstance 1]
    (fun s => s.creates.len = 1 ∧ s.downs.len = 2 ∧ s.createQueue.queue.length + s.toPush = 0 ∧
      s.sc.concurrentNum = 2) (by decide +kernel)
  have hpending := pending_is_under_way { concurrentNum := 2 } (by decide) s hreach
  refine ⟨s, hreach, hcreates, hdowns, ?_⟩
  rw [hpending, hconc, hcreates, hdowns]
  omega

/-- A deletion cancels a queued creation, another deletes an instance: a thread is pending for
good. -/
theorem pending_left_by_cancel : ∃ s,
    (autoScaler { concurrentNum := 1 }).Reach (fun s e => s.steady e = true) s ∧
      s.createQueue.queue = [] ∧ s.toPush = 0 ∧ s.creates.len = 0 ∧ s.downs.len = 0 ∧
      s.sc.pendingInsThdNum = 1 :=
  (autoScaler { concurrentNum := 1 }).reach_of_run System.steady (System.init_created _)
    [.addRequest, .triggerRequest true, .receiveTrigger, .startRound, .receiveRound, .checkRequests,
      .scaleUpInstances none, .push, .handleInsThdUpdate 0 1, .receiveScaleDown,
      .scaleDownInstances none, .scaleDownInstance 1, .scaleDownCallback 1, .scaleDownInstance 2,
      .instanceDeleted 2, .scaleDownCallback 2] _ (by decide +kernel)

end Yuanrong.Scaling
