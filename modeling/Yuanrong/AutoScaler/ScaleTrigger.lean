import Yuanrong.AutoScaler.PendingAccounting

/-!
# A scale up that was asked for is not forgotten

The loop pauses when it finds neither requests nor a declared demand, and the next `TriggerScale`
wakes it up. The look at the demand and the clearing of the flag are two sections: a caller between
them still sees the flag set and sends nothing, and the loop pauses over what was declared.
-/

namespace Yuanrong.Scaling

open Option AutoScaler Bool

def Event.scalesUp : Event → Bool
  | .triggerRequest _ | .triggerScale _ | .receiveRound | .checkRequests | .checkDemand
  | .pauseScale | .scaleUpInstances _ | .push | .receiveTrigger | .startRound | .receiveTick
  | .stopUpLoop => true
  | _ => false

namespace System

variable {cfg : Config} {s s' : System} {e : Event} {minConcurrency : Int}

/-- A step outside of the loop and its callers: the demand stays, but for requests. -/
structure Outside (s s' : System) : Prop where
  flag : s'.sc.autoScaleUpFlag = s.sc.autoScaleUpFlag
  demand : s'.sc.minScaleDemand = s.sc.minScaleDemand
  announced : s'.announced ≤ s.announced
  upLoop : s'.upLoop = s.upLoop

theorem outside_of_step (hout : e.scalesUp = false) (hstep : s.step cfg e = some s') : Outside s s' := by
  cases e with
  | scaleDownInstances metrics =>
    obtain ⟨-, hstep⟩ := ite_none_right_eq_some.mp hstep
    obtain ⟨-, ⟨⟩⟩ := locked_eq_some hstep
    rw [s.sc.scaleDownInstances_eq metrics]
    exact ⟨rfl, rfl, le_rfl, rfl⟩
  | getForCreate =>
    obtain ⟨⟨request, createQueue⟩, -, rfl⟩ := map_eq_some_iff.mp hstep
    exact ⟨rfl, rfl, le_rfl, rfl⟩
  | answerRequest announced =>
    cases announced
    all_goals
      simp only [step] at hstep
      split at hstep
      all_goals cases hstep
    · exact ⟨rfl, rfl, le_rfl, rfl⟩
    · exact ⟨rfl, rfl, Nat.sub_le _ _, rfl⟩
  | handleInsThdUpdate =>
    simp only [step] at hstep
    obtain ⟨-, ⟨⟩⟩ := locked_eq_some hstep
    unfold handleInsThdUpdate
    dsimp only
    split
    all_goals exact ⟨rfl, rfl, le_rfl, rfl⟩
  | updateCreateMetrics =>
    simp only [step] at hstep
    obtain ⟨-, ⟨⟩⟩ := locked_eq_some hstep
    unfold updateCreateMetrics
    split
    all_goals exact ⟨rfl, rfl, le_rfl, rfl⟩
  | fireTicker =>
    obtain ⟨-, rfl⟩ := ite_some_none_eq_some.mp hstep
    exact ⟨rfl, rfl, le_rfl, rfl⟩
  | receiveScaleDown =>
    simp only [step, receiveScaleDown, locked] at hstep
    repeat' split at hstep
    all_goals cases hstep
    exact ⟨rfl, rfl, le_rfl, rfl⟩
  | createInstance =>
    simp only [step, createInstance] at hstep
    split at hstep
    case h_2 => cases hstep
    split at hstep
    all_goals cases hstep
    all_goals exact ⟨rfl, rfl, le_rfl, rfl⟩
  | addRequest | pauseScaleDown | stopDownLoop | createCallback _ | scaleDownInstance _
  | instanceDeleted _ | scaleDownCallback _ | handleFuncSpecUpdate _ | destroy | deleteFunction =>
    simp only [step, pauseScaleDown, createCallback, scaleDownInstance, instanceDeleted,
      scaleDownCallback, locked] at hstep
    repeat' split at hstep
    all_goals cases hstep
    all_goals exact ⟨rfl, rfl, le_rfl, rfl⟩
  | _ => cases hout

/-- A request is announced and answered, the loop makes two rounds and pauses. -/
def pausedRun : List Event :=
    [.addRequest, .triggerRequest true, .receiveTrigger, .startRound, .receiveRound, .checkRequests,
      .scaleUpInstances none, .push, .answerRequest true, .fireTicker, .receiveTick, .startRound,
      .receiveRound, .checkRequests, .checkDemand, .pauseScale]

/-- No `TriggerScale` is called between the loop's look at the requests, or the demand, and its
pause. -/
def undisturbed (s : System) : Event → Bool
  | .triggerRequest waiting => !waiting || (s.upLoop ≠ .noRequests && s.upLoop ≠ .pausing)
  | .triggerScale minConcurrency => minConcurrency ≤ 0 || s.upLoop ≠ .pausing
  | _ => true

/-- What the loop has not found is not there while it decides on it, and as long as it is paused. -/
structure Heard (s : System) : Prop where
  noRequests : s.upLoop = .noRequests → s.announced = 0
  pausing : s.upLoop = .pausing → s.sc.minScaleDemand = 0 ∧ s.announced = 0
  paused : s.sc.autoScaleUpFlag = false → s.sc.minScaleDemand = 0 ∧ s.announced = 0

section

variable (hheard : s.Heard)
include hheard

theorem Heard.outside (hout : Outside s s') : s'.Heard where
  noRequests hpc := by
    have hnone := hheard.noRequests (hout.upLoop ▸ hpc)
    have hle := hout.announced
    omega
  pausing hpc := by
    obtain ⟨hdemand, hnone⟩ := hheard.pausing (hout.upLoop ▸ hpc)
    have hle := hout.announced
    exact ⟨hout.demand.trans hdemand, by omega⟩
  paused hflag := by
    obtain ⟨hdemand, hnone⟩ := hheard.paused (hout.flag ▸ hflag)
    have hle := hout.announced
    exact ⟨hout.demand.trans hdemand, by omega⟩

theorem Heard.loop {createQueue : InstanceCreateQueue} {upLoop : UpLoopPc} {nextRef : Nat}
    {scaleUpTriggerCh scaleUpChan ticker tick : Bool} (hpc : upLoop ≠ .noRequests ∧ upLoop ≠ .pausing) :
    { s with
      sc := { s.sc with scaleUpTriggerCh }
      createQueue, upLoop, scaleUpChan, ticker, tick, nextRef }.Heard where
  noRequests h := absurd h hpc.1
  pausing h := absurd h hpc.2
  paused := hheard.paused

theorem triggerRequest_heard (hok : s.undisturbed (.triggerRequest waiting) = true)
    (hstep : s.triggerRequest waiting = some s') : s'.Heard := by
  obtain ⟨-, hstep⟩ := locked_eq_some hstep
  split at hstep
  · cases hstep
  obtain ⟨sc, htrigger, heq⟩ := map_eq_some_iff.mp hstep
  obtain rfl := s.sc.triggerScale_eq htrigger
  cases waiting with
  | true =>
    cases heq
    simp only [undisturbed, Bool.not_true, Bool.false_or, Bool.and_eq_true, decide_eq_true_eq] at hok
    exact ⟨fun h => absurd h hok.1, fun h => absurd h hok.2, nofun⟩
  | false =>
    cases heq
    refine ⟨hheard.noRequests, fun h => ?_, nofun⟩
    obtain ⟨hzero, hnone⟩ := hheard.pausing h
    exact ⟨by rw [hzero]; rfl, hnone⟩

theorem step_heard (hok : s.undisturbed e = true) (hstep : s.step cfg e = some s') : s'.Heard := by
  cases hscales : e.scalesUp with
  | false => exact hheard.outside (outside_of_step hscales hstep)
  | true =>
    cases e with
    | triggerRequest => exact triggerRequest_heard hheard hok hstep
    | triggerScale minConcurrency =>
      change s.triggerScale minConcurrency = some s' at hstep
      obtain ⟨-, hstep⟩ := locked_eq_some hstep
      obtain ⟨sc, htrigger, heq⟩ := map_eq_some_iff.mp hstep
      obtain rfl := s.sc.triggerScale_eq htrigger
      cases heq
      refine ⟨hheard.noRequests, fun h => ?_, nofun⟩
      obtain ⟨hzero, hnone⟩ := hheard.pausing h
      simp only [undisturbed, or_eq_true, decide_eq_true_eq] at hok
      rcases hok with hle | hpc
      · exact ⟨by rw [hzero, max_eq_left hle], hnone⟩
      · exact absurd h hpc
    | receiveRound | receiveTrigger | receiveTick | stopUpLoop =>
      obtain ⟨-, hstep⟩ := up_eq_some hstep
      split at hstep
      all_goals cases hstep
      exact hheard.loop (by simp)
    | checkRequests =>
      obtain ⟨-, ⟨⟩⟩ := up_eq_some hstep
      by_cases hzero : s.reqNum = 0
      · simp only [if_pos hzero]
        refine ⟨fun _ => ?_, nofun, hheard.paused⟩
        unfold reqNum at hzero
        dsimp only
        omega
      · simp only [if_neg hzero]
        exact hheard.loop (by simp)
    | checkDemand =>
      obtain ⟨hpc, hstep⟩ := up_eq_some hstep
      obtain ⟨-, ⟨⟩⟩ := locked_eq_some hstep
      by_cases hzero : s.sc.minScaleDemand = 0
      · simp only [if_pos hzero]
        exact ⟨nofun, fun _ => ⟨hzero, hheard.noRequests hpc⟩, hheard.paused⟩
      · simp only [if_neg hzero]
        exact hheard.loop (by simp)
    | pauseScale =>
      obtain ⟨hpc, hstep⟩ := up_eq_some hstep
      obtain ⟨-, ⟨⟩⟩ := locked_eq_some hstep
      exact ⟨nofun, nofun, fun _ => hheard.pausing hpc⟩
    | scaleUpInstances metrics =>
      obtain ⟨-, hstep⟩ := up_eq_some hstep
      obtain ⟨-, ⟨⟩⟩ := locked_eq_some hstep
      obtain ⟨remained, hsc⟩ := s.sc.scaleUpInstances_eq metrics s.reqNum
      rw [hsc]
      unfold pushes
      refine ⟨fun h => ?_, fun h => ?_, fun h => ⟨rfl, (hheard.paused h).2⟩⟩
      all_goals
        split at h
        all_goals cases h
    | push =>
      simp only [step, push] at hstep
      split at hstep
      case h_2 => cases hstep
      cases hstep
      unfold pushes
      refine hheard.loop ?_
      split <;> simp
    | startRound =>
      simp only [step, startRound] at hstep
      repeat' split at hstep
      all_goals cases hstep
      all_goals exact hheard.loop (by simp)
    | _ => cases hscales

end

end System

/-- While the loop is paused nothing waits, if no caller comes between its look and its pause. -/
theorem paused_without_demand (cfg : Config) (s : System)
    (hreach : (autoScaler cfg).Reach (fun s e => s.undisturbed e = true) s)
    (hflag : s.sc.autoScaleUpFlag = false) : s.sc.minScaleDemand = 0 ∧ s.announced = 0 := by
  have hheard : s.Heard := by
    refine hreach.invariant (fun s hinit => ?_) ?_
    · refine ⟨fun h => ?_, fun h => ?_, fun _ => ⟨hinit.minScaleDemand, hinit.announced⟩⟩
      all_goals exact absurd (hinit.upLoop.symm.trans h) (by simp)
    · intro s e s' l _ hok hheard hstep
      exact System.step_heard hheard hok (next_of_step hstep)
  exact hheard.paused hflag

theorem paused_without_demand_answered : ∃ s,
    (autoScaler { concurrentNum := 1 }).Reach (fun s e => s.undisturbed e = true) s ∧
      s.nextRef = 1 ∧ s.sc.autoScaleUpFlag = false ∧ s.sc.minScaleDemand = 0 ∧ s.announced = 0 := by
  obtain ⟨s, hreach, hnext, hflag⟩ := (autoScaler { concurrentNum := 1 }).reach_of_run System.undisturbed
    (System.init_created _) System.pausedRun
    (fun s => s.nextRef = 1 ∧ s.sc.autoScaleUpFlag = false) (by decide +kernel)
  exact ⟨s, hreach, hnext, hflag, paused_without_demand { concurrentNum := 1 } s hreach hflag⟩

/-- A demand is declared when the loop is about to pause: nothing is sent, and it pauses. -/
theorem paused_over_demand : ∃ s, (autoScaler { concurrentNum := 1 }).Reachable s ∧
    s.sc.autoScaleUpFlag = false ∧ s.sc.scaleUpTriggerCh = false ∧ s.upLoop = .selecting ∧
    s.scaleUpChan = false ∧ s.ticker = false ∧ s.tick = false ∧ s.sc.minScaleDemand = 1 :=
  (autoScaler { concurrentNum := 1 }).reachable_of_run (System.init_created _)
    [.triggerScale 0, .receiveTrigger, .startRound, .receiveRound, .checkRequests, .checkDemand,
      .triggerScale 1, .pauseScale] _ (by decide +kernel)

end Yuanrong.Scaling
