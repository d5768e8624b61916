import Yuanrong.RequestQueue.AnsweredOnce

/-!
# What the timeout loop leaves behind

The sweep stops at the first request that is in time, and its timer is the time left to that one.
Both are right as long as the queue is in the order of creation. A request that could not be
scheduled is put back behind younger ones.
-/

namespace Yuanrong.RequestQueue

open Option Requests List

def Requests.created (requests : Requests) (ref : Nat) : Int :=
  (requests.lookup ref).elim 0 PendingInsAcqReq.createdTime

theorem Requests.created_respond (requests : Requests) (ref x : Nat) (rsp : PendingInsAcqRsp) :
    (requests.respond ref rsp).created x = requests.created x := by
  unfold respond created
  split
  · rfl
  rename_i p hlookup
  rw [AList.lookup_insert_eq_ite]
  split
  case isTrue heq =>
    rw [heq, hlookup]
    rfl
  case isFalse => rfl

namespace InsAcqReqQueue

variable (iq : InsAcqReqQueue) (currentTime : Int)

theorem handleTimeouts_ordered {queue : List Nat} (hknown : ∀ x ∈ queue, requests.known x = true)
    (hordered : queue.Pairwise fun x y => requests.created x ≤ requests.created y) :
    let (queue', requests', nextReqTimeout) := iq.handleTimeouts currentTime queue requests
    ∀ x ∈ queue', ∃ p, requests'.lookup x = some p ∧ iq.timedOut currentTime p = false ∧
      nextReqTimeout ≤ iq.requestTimeout - (currentTime - p.createdTime) := by
  induction queue generalizing requests with
  | nil => nofun
  | cons ref rest ih =>
    obtain ⟨hfirst, hrest⟩ := pairwise_cons.mp hordered
    obtain ⟨p, hp⟩ := isSome_iff_exists.mp (hknown ref mem_cons_self)
    unfold handleTimeouts
    rw [hp]
    dsimp only
    split
    case isTrue =>
      refine ih (fun x hx => ?_) (by simpa only [created_respond] using hrest)
      rw [known_respond]
      exact hknown x (mem_cons_of_mem ref hx)
    case isFalse hin =>
      -- every other request was created after the first, which is in time
      intro x hx
      obtain ⟨q, hq⟩ := isSome_iff_exists.mp (hknown x hx)
      have hle : p.createdTime ≤ q.createdTime := by
        rcases mem_cons.mp hx with rfl | hx
        · cases hp.symm.trans hq
          exact le_rfl
        · simpa [created, hp, hq] using hfirst x hx
      refine ⟨q, hq, ?_, by omega⟩
      refine Bool.eq_false_iff.mpr fun hq => hin ?_
      have hwait : currentTime - q.createdTime + timeoutAccuracy ≤
          currentTime - p.createdTime + timeoutAccuracy := by omega
      exact decide_eq_true ((of_decide_eq_true hq).trans (Int.tdiv_le_tdiv (by decide) hwait))

end InsAcqReqQueue

namespace System

variable {s s' : System} {currentTime : Int}

def InOrder (s : System) : Prop :=
  s.iq.queue.Pairwise fun x y => s.requests.created x ≤ s.requests.created y

instance : Decidable s.InOrder := inferInstanceAs (Decidable (List.Pairwise _ _))

/-- **A sweep in order.** If the queue is in the order of creation, the sweep leaves no request that
is overdue, and arms the timer for the earliest deadline or before. -/
theorem sweep_leaves_none_overdue (cfg : Config) (hreach : (requestQueue cfg).Reachable s)
    (hloop : s.loop = .woken currentTime) (hsweep : s.sweep = some s') (hordered : s.InOrder) :
    ∀ ref ∈ s'.iq.queue, ∃ p nextReqTimeout, s'.requests.lookup ref = some p ∧
      s.iq.timedOut currentTime p = false ∧ s'.timer = some nextReqTimeout ∧
      nextReqTimeout ≤ s.iq.requestTimeout - (currentTime - p.createdTime) := by
  have hknown : ∀ x ∈ s.iq.queue, s.requests.known x = true :=
    fun x hx => (accounted_of_reachable hreach).known_of_mem hx
  have hleft := s.iq.handleTimeouts_ordered currentTime hknown hordered
  unfold sweep at hsweep
  rw [hloop] at hsweep
  cases hsweep
  intro ref hmem
  obtain ⟨p, hp, hin, htimer⟩ := hleft ref hmem
  refine ⟨p, _, hp, hin, if_neg fun hlen => ?_, htimer⟩
  exact not_mem_nil (length_eq_zero_iff.mp hlen ▸ hmem)

theorem sweep_leaves_second : ∃ s s', (requestQueue { backendFG := false }).Reachable s ∧
    s.sweep = some s' ∧ s'.iq.queue = [1] ∧ ∃ p nextReqTimeout, s'.requests.lookup 1 = some p ∧
      s'.timer = some nextReqTimeout ∧
      nextReqTimeout ≤ s.iq.requestTimeout - (30000000000 - p.createdTime) := by
  obtain ⟨s, hreach, hloop, hordered, s', hsweep, hqueue⟩ :=
    (requestQueue { backendFG := false }).reachable_of_run (System.init_created 10 0)
    [.addRequest 0, .addRequest 29000000000, .trigger 30000000000]
    (fun s => s.loop = .woken 30000000000 ∧ s.InOrder ∧
      ∃ s', s.sweep = some s' ∧ s'.iq.queue = [1]) (by decide)
  obtain ⟨p, next, hp, -, htimer, hle⟩ :=
    sweep_leaves_none_overdue { backendFG := false } hreach hloop hsweep hordered 1 (by simp [hqueue])
  exact ⟨s, s', hreach, hsweep, hqueue, p, next, hp, htimer, hle⟩

/-- The older of two requests could not be scheduled and is behind the other when its time is
over. -/
theorem sweep_leaves_overdue : ∃ s s' p nextReqTimeout,
    (requestQueue { backendFG := false }).Reachable s ∧ s.loop = .woken 30000000000 ∧
    s.sweep = some s' ∧ 0 ∈ s'.iq.queue ∧ s'.requests.lookup 0 = some p ∧
    s.iq.timedOut 30000000000 p = true ∧ s'.timer = some nextReqTimeout ∧
    s.iq.requestTimeout - (30000000000 - p.createdTime) < nextReqTimeout := by
  obtain ⟨s, hreach, hloop, s', hsweep, hmem, p, hp, hdue, next, htimer, hlt⟩ :=
    (requestQueue { backendFG := false }).reachable_of_run (System.init_created 10 0)
    [.registerSchFunc "scaledScheduleFunc" 0, .addRequest 0, .addRequest 29000000000,
      .scheduleRequest "scaledScheduleFunc" 0, .take 0, .pop 0, .schFunc 0 (.error (.plain "")),
      .settle 0, .trigger 30000000000]
    (fun s => s.loop = .woken 30000000000 ∧ ∃ s', s.sweep = some s' ∧ 0 ∈ s'.iq.queue ∧
      ∃ p, s'.requests.lookup 0 = some p ∧ s.iq.timedOut 30000000000 p = true ∧
      ∃ next, s'.timer = some next ∧ s.iq.requestTimeout - (30000000000 - p.createdTime) < next)
    (by decide)
  exact ⟨s, s', p, next, hreach, hloop, hsweep, hmem, hp, hdue, htimer, hlt⟩

end System

end Yuanrong.RequestQueue
