import Yuanrong.Lib.Counting
import Yuanrong.RequestQueue.System

/-!
# Every pending request is answered once

An accepted request is in one place: in the queue, with a goroutine that schedules it, answered, or
cancelled. The goroutine that answers what is left at the end looks once: a request that comes into
the queue after it is gone stays there.
-/

namespace Yuanrong.RequestQueue

open AList Option Requests

variable {p : PendingInsAcqReq} {workers : FinMap Nat Worker} {worker : Worker} {ref : Nat} {w : Nat}

namespace Requests

variable {requests : Requests} {ref : Nat}

def known (requests : Requests) (ref : Nat) : Bool := (requests.lookup ref).isSome

def settled (requests : Requests) (ref : Nat) : ℤ :=
  (requests.lookup ref).elim 0 fun p => p.responses.length + if p.cancelled then 1 else 0

theorem settled_nonneg (requests : Requests) (ref : Nat) : 0 ≤ requests.settled ref := by
  unfold settled
  cases requests.lookup ref with
  | none => simp
  | some =>
    rw [elim_some]
    split <;> omega

theorem known_insert_of_some (hlookup : requests.lookup ref = some p') (x : Nat) :
    known (requests.insert ref p) x = requests.known x := by
  unfold known
  rw [lookup_insert_eq_ite]
  split
  case isTrue hx => rw [hx, hlookup]; rfl
  case isFalse => rfl

@[simp]
theorem known_respond (requests : Requests) (ref : Nat) (rsp : PendingInsAcqRsp) (x : Nat) :
    (requests.respond ref rsp).known x = requests.known x := by
  unfold respond
  cases hlookup : requests.lookup ref with
  | none => rfl
  | some => exact known_insert_of_some hlookup x

theorem known_cancel (requests : Requests) (ref x : Nat) :
    (requests.cancel ref).known x = requests.known x := by
  unfold cancel
  cases hlookup : requests.lookup ref with
  | none => rfl
  | some => exact known_insert_of_some hlookup x

theorem settled_respond (hknown : requests.known ref = true) (rsp : PendingInsAcqRsp) (x : Nat) :
    (requests.respond ref rsp).settled x = requests.settled x + if ref = x then 1 else 0 := by
  obtain ⟨p, hp⟩ := isSome_iff_exists.mp hknown
  unfold settled respond
  rw [hp]
  rw [lookup_insert_eq_ite]
  by_cases hx : x = ref
  · subst hx
    rw [if_pos rfl, if_pos rfl, hp]
    simp only [elim_some, List.length_append, List.length_singleton]
    omega
  · rw [if_neg hx, if_neg (Ne.symm hx), add_zero]

theorem settled_cancel (hknown : requests.known ref = true) (hopen : requests.settled ref = 0)
    (x : Nat) : (requests.cancel ref).settled x = requests.settled x + if ref = x then 1 else 0 := by
  obtain ⟨p, hp⟩ := isSome_iff_exists.mp hknown
  unfold settled cancel at *
  rw [hp] at hopen ⊢
  rw [lookup_insert_eq_ite]
  by_cases hx : x = ref
  · subst hx
    rw [if_pos rfl, if_pos rfl, hp]
    cases hcancelled : p.cancelled with
    | false => simp [hcancelled]
    | true =>
      simp only [hcancelled, elim_some, if_true] at hopen
      omega
  · rw [if_neg hx, if_neg (Ne.symm hx), add_zero]

variable {queue : List Nat}

theorem settled_foldl_respond (hknown : ∀ x ∈ queue, requests.known x = true)
    (rsp : PendingInsAcqRsp) (x : Nat) :
    (queue.foldl (fun requests ref => requests.respond ref rsp) requests).settled x =
      requests.settled x + queue.count x := by
  induction queue generalizing requests with
  | nil => simp
  | cons ref _ ih =>
    rw [List.foldl_cons, ih, settled_respond (hknown ref List.mem_cons_self), List.count_cons]
    · simp only [beq_iff_eq]
      split <;> omega
    intro y hy
    rw [known_respond]
    exact hknown y (List.mem_cons_of_mem ref hy)

theorem known_foldl_respond (queue : List Nat) (rsp : PendingInsAcqRsp) (x : Nat) :
    (queue.foldl (fun requests ref => requests.respond ref rsp) requests).known x =
      requests.known x := by
  induction queue generalizing requests with
  | nil => rfl
  | cons _ _ ih => rw [List.foldl_cons, ih, known_respond]

end Requests

namespace InsAcqReqQueue

variable (iq : InsAcqReqQueue) (currentTime : Int)

theorem handleTimeouts_known (queue : List Nat) (requests : Requests) (x : Nat) :
    (iq.handleTimeouts currentTime queue requests).2.1.known x = requests.known x := by
  induction queue generalizing requests with
  | nil => rfl
  | cons ref _ ih =>
    unfold handleTimeouts
    cases requests.lookup ref with
    | none => exact ih requests
    | some =>
      dsimp only
      split
      · rw [ih, known_respond]
      · rfl

theorem handleTimeouts_settled {queue : List Nat} (hknown : ∀ x ∈ queue, requests.known x = true) (x : Nat) :
    ((iq.handleTimeouts currentTime queue requests).1.count x : ℤ) +
        (iq.handleTimeouts currentTime queue requests).2.1.settled x =
      queue.count x + requests.settled x := by
  induction queue generalizing requests with
  | nil => rfl
  | cons ref rest ih =>
    obtain ⟨p, hp⟩ := isSome_iff_exists.mp (hknown ref List.mem_cons_self)
    have hrest : ∀ y ∈ rest, requests.known y = true :=
      fun y hy => hknown y (List.mem_cons_of_mem ref hy)
    unfold handleTimeouts
    rw [hp]
    dsimp only
    split
    case isTrue =>
      rw [ih, settled_respond (hknown ref List.mem_cons_self), List.count_cons]
      · simp only [beq_iff_eq]
        split <;> omega
      intro y hy
      rw [known_respond]
      exact hrest y hy
    case isFalse => rfl

variable {iq}

theorem addRequest_queue (hadd : iq.addRequest ref = .ok iq') : iq'.queue = iq.queue ++ [ref] := by
  unfold addRequest at hadd
  split at hadd
  · cases hadd
  split at hadd
  · cases hadd
  cases hadd
  split
  · unfold triggerSchedule
    split <;> rfl
  · rfl

theorem updateRequestTimeout_queue (requestTimeout : Int) :
    (iq.updateRequestTimeout requestTimeout).queue = iq.queue := by
  unfold updateRequestTimeout
  split
  · rfl
  · split <;> rfl

end InsAcqReqQueue

def held (workers : FinMap Nat Worker) (ref : Nat) : ℤ :=
  workers.count fun _ worker => worker.pc.held = some ref

theorem held_nonneg (workers : FinMap Nat Worker) (ref : Nat) : 0 ≤ held workers ref :=
  count_nonneg _ _

theorem held_insert (hlookup : workers.lookup w = some worker) (worker' : Worker)
    (ref : Nat) : held (workers.insert w worker') ref =
      held workers ref - (if worker.pc.held = some ref then 1 else 0) +
        if worker'.pc.held = some ref then 1 else 0 := by
  unfold held
  rw [count_insert, hlookup, elim_some]

theorem held_insert_same (hlookup : workers.lookup w = some worker) (hpc : worker'.pc.held = worker.pc.held)
    (ref : Nat) : held (workers.insert w worker') ref = held workers ref := by
  rw [held_insert hlookup, hpc]
  omega

namespace System

variable {cfg : Config} {s s' : System} {e : Event}

def places (s : System) (ref : Nat) : ℤ :=
  s.iq.queue.count ref + held s.workers ref + s.requests.settled ref

/-- An accepted request is in one place, and a request that was not accepted in none. -/
structure Accounted (s : System) : Prop where
  places : ∀ ref, s.places ref = if s.requests.known ref then 1 else 0
  fresh : ∀ ref, s.requests.known ref = true → ref < s.nextRef

namespace Accounted

theorem known_of_mem (hacc : s.Accounted) (hmem : ref ∈ s.iq.queue) : s.requests.known ref = true := by
  by_contra hunknown
  have hplaces := hacc.places ref
  rw [if_neg hunknown, System.places] at hplaces
  have hcount := List.count_pos_iff.mpr hmem
  have hheld := held_nonneg s.workers ref
  have hsettled := s.requests.settled_nonneg ref
  omega

theorem known_of_held (hacc : s.Accounted) (hlookup : s.workers.lookup w = some worker)
    (hheld : worker.pc.held = some ref) : s.requests.known ref = true := by
  by_contra hunknown
  have hplaces := hacc.places ref
  rw [if_neg hunknown, System.places] at hplaces
  have hpos : 0 < held s.workers ref := count_pos hlookup hheld
  have hsettled := s.requests.settled_nonneg ref
  omega

theorem open_of_mem (hacc : s.Accounted) (hmem : ref ∈ s.iq.queue) : s.requests.settled ref = 0 := by
  have hplaces := hacc.places ref
  rw [if_pos (hacc.known_of_mem hmem), System.places] at hplaces
  have hcount := List.count_pos_iff.mpr hmem
  have hheld := held_nonneg s.workers ref
  have hsettled := s.requests.settled_nonneg ref
  omega

end Accounted

structure Moves (s s' : System) : Prop where
  places : ∀ ref, s'.places ref = s.places ref
  known : ∀ ref, s'.requests.known ref = s.requests.known ref
  nextRef : s'.nextRef = s.nextRef

theorem Accounted.moves (hacc : s.Accounted) (hmoves : Moves s s') : s'.Accounted where
  places ref := by rw [hmoves.places, hmoves.known, hacc.places]
  fresh ref hknown := by
    rw [hmoves.nextRef]
    rw [hmoves.known] at hknown
    exact hacc.fresh ref hknown

theorem Moves.of_same {iq : InsAcqReqQueue}
    {handlers : FinMap Nat HandlerPc} {loop : LoopPc} {timer : Option Int}
    (hqueue : iq.queue = s.iq.queue) (hheld : ∀ ref, held workers ref = held s.workers ref) :
    Moves s { s with iq, workers, handlers, loop, timer } where
  places ref := by simp only [System.places, hqueue, hheld]
  known _ := rfl
  nextRef := rfl

theorem addRequest_accounted (hacc : s.Accounted) (createdTime : Int) :
    (s.addRequest createdTime).Accounted := by
  unfold addRequest
  cases hadd : s.iq.addRequest s.nextRef with
  | error => exact hacc
  | ok =>
    have hunknown : s.requests.known s.nextRef = false := by
      by_contra hknown
      exact absurd (hacc.fresh _ (by simpa using hknown)) (lt_irrefl _)
    have hlookup : s.requests.lookup s.nextRef = none := by simpa [known] using hunknown
    have hnew := hacc.places s.nextRef
    rw [hunknown, System.places] at hnew
    refine ⟨fun ref => ?_, fun ref hknown => ?_⟩
    · have hplaces := hacc.places ref
      simp only [System.places, known, settled, lookup_insert_eq_ite,
        InsAcqReqQueue.addRequest_queue hadd, List.count_append] at hplaces hnew ⊢
      by_cases href : ref = s.nextRef
      · subst href
        rw [hlookup] at hnew
        simp only [elim_none, Bool.false_eq_true, if_false] at hnew
        simp
        omega
      · rw [if_neg href, List.count_singleton, if_neg (by simpa using Ne.symm href), add_zero]
        exact hplaces
    · simp only [known, lookup_insert_eq_ite] at hknown
      by_cases href : ref = s.nextRef
      · simp [href]
      rw [if_neg href] at hknown
      have hlt := hacc.fresh ref hknown
      dsimp only
      omega

theorem cancelRequest_moves (hacc : s.Accounted) (ref : Nat) : Moves s (s.cancelRequest ref) := by
  unfold cancelRequest
  split
  case isFalse => exact .of_same rfl fun _ => rfl
  rename_i hmem
  refine ⟨fun x => ?_, fun x => s.requests.known_cancel ref x, rfl⟩
  have hpos := List.count_pos_iff.mpr hmem
  simp only [places, settled_cancel (hacc.known_of_mem hmem) (hacc.open_of_mem hmem),
    List.count_erase, beq_iff_eq]
  by_cases hx : ref = x
  · subst hx
    simp only [if_true]
    omega
  · simp [hx]

variable {w : Nat}

theorem pop_moves (hstep : s.pop w = some s') : Moves s s' := by
  obtain ⟨worker, hlookup, hstep⟩ := bind_eq_some_iff.mp hstep
  obtain ⟨hpc, hstep⟩ := ite_none_right_eq_some.mp hstep
  split at hstep
  case h_1 =>
    cases hstep
    exact .of_same rfl (held_insert_same hlookup (by rw [hpc]; rfl))
  case h_2 ref rest hqueue =>
    cases hstep
    refine ⟨fun x => ?_, fun _ => rfl, rfl⟩
    simp only [places, setWorker, held_insert hlookup, hpc, hqueue, List.count_cons, beq_iff_eq,
      WorkerPc.held, some.injEq, reduceCtorEq, if_false]
    split <;> omega

theorem schFunc_moves {result : Except GoError String} (hstep : s.schFunc w result = some s') :
    Moves s s' := by
  obtain ⟨worker, hlookup, hstep⟩ := bind_eq_some_iff.mp hstep
  split at hstep
  case h_1 hpc _ | h_2 hpc _ =>
    cases hstep
    exact .of_same rfl (held_insert_same hlookup (by rw [hpc]; rfl))
  case h_3 => cases hstep

section

variable (hacc : s.Accounted)
include hacc

theorem settle_moves (hstep : s.settle w = some s') : Moves s s' := by
  obtain ⟨worker, hlookup, hstep⟩ := bind_eq_some_iff.mp hstep
  split at hstep
  case h_1 ref insAlloc hpc =>
    cases hstep
    have hknown := hacc.known_of_held hlookup (by rw [hpc]; rfl)
    refine ⟨fun x => ?_, fun x => s.requests.known_respond ref _ x, rfl⟩
    simp only [places, setWorker, held_insert hlookup, hpc, settled_respond hknown,
      WorkerPc.held, some.injEq, reduceCtorEq, if_false]
    omega
  case h_2 ref hpc =>
    cases hstep
    refine ⟨fun x => ?_, fun _ => rfl, rfl⟩
    simp only [places, setWorker, held_insert hlookup, hpc, List.count_append,
      List.count_singleton, beq_iff_eq, WorkerPc.held, some.injEq, reduceCtorEq, if_false]
    split <;> omega
  case h_3 => cases hstep

theorem clearReqQueueWithError_moves (err : GoError) : Moves s (s.clearReqQueueWithError err) := by
  refine ⟨fun x => ?_, fun x => ?_, rfl⟩
  · simp only [places, clearReqQueueWithError, InsAcqReqQueue.clearReqQueueWithError,
      settled_foldl_respond fun y hy => hacc.known_of_mem hy, List.count_nil]
    omega
  · exact known_foldl_respond _ _ x

theorem sweep_moves (hstep : s.sweep = some s') : Moves s s' := by
  unfold sweep at hstep
  split at hstep
  case h_1 currentTime hloop =>
    have hknown := s.iq.handleTimeouts_known currentTime s.iq.queue s.requests
    have hsettled := s.iq.handleTimeouts_settled currentTime fun y hy => hacc.known_of_mem hy
    generalize s.iq.handleTimeouts currentTime s.iq.queue s.requests = handled at *
    obtain ⟨queue, requests, next⟩ := handled
    cases hstep
    refine ⟨fun x => ?_, hknown, rfl⟩
    have hx := hsettled x
    simp only [places] at hx ⊢
    omega
  case h_2 =>
    cases hstep
    have hclear := clearReqQueueWithError_moves hacc .funcMetaNotFound
    exact { hclear with nextRef := rfl }
  case h_3 => cases hstep

theorem handle_moves (hstep : s.handle cfg h = some s') : Moves s s' := by
  unfold handle at hstep
  split at hstep
  case h_1 => cases hstep
  case h_2 err hpc =>
    cases hstep
    have hclear := clearReqQueueWithError_moves hacc err
    exact { hclear with nextRef := rfl }
  case h_3 | h_4 =>
    cases hstep
    exact .of_same rfl fun _ => rfl
  case h_5 err hpc =>
    split at hstep
    · cases hstep
      exact .of_same rfl fun _ => rfl
    split at hstep
    · cases hstep
      split
      · have hclear := clearReqQueueWithError_moves hacc err
        exact { hclear with nextRef := rfl }
      · exact .of_same rfl fun _ => rfl
    · cases hstep
      exact .of_same rfl fun _ => rfl

theorem step_accounted (hstep : s.step cfg e = some s') : s'.Accounted := by
  cases e with
  | addRequest createdTime =>
    cases hstep
    exact addRequest_accounted hacc createdTime
  | cancelRequest ref =>
    cases hstep
    exact hacc.moves (cancelRequest_moves hacc ref)
  | registerSchFunc schFuncKey =>
    obtain ⟨hnone, rfl⟩ := ite_some_none_eq_some.mp hstep
    refine hacc.moves (.of_same rfl fun ref => ?_)
    unfold held
    rw [count_insert, hnone]
    simp [WorkerPc.held]
  | scheduleRequest schFuncKey seen =>
    cases hstep
    apply hacc.moves
    unfold scheduleRequest
    split
    · exact .of_same rfl fun _ => rfl
    split
    · exact .of_same rfl fun _ => rfl
    case h_2 hlookup =>
      split
      · exact .of_same rfl (held_insert_same hlookup rfl)
      · exact .of_same rfl fun _ => rfl
  | take | leave =>
    obtain ⟨worker, hlookup, hstep⟩ := bind_eq_some_iff.mp hstep
    obtain ⟨hpc, rfl⟩ := ite_some_none_eq_some.mp hstep
    exact hacc.moves (.of_same rfl (held_insert_same hlookup (by rw [hpc.1]; rfl)))
  | pop => exact hacc.moves (pop_moves hstep)
  | schFunc => exact hacc.moves (schFunc_moves hstep)
  | settle => exact hacc.moves (settle_moves hacc hstep)
  | sweep => exact hacc.moves (sweep_moves hacc hstep)
  | handle => exact hacc.moves (handle_moves hacc hstep)
  | updateRequestTimeout requestTimeout =>
    cases hstep
    exact hacc.moves (.of_same (s.iq.updateRequestTimeout_queue requestTimeout) fun _ => rfl)
  | _ =>
    -- neither the queue nor a request nor a goroutine that has one is touched
    simp only [step] at hstep
    repeat' split at hstep
    all_goals cases hstep
    all_goals exact hacc.moves (.of_same rfl fun _ => rfl)

end

theorem Init.accounted (hinit : s.Init) : s.Accounted where
  places ref := by
    simp only [System.places, hinit.queue, hinit.workers, hinit.requests, held, AList.count,
      total_empty, settled, known, lookup_empty]
    rfl
  fresh ref hknown := by simp [hinit.requests, known] at hknown

/-- Nothing comes into the queue once the timeout loop is gone. -/
def attended (s : System) : Event → Bool
  | .addRequest _ => s.loop ≠ .done
  | .settle w =>
    (s.workers.lookup w).all fun worker =>
      match worker.pc with
      | .failed _ => s.loop ≠ .done
      | _ => true
  | _ => true

def Drained (s : System) : Prop := s.loop = .done → s.iq.queue = []

theorem step_drained (hdrained : s.Drained) (hok : s.attended e = true)
    (hstep : s.step cfg e = some s') : s'.Drained := by
  cases e with
  | addRequest =>
    have hloop : s.loop ≠ .done := by simpa [attended] using hok
    cases hstep
    intro hdone
    simp only [addRequest] at hdone ⊢
    split at hdone
    all_goals exact absurd hdone hloop
  | cancelRequest =>
    cases hstep
    unfold cancelRequest
    split
    case isTrue =>
      intro hdone
      simp [hdrained hdone]
    case isFalse => exact hdrained
  | scheduleRequest =>
    cases hstep
    unfold scheduleRequest
    repeat' split
    all_goals exact hdrained
  | pop =>
    obtain ⟨worker, hlookup, hstep⟩ := bind_eq_some_iff.mp hstep
    repeat' split at hstep
    all_goals cases hstep
    · exact hdrained
    case h_2 hqueue =>
      intro hdone
      have hempty := hdrained hdone
      rw [hqueue] at hempty
      cases hempty
  | settle =>
    obtain ⟨worker, hlookup, hstep⟩ := bind_eq_some_iff.mp hstep
    split at hstep
    case h_1 =>
      cases hstep
      exact hdrained
    case h_2 hpc =>
      have hloop : s.loop ≠ .done := by simpa [attended, hlookup, hpc] using hok
      cases hstep
      exact fun hdone => absurd hdone hloop
    case h_3 => cases hstep
  | sweep =>
    simp only [step, sweep] at hstep
    split at hstep
    all_goals cases hstep
    · exact fun hdone => nomatch hdone
    · exact fun _ => rfl
  | handle =>
    simp only [step, handle] at hstep
    repeat' split at hstep
    all_goals cases hstep
    all_goals try exact hdrained
    all_goals exact fun _ => rfl
  | updateRequestTimeout =>
    cases hstep
    intro hdone
    rw [InsAcqReqQueue.updateRequestTimeout_queue]
    exact hdrained hdone
  | take w | leave w =>
    obtain ⟨worker, hlookup, hstep⟩ := bind_eq_some_iff.mp hstep
    split at hstep
    all_goals cases hstep
    exact hdrained
  | schFunc =>
    obtain ⟨worker, hlookup, hstep⟩ := bind_eq_some_iff.mp hstep
    split at hstep
    all_goals cases hstep
    all_goals exact hdrained
  | _ =>
    simp only [step] at hstep
    repeat' split at hstep
    all_goals cases hstep
    all_goals first | exact hdrained | exact fun hdone => nomatch hdone

def quiet (s : System) : Bool := s.workers.entries.all fun entry => entry.2.pc.held = none

theorem held_eq_zero_of_quiet (hquiet : s.quiet = true) (ref : Nat) : held s.workers ref = 0 := by
  apply count_eq_zero
  intro w worker hlookup hheld
  have hnone := List.all_eq_true.mp hquiet _ (mem_entries_iff.mpr hlookup)
  simp [hheld] at hnone

theorem Accounted.settled (hacc : s.Accounted)
    (hlookup : s.requests.lookup ref = some p) : s.iq.queue.count ref + held s.workers ref +
      (p.responses.length + if p.cancelled then 1 else 0) = 1 := by
  have hplaces := hacc.places ref
  simpa [System.places, Requests.settled, Requests.known, hlookup] using hplaces

end System

open Yuanrong.RequestQueue.System

theorem accounted_of_reachable (hreach : (requestQueue cfg).Reachable s) : s.Accounted := by
  refine hreach.invariant (fun s => Init.accounted) ?_
  intro s e s' l _ _ hacc hstep
  exact step_accounted hacc (next_of_step hstep)

theorem drained_of_reach (hreach : (requestQueue cfg).Reach (fun s e => s.attended e = true) s) :
    s.Drained := by
  refine hreach.invariant (fun s hinit hdone => ?_) ?_
  · rw [hinit.loop] at hdone
    cases hdone
  · intro s e s' l _ hok hdrained hstep
    exact step_drained hdrained hok (next_of_step hstep)

/-- A request gets at most one answer, and if nothing is queued after the loop is gone, every
request ends. -/
theorem pending_answered_once (cfg : Config) :
    (∀ s, (requestQueue cfg).Reachable s → ∀ ref p, s.requests.lookup ref = some p →
      p.responses.length ≤ 1 ∧
        (s.quiet = true → ref ∈ s.iq.queue ∨ p.responses ≠ [] ∨ p.cancelled = true)) ∧
    ∀ s, (requestQueue cfg).Reach (fun s e => s.attended e = true) s → s.loop = .done →
      s.quiet = true → ∀ ref p, s.requests.lookup ref = some p →
        p.responses ≠ [] ∨ p.cancelled = true := by
  have honce : ∀ s, (requestQueue cfg).Reachable s → ∀ ref p, s.requests.lookup ref = some p →
      p.responses.length ≤ 1 ∧
        (s.quiet = true → ref ∈ s.iq.queue ∨ p.responses ≠ [] ∨ p.cancelled = true) := by
    intro s hreach ref p hlookup
    have hsettled := (accounted_of_reachable hreach).settled hlookup
    have hheld := held_nonneg s.workers ref
    refine ⟨by split at hsettled <;> omega, fun hquiet => ?_⟩
    rw [held_eq_zero_of_quiet hquiet] at hsettled
    by_contra hlost
    simp only [not_or, not_not] at hlost
    obtain ⟨hqueue, hresponses, hcancelled⟩ := hlost
    simp [List.count_eq_zero_of_not_mem hqueue, hresponses, hcancelled] at hsettled
  refine ⟨honce, fun s hreach hdone hquiet ref p hlookup => ?_⟩
  rcases (honce s hreach.reachable ref p hlookup).2 hquiet with hqueue | hsettled
  · rw [drained_of_reach hreach hdone] at hqueue
    cases hqueue
  · exact hsettled

theorem pending_answered_once_two : ∃ s p q,
    (requestQueue { backendFG := false }).Reach (fun s e => s.attended e = true) s ∧
      s.loop = .done ∧ s.quiet = true ∧ s.requests.lookup 0 = some p ∧
      s.requests.lookup 1 = some q ∧ p.responses.length ≤ 1 ∧
      (p.responses ≠ [] ∨ p.cancelled = true) ∧ (q.responses ≠ [] ∨ q.cancelled = true) := by
  obtain ⟨s, hreach, hdone, hquiet, hp, hq⟩ := (requestQueue { backendFG := false }).reach_of_run attended
    (System.init_created 10 0)
    [.registerSchFunc "scaledScheduleFunc" 0, .addRequest 0, .addRequest 0,
      .scheduleRequest "scaledScheduleFunc" 0, .take 0, .pop 0, .schFunc 0 (.ok "a"), .settle 0,
      .pop 0, .schFunc 0 (.error (.plain "")), .settle 0, .stop, .receiveStop, .sweep, .leave 0]
    (fun s => s.loop = .done ∧ s.quiet ∧ (s.requests.lookup 0).isSome ∧ (s.requests.lookup 1).isSome)
    (by decide)
  obtain ⟨p, hp⟩ := isSome_iff_exists.mp hp
  obtain ⟨q, hq⟩ := isSome_iff_exists.mp hq
  obtain ⟨honce, hend⟩ := pending_answered_once { backendFG := false }
  exact ⟨s, p, q, hreach, hdone, hquiet, hp, hq, (honce s hreach.reachable 0 p hp).1,
    hend s hreach hdone hquiet 0 p hp, hend s hreach hdone hquiet 1 q hq⟩

/-- A request is put back when the queue is stopped and cleared, and nobody answers it. -/
theorem pending_left_behind : ∃ s p, (requestQueue { backendFG := false }).Reachable s ∧
    s.iq.stopCh = true ∧ s.loop = .done ∧ (∀ w ∈ s.workers.entries, w.2.pc = .done) ∧
    s.requests.lookup 0 = some p ∧ p.responses = [] ∧ p.cancelled = false := by
  obtain ⟨s, hreach, hstop, hdone, hworkers, p, hlookup, hresponses, hcancelled⟩ :=
    (requestQueue { backendFG := false }).reachable_of_run (System.init_created 10 0)
    [.registerSchFunc "scaledScheduleFunc" 0, .addRequest 0,
      .scheduleRequest "scaledScheduleFunc" 0, .take 0, .pop 0, .stop, .receiveStop, .sweep,
      .schFunc 0 (.error (.plain "")), .settle 0, .leave 0]
    (fun s => s.iq.stopCh ∧ s.loop = .done ∧ (∀ w ∈ s.workers.entries, w.2.pc = .done) ∧
      ∃ p, s.requests.lookup 0 = some p ∧ p.responses = [] ∧ p.cancelled = false) (by decide)
  exact ⟨s, p, hreach, hstop, hdone, hworkers, hlookup, hresponses, hcancelled⟩

end Yuanrong.RequestQueue
