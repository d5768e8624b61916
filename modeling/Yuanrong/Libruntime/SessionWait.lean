import Mathlib.Logic.Function.Basic
import Mathlib.Data.Fintype.Defs
import Yuanrong.Lib.StepSystem

/-!
# Waiting in a session

An invocation that waits is told by a change of the state of its wait context, which it reads when
it wakes up. The contexts of a session are found in two maps, each with a mutex of its own, and the
last invocation that ends takes them out one after the other. The mutex of the session, free while
an invocation waits, is left out.
-/

namespace Yuanrong.SessionWait

open Function

/-- With the data of a notification. -/
inductive WaitState
  | idle
  | waiting
  | notified (data : Nat)
  | interrupted
  | timeout
deriving DecidableEq

/-- The predicate of `wait_until`. -/
def WaitState.wakes : WaitState → Bool
  | .notified _ | .interrupted => true
  | _ => false

/-- Where a call is before its next section; `ctx` and `w` are the contexts it has found. A `Wait`
records the change of the state that it was told of, and `finalState` is what it finds when it wakes
up. -/
inductive Call
  | acquireInvokeSession (ctx : Nat)
  | resetSessionInterrupted
  | resetWait (w : Nat)
  | invoke
  | wait (ctx : Nat)
  | enter (ctx w : Nat)
  | waiting (w : Nat) (told : Option WaitState)
  | woken (told : Option WaitState) (finalState : WaitState)
  | release (ctx : Nat)
  | removeWaitNotifyContext
  | setSessionInterrupted (ctx : Nat)
  | findWait
  | interruptWait (w : Nat)
  | notify (w data : Nat)
  | done
deriving DecidableEq

namespace Call

/-- A `Wait` from its admission to its return. -/
def inProgress : Call → Bool
  | .waiting _ _ | .woken _ _ => true
  | _ => false

def untold : Call → Bool
  | .waiting _ told => told.isNone
  | c => !c.inProgress

def hasWait : Call → Bool
  | .enter _ _ => true
  | c => c.inProgress

end Call

/-- Of up to `n` calls at a time. Contexts are numbered as they are made; `session` and `waitNotify`
are the entries of the two maps. -/
structure AgentSession (n : Nat) where
  nextSession : Nat := 0
  interrupted : Nat → Bool := fun _ => false
  refCount : Nat → Nat := fun _ => 0
  session : Option Nat := none
  nextWait : Nat := 0
  state : Nat → WaitState := fun _ => .idle
  waitNotify : Option Nat := none
  calls : Fin n → Call := fun _ => .done
  returned : List (Option WaitState × WaitState) := []

namespace AgentSession

/-- A call begins, an invocation calls `Wait` or ends, or a call goes on; `flag` says that the
session cannot be loaded, or that the deadline has passed. -/
inductive Event (n : Nat)
  | acquireInvokeSession (i : Fin n)
  | setSessionInterrupted (i : Fin n)
  | notify (i : Fin n) (data : Nat)
  | wait (i : Fin n)
  | persistAndReleaseInvokeSession (i : Fin n)
  | step (i : Fin n) (flag : Bool)

variable {n : Nat} (s : AgentSession n) (i : Fin n)

def goto (c : Call) : AgentSession n := { s with calls := update s.calls i c }

def tell (w : Nat) (state : WaitState) : AgentSession n :=
  if s.state w = .waiting then
    { s with
      state := update s.state w state
      calls := fun j => if s.calls j = .waiting w none then .waiting w (some state) else s.calls j }
  else s

/-- The section of `ReleaseSessionContextReference`. -/
def release (ctx : Nat) : AgentSession n :=
  let s' := { s with refCount := update s.refCount ctx (s.refCount ctx - 1) }
  if s.refCount ctx = 1 ∧ s.session = some ctx then
    { s' with session := none }.goto i .removeWaitNotifyContext
  else s'.goto i .done

def stepCall (flag : Bool) : Call → Option (AgentSession n)
  | .acquireInvokeSession ctx =>
    if flag then some (s.goto i (.release ctx))
    else some { s.goto i (if s.interrupted ctx then .resetSessionInterrupted else .invoke) with
      interrupted := update s.interrupted ctx false }
  | .resetSessionInterrupted =>
    some (s.goto i (match s.waitNotify with | some w => .resetWait w | none => .invoke))
  | .resetWait w =>
    if s.state w = .interrupted then some { s.goto i .invoke with state := update s.state w .idle }
    else some (s.goto i .invoke)
  | .wait ctx =>
    match s.waitNotify with
    | some w => some (s.goto i (.enter ctx w))
    | none => some { s.goto i (.enter ctx s.nextWait) with
        nextWait := s.nextWait + 1
        state := update s.state s.nextWait .idle
        waitNotify := some s.nextWait }
  | .enter ctx w =>
    if s.interrupted ctx ∨ s.state w = .interrupted ∨ s.state w = .waiting then some (s.goto i .invoke)
    else some { s.goto i (.waiting w none) with state := update s.state w .waiting }
  | .waiting w told =>
    if (s.state w).wakes ∨ flag then
      some { s.goto i (.woken told (if (s.state w).wakes then s.state w else .timeout)) with
        state := update s.state w .idle }
    else none
  | .woken told finalState => some { s.goto i .invoke with returned := (told, finalState) :: s.returned }
  | .release ctx => some (s.release i ctx)
  | .removeWaitNotifyContext => some { s.goto i .done with waitNotify := none }
  | .setSessionInterrupted ctx =>
    some { s.goto i .findWait with interrupted := update s.interrupted ctx true }
  | .findWait => some (s.goto i (match s.waitNotify with | some w => .interruptWait w | none => .done))
  | .interruptWait w => some ((s.goto i .done).tell w .interrupted)
  | .notify w data => some ((s.goto i .done).tell w (.notified data))
  | .invoke | .done => none

def next : Event n → Option (AgentSession n)
  | .acquireInvokeSession i =>
    if s.calls i ≠ .done then none
    else match s.session with
    | some ctx => some { s.goto i (.acquireInvokeSession ctx) with
        refCount := update s.refCount ctx (s.refCount ctx + 1) }
    | none => some { s.goto i (.acquireInvokeSession s.nextSession) with
        nextSession := s.nextSession + 1
        interrupted := update s.interrupted s.nextSession false
        refCount := update s.refCount s.nextSession 1
        session := some s.nextSession }
  | .setSessionInterrupted i =>
    if s.calls i ≠ .done then none else s.session.map fun ctx => s.goto i (.setSessionInterrupted ctx)
  | .notify i data =>
    if s.calls i ≠ .done then none else s.waitNotify.map fun w => s.goto i (.notify w data)
  | .wait i => if s.calls i ≠ .invoke then none else s.session.map fun ctx => s.goto i (.wait ctx)
  | .persistAndReleaseInvokeSession i =>
    if s.calls i ≠ .invoke then none else s.session.map fun ctx => s.goto i (.release ctx)
  | .step i flag => s.stepCall i flag (s.calls i)

/-- While a `Wait` is in progress its interruption is not reset and no other `Wait` comes once it is
told, and while a `Wait` has the wait context that is not taken out of the map. -/
def orderly : Event n → Bool
  | .step i _ =>
    match s.calls i with
    | .resetWait w => s.state w ≠ .interrupted ∨ ∀ j, (s.calls j).inProgress = false
    | .enter _ _ => ∀ j, (s.calls j).untold = true
    | .removeWaitNotifyContext => ∀ j, (s.calls j).hasWait = false
    | _ => true
  | _ => true

end AgentSession

variable {n : Nat} {state state' : Nat → WaitState} {waitNotify waitNotify' : Option Nat} {c : Call}

/-- A `Wait` has the wait context of the map, whose state is what it was told, and wakes up with
that. -/
def Call.Sound (state : Nat → WaitState) (waitNotify : Option Nat) : Call → Prop
  | .enter _ w => waitNotify = some w
  | .waiting w told => waitNotify = some w ∧ state w = told.getD .waiting ∧
    ∀ o, told = some o → o.wakes = true
  | .woken told finalState => ∀ o, told = some o → finalState = o
  | _ => True

theorem Call.Sound.change (h : c.Sound state waitNotify)
    (hwait : ∀ w told, c = .waiting w told → state' w = state w) : c.Sound state' waitNotify := by
  cases c with
  | waiting w told => exact ⟨h.1, (hwait w told rfl).trans h.2.1, h.2.2⟩
  | _ => exact h

/-- What holds of the calls, the wait contexts and what has returned. -/
structure Waits (calls : Fin n → Call) (state : Nat → WaitState) (waitNotify : Option Nat)
    (returned : List (Option WaitState × WaitState)) : Prop where
  sound : ∀ j, (calls j).Sound state waitNotify
  one : ∀ j k, (calls j).inProgress = true → (calls k).inProgress = true → j = k
  returned : ∀ r ∈ returned, ∀ o, r.1 = some o → r.2 = o

section Waits

variable {calls : Fin n → Call} {returned : List (Option WaitState × WaitState)} {i : Fin n}
  (h : Waits calls state waitNotify returned)
include h

/-- One call goes on, and the wait contexts and their map may have changed. -/
theorem Waits.set (hsound : c.Sound state' waitNotify')
    (hothers : ∀ j, j ≠ i → (calls j).Sound state' waitNotify')
    (hone : c.inProgress = true → ∀ j, j ≠ i → (calls j).inProgress = false) :
    Waits (update calls i c) state' waitNotify' returned := by
  refine ⟨(forall_update_iff calls fun _ d => d.Sound state' waitNotify').mpr ⟨hsound, hothers⟩, ?_,
    h.returned⟩
  refine (forall_update_iff calls fun j d => ∀ k, d.inProgress = true →
    (update calls i c k).inProgress = true → j = k).mpr ⟨?_, fun j hj => ?_⟩
  · refine (forall_update_iff calls fun k d => c.inProgress = true → d.inProgress = true →
      i = k).mpr ⟨fun _ _ => rfl, fun k hk hin hin' => ?_⟩
    exact absurd (hin'.symm.trans (hone hin k hk)) (by decide)
  · refine (forall_update_iff calls fun k d => (calls j).inProgress = true → d.inProgress = true →
      j = k).mpr ⟨fun hin hin' => ?_, fun k _ => h.one j k⟩
    exact absurd (hin.symm.trans (hone hin' j hj)) (by decide)

theorem Waits.goto (hsound : c.Sound state waitNotify) (hnot : c.inProgress = false) :
    Waits (update calls i c) state waitNotify returned :=
  h.set hsound (fun j _ => h.sound j) fun hin => absurd (hin.symm.trans hnot) (by decide)

/-- With no other `Wait` in progress the state of a wait context may change. -/
theorem Waits.alone (hothers : ∀ j, j ≠ i → (calls j).inProgress = false)
    (hsound : c.Sound state' waitNotify) : Waits (update calls i c) state' waitNotify returned := by
  refine h.set hsound (fun j hj => (h.sound j).change fun w told hcall => ?_) fun _ => hothers
  have hnot := hothers j hj
  rw [hcall] at hnot
  cases hnot

theorem Waits.tell {w : Nat} {o : WaitState} (hwaiting : state w = .waiting) (hwakes : o.wakes = true) :
    Waits (fun j => if calls j = .waiting w none then .waiting w (some o) else calls j)
      (update state w o) waitNotify returned := by
  have hcalls : ∀ j, ∃ c, c = (if calls j = .waiting w none then .waiting w (some o) else calls j) ∧
      c.inProgress = (calls j).inProgress ∧ c.Sound (update state w o) waitNotify := by
    intro j
    have hsound := h.sound j
    refine ⟨_, rfl, ?_⟩
    split
    case isTrue heq =>
      rw [heq] at hsound ⊢
      exact ⟨rfl, hsound.1, update_self w o state, fun _ htold => Option.some.inj htold ▸ hwakes⟩
    case isFalse hne =>
      refine ⟨rfl, hsound.change fun w' told hcall => update_of_ne ?_ o state⟩
      rw [hcall] at hsound hne
      obtain ⟨-, hstate, htold⟩ := hsound
      rintro rfl
      rw [hwaiting] at hstate
      cases told with
      | none => exact hne rfl
      | some o' =>
        obtain rfl : WaitState.waiting = o' := hstate
        exact absurd (htold _ rfl) (by decide)
  refine ⟨fun j => ?_, fun j k hin hin' => ?_, h.returned⟩
  · obtain ⟨_, rfl, -, hsound⟩ := hcalls j
    exact hsound
  · obtain ⟨_, rfl, heq, -⟩ := hcalls j
    obtain ⟨_, rfl, heq', -⟩ := hcalls k
    exact h.one j k (heq ▸ hin) (heq' ▸ hin')

end Waits

namespace AgentSession

variable {s s' : AgentSession n} {i : Fin n} {w : Nat}

abbrev Inv (s : AgentSession n) : Prop := Waits s.calls s.state s.waitNotify s.returned

theorem Inv.tell (h : s.Inv) {o : WaitState} (hwakes : o.wakes = true) : (s.tell w o).Inv := by
  unfold AgentSession.tell
  split
  case isTrue hwaiting => exact Waits.tell h hwaiting hwakes
  case isFalse => exact h

/-- A `Wait` that finds another one in progress, not yet told, is refused. -/
theorem Inv.enter (h : s.Inv) (hc : s.calls i = .enter ctx w) (hok : ∀ j, (s.calls j).untold = true)
    (hstep : s.stepCall i flag (.enter ctx w) = some s') : s'.Inv := by
  simp only [stepCall] at hstep
  split at hstep
  all_goals cases hstep
  case isTrue => exact h.goto trivial rfl
  case isFalse hadmitted =>
    have hmap : (Call.enter ctx w).Sound s.state s.waitNotify := hc ▸ h.sound i
    refine h.alone (fun j _ => ?_) ⟨hmap, update_self w _ s.state, by simp⟩
    have huntold := hok j
    have hsound := h.sound j
    generalize s.calls j = c at huntold hsound
    cases c with
    | waiting w' told =>
      obtain ⟨hmap', hstate, -⟩ := hsound
      cases Eq.trans (Eq.symm hmap) hmap'
      rw [Option.isNone_iff_eq_none.mp huntold] at hstate
      exact absurd (.inr (.inr hstate)) hadmitted
    | woken => cases huntold
    | _ => rfl

theorem Inv.wake (h : s.Inv) (hc : s.calls i = .waiting w told)
    (hstep : s.stepCall i flag (.waiting w told) = some s') : s'.Inv := by
  obtain ⟨-, ⟨⟩⟩ := Option.ite_none_right_eq_some.mp hstep
  have hin : (s.calls i).inProgress = true := by rw [hc]; rfl
  obtain ⟨-, hstate, htold⟩ : (Call.waiting w told).Sound s.state s.waitNotify := hc ▸ h.sound i
  refine h.alone (fun j hj => ?_) fun o ho => ?_
  · by_contra hin'
    exact hj (h.one j i (by simpa using hin') hin)
  · rw [hstate, ho]
    exact if_pos (htold o ho)

theorem Inv.stepCall (h : s.Inv) (hc : s.calls i = c) (hok : s.orderly (.step i flag) = true)
    (hstep : s.stepCall i flag c = some s') : s'.Inv := by
  have hsound := h.sound i
  simp only [orderly, hc] at hok hsound
  cases c with
  | acquireInvokeSession ctx =>
    simp only [AgentSession.stepCall] at hstep
    split at hstep
    all_goals cases hstep
    · exact h.goto trivial rfl
    · cases s.interrupted ctx
      all_goals exact h.goto trivial rfl
  | resetSessionInterrupted | findWait =>
    cases hstep
    cases s.waitNotify
    all_goals exact h.goto trivial rfl
  | resetWait w =>
    simp only [AgentSession.stepCall] at hstep
    split at hstep
    case isTrue hinterrupted =>
      cases hstep
      have hnone := (of_decide_eq_true hok).resolve_left (not_not.mpr hinterrupted)
      exact h.alone (fun j _ => hnone j) trivial
    case isFalse =>
      cases hstep
      exact h.goto trivial rfl
  | invoke | done => cases hstep
  | wait ctx =>
    simp only [AgentSession.stepCall] at hstep
    split at hstep
    case h_1 hmap =>
      cases hstep
      exact h.goto hmap rfl
    case h_2 hmap =>
      cases hstep
      refine h.set (c := .enter ctx s.nextWait) rfl (fun j _ => ?_) nofun
      have hold := h.sound j
      rw [hmap] at hold
      generalize s.calls j = c at hold
      cases c with
      | enter => cases hold
      | waiting => cases hold.1
      | _ => exact hold
  | enter => exact h.enter hc (of_decide_eq_true hok) hstep
  | waiting => exact h.wake hc hstep
  | woken =>
    cases hstep
    obtain ⟨hall, hone, hreturned⟩ : (s.goto i .invoke).Inv := h.goto trivial rfl
    exact ⟨hall, hone, List.forall_mem_cons.mpr ⟨hsound, hreturned⟩⟩
  | release ctx =>
    cases hstep
    unfold AgentSession.release
    dsimp only
    split
    all_goals exact h.goto trivial rfl
  | removeWaitNotifyContext =>
    cases hstep
    refine h.set (c := .done) trivial (fun j _ => ?_) nofun
    have hnot := of_decide_eq_true hok j
    generalize s.calls j = c at hnot
    cases c with
    | enter | waiting | woken => cases hnot
    | _ => trivial
  | setSessionInterrupted =>
    cases hstep
    exact h.goto trivial rfl
  | interruptWait | notify =>
    cases hstep
    have hdone : (s.goto i .done).Inv := h.goto trivial rfl
    exact hdone.tell rfl

theorem Inv.step {e : Event n} (h : s.Inv) (hok : s.orderly e = true) (hstep : s.next e = some s') :
    s'.Inv := by
  cases e with
  | acquireInvokeSession =>
    obtain ⟨-, hstep⟩ := Option.ite_none_left_eq_some.mp hstep
    split at hstep
    all_goals
      cases hstep
      exact h.goto trivial rfl
  | setSessionInterrupted | notify | wait | persistAndReleaseInvokeSession =>
    obtain ⟨-, hstep⟩ := Option.ite_none_left_eq_some.mp hstep
    obtain ⟨_, -, rfl⟩ := Option.map_eq_some_iff.mp hstep
    exact h.goto trivial rfl
  | step => exact h.stepCall rfl hok hstep

end AgentSession

open AgentSession

end Yuanrong.SessionWait
