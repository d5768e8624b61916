import Mathlib.Init

/-!
# Busy and idle reports

Guards count the activity of the runtime. A report is made when the count leaves zero, some time
after it has come back there, and now and then by a snapshot. The three take one mutex.
-/

namespace Yuanrong.Rrt

/-- `IDLE_REPORT_DEBOUNCE` in nanoseconds. -/
def idleReportDebounce : Nat := 800000000

/-- A task of `schedule_idle_report`. -/
structure IdleTask where
  epoch : Nat
  since : Nat

/-- The reports are the newest first, `true` for busy. `lastDrop` is a record. -/
structure Activity where
  now : Nat := 0
  active : Nat := 0
  idleEpoch : Nat := 0
  idleSince : Option Nat := none
  tasks : List IdleTask := []
  reports : List Bool := []
  lastDrop : Option Nat := none

namespace Activity

inductive Event
  | enter (reassertsBusy : Bool)
  | drop
  | idleTask (i : Nat)
  | reportCurrentActivity
  | tick (elapsed : Nat)

variable (s : Activity)

def report (busy : Bool) : Activity := { s with reports := busy :: s.reports }

def enter (reassertsBusy : Bool) : Activity :=
  let s' := { s with active := s.active + 1 }
  if s.active = 0 then { s' with idleSince := none, idleEpoch := s.idleEpoch + 1 }.report true
  else if reassertsBusy then s'.report true
  else s'

def drop : Activity :=
  let s' := { s with active := s.active - 1, lastDrop := some s.now }
  if s.active = 1 then
    { s' with
      idleSince := some s.now
      idleEpoch := s.idleEpoch + 1
      tasks := { epoch := s.idleEpoch + 1, since := s.now } :: s.tasks }
  else s'

def runTask (i : Nat) (t : IdleTask) : Activity :=
  let s' := { s with tasks := s.tasks.eraseIdx i }
  if s.idleEpoch ≠ t.epoch ∨ s.active ≠ 0 then s' else s'.report false

def reportCurrentActivity : Activity :=
  if s.active = 0 ∧ s.idleSince.any fun since => s.now < since + idleReportDebounce then s
  else s.report (0 < s.active)

/-- What happens, where it can: a guard is dropped that is there, a task runs when its sleep is
over. -/
def next : Event → Activity
  | .enter reassertsBusy => s.enter reassertsBusy
  | .drop => if s.active = 0 then s else s.drop
  | .idleTask i =>
    match s.tasks[i]? with
    | some t => if s.now < t.since + idleReportDebounce then s else s.runTask i t
    | none => s
  | .reportCurrentActivity => s.reportCurrentActivity
  | .tick elapsed => { s with now := s.now + elapsed }

structure Inv : Prop where
  busy : 0 < s.active → s.reports.head? = some true
  idle : s.active = 0 → s.idleSince = s.lastDrop
  epoch : ∀ t ∈ s.tasks, t.epoch ≤ s.idleEpoch
  since : ∀ t ∈ s.tasks, t.epoch = s.idleEpoch → s.active = 0 → s.lastDrop = some t.since

variable {s}

theorem Inv.enter (h : s.Inv) (reassertsBusy : Bool) : (s.enter reassertsBusy).Inv := by
  unfold Activity.enter
  dsimp only
  split
  case isTrue =>
    refine ⟨fun _ => rfl, nofun, fun t ht => Nat.le_succ_of_le (h.epoch t ht), ?_⟩
    exact fun _ _ _ hzero => absurd hzero (Nat.succ_ne_zero _)
  case isFalse hactive =>
    have hbusy := h.busy (Nat.pos_of_ne_zero hactive)
    split
    · exact ⟨fun _ => rfl, nofun, h.epoch, fun _ _ _ hzero => absurd hzero (Nat.succ_ne_zero _)⟩
    · exact ⟨fun _ => hbusy, nofun, h.epoch, fun _ _ _ hzero => absurd hzero (Nat.succ_ne_zero _)⟩

theorem Inv.drop (h : s.Inv) (hactive : s.active ≠ 0) : s.drop.Inv := by
  unfold Activity.drop
  dsimp only
  have hbusy := h.busy (Nat.pos_of_ne_zero hactive)
  split
  case isTrue =>
    refine ⟨fun _ => hbusy, fun _ => rfl, ?_, ?_⟩
    · intro t ht
      rcases List.mem_cons.mp ht with rfl | hold
      · exact Nat.le_refl _
      · exact Nat.le_succ_of_le (h.epoch t hold)
    · intro t ht hepoch _
      rcases List.mem_cons.mp ht with rfl | hold
      · rfl
      -- the epoch is new, so no older task has it
      · exact absurd (h.epoch t hold) (by rw [hepoch]; exact Nat.not_succ_le_self _)
  case isFalse hone =>
    have hpos : s.active - 1 ≠ 0 := by omega
    exact ⟨fun _ => hbusy, fun hzero => absurd hzero hpos, h.epoch, fun _ _ _ hzero => absurd hzero hpos⟩

theorem Inv.runTask (h : s.Inv) (i : Nat) (t : IdleTask) : (s.runTask i t).Inv := by
  have hsub : ∀ t' ∈ s.tasks.eraseIdx i, t' ∈ s.tasks := fun _ => List.mem_of_mem_eraseIdx
  unfold Activity.runTask
  dsimp only
  split
  case isTrue =>
    exact ⟨h.busy, h.idle, fun t' ht' => h.epoch t' (hsub t' ht'), fun t' ht' => h.since t' (hsub t' ht')⟩
  case isFalse hgo =>
    refine ⟨fun hpos => absurd (Nat.ne_of_gt hpos) (not_or.mp hgo).2, h.idle, ?_, ?_⟩
    · exact fun t' ht' => h.epoch t' (hsub t' ht')
    · exact fun t' ht' => h.since t' (hsub t' ht')

theorem Inv.step (h : s.Inv) (e : Event) : (s.next e).Inv := by
  cases e with
  | enter reassertsBusy => exact h.enter reassertsBusy
  | drop =>
    simp only [next]
    split
    case isTrue => exact h
    case isFalse hactive => exact h.drop hactive
  | idleTask i =>
    simp only [next]
    split
    case h_2 => exact h
    case h_1 t ht =>
      split
      · exact h
      · exact h.runTask i t
  | reportCurrentActivity =>
    simp only [next, Activity.reportCurrentActivity]
    split
    · exact h
    · exact { h with busy := fun hpos => congrArg some (decide_eq_true hpos) }
  | tick => exact { h with }

/-- An idle report is made without a guard, some time after the last has gone. -/
theorem Inv.of_reports (h : s.Inv) {e : Event} (hreports : (s.next e).reports = false :: s.reports) :
    s.active = 0 ∧ ∀ since, s.lastDrop = some since → since + idleReportDebounce ≤ s.now := by
  have hself : s.reports ≠ false :: s.reports := (List.cons_ne_self false s.reports).symm
  cases e with
  | enter | drop | tick =>
    simp only [next, Activity.enter, Activity.drop] at hreports
    repeat' split at hreports
    all_goals simp [report, hself] at hreports
  | idleTask i =>
    simp only [next, Activity.runTask] at hreports
    repeat' split at hreports
    case h_1.isFalse.isFalse t ht hlate hgo =>
      obtain ⟨hepoch, hactive⟩ : s.idleEpoch = t.epoch ∧ s.active = 0 := by simpa using hgo
      refine ⟨hactive, fun since hsince => ?_⟩
      rw [h.since t (List.mem_of_getElem? ht) hepoch.symm hactive] at hsince
      cases hsince
      exact Nat.le_of_not_lt hlate
    all_goals exact absurd hreports hself
  | reportCurrentActivity =>
    simp only [next, Activity.reportCurrentActivity] at hreports
    split at hreports
    case isTrue => exact absurd hreports hself
    case isFalse hlate =>
      have hactive : s.active = 0 := by simpa [report] using hreports
      refine ⟨hactive, fun since hsince => Nat.le_of_not_lt fun hearly => hlate ⟨hactive, ?_⟩⟩
      rw [h.idle hactive, hsince, Option.any_some]
      exact decide_eq_true hearly

/-- After some events the task is still there and reports idle when it runs, or it has run and did
so. -/
def Reported (t : IdleTask) (s : Activity) (es : List Event) : Prop :=
  (∃ i, (es.foldl next s).tasks[i]? = some t ∧
      (t.since + idleReportDebounce ≤ (es.foldl next s).now →
        ((es.foldl next s).next (.idleTask i)).reports = false :: (es.foldl next s).reports)) ∨
    ∃ front back i, es = front ++ .idleTask i :: back ∧ (front.foldl next s).tasks[i]? = some t ∧
      ((front.foldl next s).next (.idleTask i)).reports = false :: (front.foldl next s).reports

section

variable {t : IdleTask} (hactive : s.active = 0) (hepoch : t.epoch = s.idleEpoch)
include hactive hepoch

theorem reports_of_task (ht : s.tasks[i]? = some t) (hlate : t.since + idleReportDebounce ≤ s.now) :
    (s.next (.idleTask i)).reports = false :: s.reports := by
  simp only [next, ht, Activity.runTask]
  rw [if_neg (Nat.not_lt.mpr hlate), if_neg (by simp [hactive, hepoch])]
  rfl

theorem task_stays (ht : t ∈ s.tasks) {e : Event} (hno : ∀ r, e ≠ .enter r) :
    (t ∈ (s.next e).tasks ∧ (s.next e).active = 0 ∧ t.epoch = (s.next e).idleEpoch) ∨
      ∃ i, e = .idleTask i ∧ s.tasks[i]? = some t ∧ (s.next e).reports = false :: s.reports := by
  cases e with
  | enter r => exact absurd rfl (hno r)
  | drop =>
    simp only [next, if_pos hactive]
    exact .inl ⟨ht, hactive, hepoch⟩
  | idleTask i =>
    cases hget : s.tasks[i]? with
    | none =>
      simp only [next, hget]
      exact .inl ⟨ht, hactive, hepoch⟩
    | some t' =>
      by_cases hearly : s.now < t'.since + idleReportDebounce
      · simp only [next, hget, if_pos hearly]
        exact .inl ⟨ht, hactive, hepoch⟩
      by_cases heq : t' = t
      · subst heq
        exact .inr ⟨i, rfl, hget, reports_of_task hactive hepoch hget (Nat.le_of_not_lt hearly)⟩
      · have hstays : t ∈ s.tasks.eraseIdx i := by
          obtain ⟨j, hj⟩ := List.mem_iff_getElem?.mp ht
          refine List.mem_eraseIdx_iff_getElem?.mpr ⟨j, ?_, hj⟩
          rintro rfl
          exact heq (Option.some.inj (hget.symm.trans hj))
        simp only [next, hget, if_neg hearly, Activity.runTask]
        split
        all_goals exact .inl ⟨hstays, hactive, hepoch⟩
  | reportCurrentActivity =>
    simp only [next, Activity.reportCurrentActivity]
    split
    all_goals exact .inl ⟨ht, hactive, hepoch⟩
  | tick => exact .inl ⟨ht, hactive, hepoch⟩

theorem reported_of_task (ht : t ∈ s.tasks) {es : List Event} (hno : ∀ r, Event.enter r ∉ es) :
    Reported t s es := by
  induction es generalizing s with
  | nil =>
    obtain ⟨i, hi⟩ := List.mem_iff_getElem?.mp ht
    exact .inl ⟨i, hi, reports_of_task hactive hepoch hi⟩
  | cons e es ih =>
    have hhead : ∀ r, e ≠ .enter r := by
      rintro r rfl
      exact hno r List.mem_cons_self
    rcases task_stays hactive hepoch ht hhead with ⟨ht', hactive', hepoch'⟩ | ⟨i, rfl, hi, hreports⟩
    · rcases ih hactive' hepoch' ht' (fun r hr => hno r (List.mem_cons_of_mem _ hr)) with
        hstill | ⟨front, back, i, rfl, hrun⟩
      · exact .inl hstill
      · exact .inr ⟨e :: front, back, i, rfl, hrun⟩
    · exact .inr ⟨[], es, i, rfl, hi, hreports⟩

end

theorem drop_task (hone : s.active = 1) : (s.next .drop).active = 0 ∧
    (s.next .drop).idleEpoch = s.idleEpoch + 1 ∧
    { epoch := s.idleEpoch + 1, since := s.now } ∈ (s.next .drop).tasks := by
  simp [next, Activity.drop, hone]

end Activity

/-- With a guard the last report is busy. Idle is reported without one, and when the last has been
gone for long enough. The drop of the last guard makes a task that reports idle if there is no
`enter` before it runs. -/
theorem activity_reported (es : List Activity.Event) :
    let s := es.foldl Activity.next {}
    (0 < s.active → s.reports.head? = some true) ∧
      (∀ e, (s.next e).reports = false :: s.reports →
        s.active = 0 ∧ ∀ since, s.lastDrop = some since → since + idleReportDebounce ≤ s.now) ∧
      (s.active = 1 → ∀ later, (∀ r, Activity.Event.enter r ∉ later) →
        Activity.Reported { epoch := s.idleEpoch + 1, since := s.now } (s.next .drop) later) := by
  intro s
  have h : s.Inv := List.foldlRecOn (motive := Activity.Inv) es
    Activity.next ⟨nofun, fun _ => rfl, nofun, nofun⟩ fun s h e _ => h.step e
  refine ⟨h.busy, fun e => h.of_reports, fun hone later hno => ?_⟩
  obtain ⟨hactive, hepoch, htask⟩ := Activity.drop_task hone
  exact Activity.reported_of_task hactive hepoch.symm htask hno

/-- Two guards, the last one dropped after a second; the next report comes 0.8 s later. -/
theorem activity_reported_idle :
    let s := [Activity.Event.enter false, .enter true, .drop, .tick 1000000000].foldl Activity.next {}
    s.active = 1 ∧ s.reports.head? = some true ∧
      Activity.Reported { epoch := 2, since := 1000000000 } (s.next .drop)
        [.reportCurrentActivity, .tick 800000000, .idleTask 0] := by
  intro s
  have hmain := activity_reported [.enter false, .enter true, .drop, .tick 1000000000]
  exact ⟨rfl, hmain.1 (by decide), hmain.2.2 rfl _ (by simp)⟩

end Yuanrong.Rrt
