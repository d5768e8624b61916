import Mathlib.Data.Finset.Card
import Yuanrong.Lib.FinMap

/-!
# The simple time wheel

A ring of slots and a cursor that moves one slot per tick. A task is put into the slot its interval
ends in and skips the slot `circle` times. The slots hold the same triggers as `record`, so the
wheel is modelled by `record` alone. A trigger that fires is armed again unless its `times` had run
out before, so a task added with `times = 1` fires twice.
-/

namespace Yuanrong.TimeWheel

open AList Option Nat Bool

structure TimeTrigger where
  times : Int
  index : Nat
  circle : Nat
  circleCount : Nat
deriving DecidableEq

/-- Durations are in nanoseconds. The cursor and every trigger are in one of the slots. -/
structure SimpleTimeWheel where
  pace : Nat
  slotNum : Nat
  curSlot : Nat
  record : FinMap String TimeTrigger
  pace_pos : 0 < pace
  curSlot_lt : curSlot < slotNum
  index_lt : ∀ taskID t, record.lookup taskID = some t → t.index < slotNum

inductive TaskError
  | invalidTaskInterval
  | taskAlreadyExist (taskID : String)
deriving DecidableEq

def minPace : Nat := 2000000

def minSlotNum : Nat := 1

def newSimpleTimeWheel (pace slotNum : Nat) : SimpleTimeWheel where
  pace := max pace minPace
  slotNum := max slotNum minSlotNum
  curSlot := 0
  record := ∅
  pace_pos := lt_of_lt_of_le (by decide) (le_max_right _ _)
  curSlot_lt := lt_of_lt_of_le (by decide) (le_max_right _ _)
  index_lt _ _ hlookup := by cases hlookup

namespace SimpleTimeWheel

variable (w : SimpleTimeWheel) {taskID : String} {t : TimeTrigger}

def perimeter : Nat := w.slotNum * w.pace

/-- The trigger of a task set now: it is due `interval / pace + 1` slots ahead of the cursor. -/
def trigger (interval : Nat) (times : Int) : TimeTrigger :=
  let position := interval / w.pace + w.curSlot + 1
  let index := position % w.slotNum
  { times
    index
    circle := position / w.slotNum
    circleCount := if index > w.curSlot then 0 else 1 }

theorem trigger_index_lt (interval : Nat) (times : Int) : (w.trigger interval times).index < w.slotNum :=
  mod_lt _ (zero_lt_of_lt w.curSlot_lt)

def setTask (taskID : String) (interval : Nat) (times : Int) : SimpleTimeWheel :=
  { w with
    record := w.record.insert taskID (w.trigger interval times)
    index_lt := by
      exact forall_lookup_insert (w.trigger_index_lt interval times) w.index_lt }

def addTask (taskID : String) (interval : Nat) (times : Int) : Except TaskError SimpleTimeWheel :=
  if interval < w.perimeter then .error .invalidTaskInterval
  else if (w.record.lookup taskID).isSome then .error (.taskAlreadyExist taskID)
  else .ok (w.setTask taskID interval times)

def updateTask (taskID : String) (interval : Nat) (times : Int) : Except TaskError SimpleTimeWheel :=
  if (w.record.lookup taskID).isSome then .ok (w.setTask taskID interval times)
  else w.addTask taskID interval times

def delTask (taskID : String) : SimpleTimeWheel :=
  { w with
    record := w.record.erase taskID
    index_lt := fun taskID' t hlookup => w.index_lt taskID' t (lookup_of_erase hlookup) }

def nextSlot : Nat := (w.curSlot + 1) % w.slotNum

def due (t : TimeTrigger) : Bool := t.index = w.nextSlot && t.circleCount = t.circle

def visit (t : TimeTrigger) : TimeTrigger :=
  if t.index ≠ w.nextSlot then
    t
  else if t.circleCount = t.circle then
    { t with circleCount := 1, times := if t.times > 0 then t.times - 1 else t.times }
  else
    { t with circleCount := t.circleCount + 1 }

@[simp]
theorem visit_index (t : TimeTrigger) : (w.visit t).index = t.index := by
  unfold visit
  split_ifs <;> rfl

def fired : List String := (w.record.filter fun _ t => w.due t).keys

theorem mem_fired : taskID ∈ w.fired ↔ ∃ t, w.record.lookup taskID = some t ∧ w.due t = true := by
  unfold fired
  rw [mem_keys_iff]
  constructor
  · rintro ⟨t, hlookup⟩
    rw [lookup_filter] at hlookup
    exact ⟨t, filter_eq_some_iff.mp hlookup⟩
  · rintro ⟨t, hlookup, hdue⟩
    refine ⟨t, ?_⟩
    rw [lookup_filter]
    exact filter_eq_some_iff.mpr ⟨hlookup, hdue⟩

def tickRecord : FinMap String TimeTrigger :=
  (w.record.filter fun _ t => !(w.due t && t.times = 0)).mapVal fun _ => w.visit

theorem lookup_tickRecord (hlookup : w.tickRecord.lookup taskID = some t') :
    ∃ t, w.record.lookup taskID = some t ∧ t' = w.visit t := by
  rw [tickRecord, lookup_mapVal, lookup_filter] at hlookup
  obtain ⟨t, hfilter, hvisit⟩ := map_eq_some_iff.mp hlookup
  exact ⟨t, (filter_eq_some_iff.mp hfilter).1, hvisit.symm⟩

def tick : SimpleTimeWheel :=
  { w with
    curSlot := w.nextSlot
    curSlot_lt := mod_lt _ (zero_lt_of_lt w.curSlot_lt)
    record := w.tickRecord
    index_lt := by
      intro taskID t' hlookup
      obtain ⟨t, hold, rfl⟩ := w.lookup_tickRecord hlookup
      rw [visit_index]
      exact w.index_lt taskID t hold }

def slotsAhead (index : Nat) : Nat :=
  if index > w.curSlot then index - w.curSlot else index + w.slotNum - w.curSlot

def ticksLeft (t : TimeTrigger) : Nat :=
  w.slotsAhead t.index + (t.circle - t.circleCount) * w.slotNum

theorem nextSlot_eq : w.nextSlot = if w.curSlot + 1 = w.slotNum then 0 else w.curSlot + 1 := by
  have hcur := w.curSlot_lt
  unfold nextSlot
  split
  · rename_i hlast
    rw [hlast, mod_self]
  · exact mod_eq_of_lt (by omega)

theorem slotsAhead_nextSlot : w.slotsAhead w.nextSlot = 1 := by
  have hcur := w.curSlot_lt
  unfold slotsAhead
  rw [nextSlot_eq]
  split_ifs <;> omega

theorem slotsAhead_tick_nextSlot : w.tick.slotsAhead w.nextSlot = w.slotNum := by
  change (if w.nextSlot > w.nextSlot then _ else w.nextSlot + w.slotNum - w.nextSlot) = w.slotNum
  rw [if_neg (lt_irrefl _), Nat.add_sub_cancel_left]

/-- A tick brings the cursor one slot closer to every slot but the one it enters. -/
theorem slotsAhead_tick (hindex : index < w.slotNum) (hne : index ≠ w.nextSlot) :
    w.tick.slotsAhead index + 1 = w.slotsAhead index := by
  have hcur := w.curSlot_lt
  change (if index > w.nextSlot then index - w.nextSlot else index + w.slotNum - w.nextSlot) + 1 = _
  unfold slotsAhead
  rw [nextSlot_eq] at hne ⊢
  split_ifs at hne ⊢ <;> omega

theorem ticksLeft_pos (t : TimeTrigger) : 0 < w.ticksLeft t := by
  have hcur := w.curSlot_lt
  unfold ticksLeft slotsAhead
  split <;> omega

theorem trigger_live (interval : Nat) (times : Int) :
    (w.trigger interval times).circleCount ≤ (w.trigger interval times).circle := by
  unfold trigger
  dsimp only
  split
  · exact zero_le _
  rename_i hwrapped
  -- the position is past the cursor, so a slot up to the cursor is a whole turn away
  generalize interval / w.pace = paces at hwrapped ⊢
  by_contra hzero
  have hlt := (Nat.div_eq_zero_iff_lt (Nat.zero_lt_of_lt w.curSlot_lt)).mp (Nat.eq_zero_of_not_pos hzero)
  rw [mod_eq_of_lt hlt] at hwrapped
  omega

theorem ticksLeft_trigger (interval : Nat) (times : Int) :
    w.ticksLeft (w.trigger interval times) = interval / w.pace + 1 := by
  have hlive := w.trigger_live interval times
  have hcur := w.curSlot_lt
  unfold ticksLeft slotsAhead
  unfold trigger at hlive ⊢
  dsimp only at hlive ⊢
  generalize interval / w.pace = paces at hlive ⊢
  generalize hposition : paces + w.curSlot + 1 = position at hlive ⊢
  have hdivMod := div_add_mod' position w.slotNum
  split at hlive
  · rw [if_pos ‹_›, if_pos ‹_›, Nat.sub_zero]
    omega
  rw [if_neg ‹_›, if_neg ‹_›, Nat.sub_mul, one_mul]
  have hle : w.slotNum ≤ position / w.slotNum * w.slotNum := Nat.le_mul_of_pos_left _ hlive
  omega

theorem ticksLeft_of_due (hdue : w.due t = true) : w.ticksLeft t = 1 := by
  unfold due at hdue
  simp only [and_eq_true, decide_eq_true_eq] at hdue
  unfold ticksLeft
  rw [hdue.1, hdue.2, slotsAhead_nextSlot, Nat.sub_self, zero_mul, add_zero]

theorem ticksLeft_of_not_due (hindex : t.index < w.slotNum) (hdue : w.due t = false) :
    w.ticksLeft t ≤ w.tick.ticksLeft (w.visit t) + 1 ∧
      (t.circleCount ≤ t.circle → w.tick.ticksLeft (w.visit t) + 1 = w.ticksLeft t) := by
  unfold due at hdue
  simp only [and_eq_false_iff, decide_eq_false_iff_not] at hdue
  unfold ticksLeft
  change _ ≤ w.tick.slotsAhead (w.visit t).index +
    ((w.visit t).circle - (w.visit t).circleCount) * w.slotNum + 1 ∧ (_ → _ + _ * w.slotNum + 1 = _)
  rw [visit_index]
  unfold visit
  by_cases hnext : t.index = w.nextSlot
  · have hcount : t.circleCount ≠ t.circle := hdue.resolve_left (not_not.mpr hnext)
    rw [if_neg (not_not.mpr hnext), if_neg hcount, hnext, slotsAhead_nextSlot, slotsAhead_tick_nextSlot]
    dsimp only
    by_cases hlive : t.circleCount < t.circle
    · rw [show t.circle - t.circleCount = t.circle - (t.circleCount + 1) + 1 by omega, add_mul]
      omega
    · rw [Nat.sub_eq_zero_of_le (by omega), zero_mul]
      omega
  · rw [if_pos hnext, ← w.slotsAhead_tick hindex hnext]
    omega

def view (taskID : String) : Nat × Nat × Option TimeTrigger :=
  (w.curSlot, w.slotNum, w.record.lookup taskID)

variable {w w' : SimpleTimeWheel} {taskID : String} {interval left turn n : Nat} {times : Int}
  {other : String}

theorem eq_setTask
    (h : w.addTask taskID interval times = .ok w' ∨ w.updateTask taskID interval times = .ok w') :
    w' = w.setTask taskID interval times := by
  unfold updateTask addTask at h
  split_ifs at h <;> grind

/-- The task fires on the tick that is `left` ahead, and then after every `turn` ticks. -/
def Waits (w : SimpleTimeWheel) (taskID : String) (left turn : Nat) (times : Int) : Prop :=
  ∃ t, w.record.lookup taskID = some t ∧ t.circleCount ≤ t.circle ∧ w.ticksLeft t = left ∧
    t.circle * w.slotNum = turn ∧ t.times = times

theorem Waits.of_view (h : w.Waits taskID left turn times) (hview : w'.view taskID = w.view taskID) :
    w'.Waits taskID left turn times := by
  simp only [view, Prod.mk.injEq] at hview
  unfold Waits ticksLeft slotsAhead at h ⊢
  rwa [hview.1, hview.2.1, hview.2.2]

variable {t : TimeTrigger}

theorem due_iff (hlookup : w.record.lookup taskID = some t) (hlive : t.circleCount ≤ t.circle) :
    w.due t = true ↔ w.ticksLeft t = 1 := by
  refine ⟨w.ticksLeft_of_due, fun hone => ?_⟩
  by_contra hdue
  have hleft := (w.ticksLeft_of_not_due (w.index_lt taskID t hlookup) (eq_false_of_not_eq_true hdue)).2
  have hpos := w.tick.ticksLeft_pos (w.visit t)
  omega

theorem Waits.mem_fired (h : w.Waits taskID left turn times) : taskID ∈ w.fired ↔ left = 1 := by
  obtain ⟨t, hlookup, hlive, rfl, -⟩ := h
  rw [w.mem_fired, ← due_iff hlookup hlive, hlookup]
  simp

theorem lookup_tick : w.tick.record.lookup taskID = (w.record.lookup taskID).bind fun t =>
    if w.due t = true ∧ t.times = 0 then none else some (w.visit t) := by
  change w.tickRecord.lookup taskID = _
  rw [tickRecord, lookup_mapVal, lookup_filter]
  cases w.record.lookup taskID with
  | none => rfl
  | some t => grind [filter]

theorem Waits.tick (h : w.Waits taskID left turn times) (hleft : left ≠ 1) :
    w.tick.Waits taskID (left - 1) turn times := by
  obtain ⟨t, hlookup, hlive, rfl, rfl, rfl⟩ := h
  have hdue := (due_iff hlookup hlive).not.mpr hleft
  have hticks := (w.ticksLeft_of_not_due (w.index_lt taskID t hlookup) (eq_false_of_not_eq_true hdue)).2 hlive
  refine ⟨w.visit t, ?_, ?_, by omega, ?_⟩
  · rw [lookup_tick, hlookup, bind_some, if_neg fun h => hdue h.1]
  · unfold due at hdue
    unfold visit
    grind
  · change _ * w.slotNum = _ ∧ _
    unfold due at hdue
    unfold visit
    grind

theorem Waits.fire (h : w.Waits taskID 1 (turn + 1) times) (htimes : times ≠ 0) :
    w.tick.Waits taskID (turn + 1) (turn + 1) (if times > 0 then times - 1 else times) := by
  obtain ⟨t, hlookup, hlive, hone, hturn, rfl⟩ := h
  have hcircle : 0 < t.circle := pos_of_ne_zero fun hzero => by simp [hzero] at hturn
  have hnow := (due_iff hlookup hlive).mpr hone
  simp only [due, and_eq_true, decide_eq_true_eq] at hnow
  have hvisit : w.visit t =
      { t with circleCount := 1, times := if t.times > 0 then t.times - 1 else t.times } := by
    rw [visit, if_neg (not_not.mpr hnow.1), if_pos hnow.2]
  refine ⟨w.visit t, ?_, ?_⟩
  · rw [lookup_tick, hlookup, bind_some, if_neg fun h => htimes h.2]
  rw [hvisit]
  refine ⟨hcircle, ?_, hturn, rfl⟩
  unfold ticksLeft
  rw [hnow.1, slotsAhead_tick_nextSlot]
  change _ + _ * w.slotNum = _
  rw [Nat.sub_mul, one_mul, Nat.add_sub_cancel' (Nat.le_mul_of_pos_left _ hcircle), hturn]

theorem Waits.last (h : w.Waits taskID 1 turn 0) : w.tick.record.lookup taskID = none := by
  obtain ⟨t, hlookup, hlive, hone, -, htimes⟩ := h
  rw [lookup_tick, hlookup, bind_some, if_pos ⟨(due_iff hlookup hlive).mpr hone, htimes⟩]

def period (w : SimpleTimeWheel) (interval : Nat) : Nat :=
  (interval / w.pace + w.curSlot + 1) / w.slotNum * w.slotNum

theorem waits_setTask : (w.setTask taskID interval times).Waits taskID (interval / w.pace + 1)
    (w.period interval) times :=
  ⟨w.trigger interval times, lookup_insert _, w.trigger_live _ _, w.ticksLeft_trigger _ _, rfl, rfl⟩

/-- How many of the first `n` ready lists have the task. -/
def firings (ws : Nat → SimpleTimeWheel) (taskID : String) (n : Nat) : Nat :=
  ((Finset.range n).filter fun k => taskID ∈ (ws k).fired).card

/-- What `times` says: for ever if it is -1, and else that often, with the task gone after it. -/
def FiresTimes (taskID : String) (ws : Nat → SimpleTimeWheel) (times : Int) : Prop :=
  if times = -1 then ∀ n, ∃ k, n ≤ k ∧ taskID ∈ (ws k).fired
  else ∃ N, ∀ n, N ≤ n → firings ws taskID n = times ∧ (ws n).record.lookup taskID = none

/-- The wheel before each tick. Between two ticks other tasks may be set and deleted. -/
def Run (taskID : String) (ws : Nat → SimpleTimeWheel) : Prop :=
  ∀ n, (ws (n + 1)).view taskID = (ws n).tick.view taskID

theorem run_iterate : Run taskID fun n => tick^[n] w := fun n =>
  congrArg (view · taskID) (Function.iterate_succ_apply' tick n w)

def fourPaces (times : Int) : SimpleTimeWheel := (newSimpleTimeWheel 0 3).setTask "t" 8000000 times

theorem addTask_fourPaces (times : Int) :
    (newSimpleTimeWheel 0 3).addTask "t" 8000000 times = .ok (fourPaces times) := rfl

variable {ws : Nat → SimpleTimeWheel} (hrun : Run taskID ws)
include hrun

theorem Run.waits (h : (ws 0).Waits taskID (left + 1) turn times) (hn : n ≤ left) :
    (ws n).Waits taskID (left + 1 - n) turn times := by
  induction n with
  | zero => exact h
  | succ n ih => exact ((ih (by omega)).tick (by omega)).of_view (hrun n)

theorem Run.first (h : (ws 0).Waits taskID (left + 1) turn times) (hn : n ≤ left) :
    taskID ∈ (ws n).fired ↔ n = left := by
  rw [(hrun.waits h hn).mem_fired]
  omega

theorem Run.shift (k : Nat) : Run taskID fun n => ws (k + n) := fun n => hrun (k + n)

theorem Run.refires (h : (ws 0).Waits taskID (left + 1) (turn + 1) times) (htimes : times ≠ 0) :
    (ws (left + 1)).Waits taskID (turn + 1) (turn + 1) (if times > 0 then times - 1 else times) := by
  have hlast := hrun.waits h le_rfl
  rw [Nat.add_sub_cancel_left] at hlast
  exact (hlast.fire htimes).of_view (hrun left)

theorem Run.gone (h : (ws 0).Waits taskID (left + 1) turn 0) (hn : left < n) :
    (ws n).record.lookup taskID = none ∧ taskID ∉ (ws n).fired := by
  have hnone : (ws n).record.lookup taskID = none := by
    induction n, hn using le_induction with
    | base =>
      have hlast := hrun.waits h le_rfl
      rw [Nat.add_sub_cancel_left] at hlast
      exact (congrArg (·.2.2) (hrun left)).trans hlast.last
    | succ n _ ih => exact (congrArg (·.2.2) (hrun n)).trans (lookup_tick.trans (congrArg (bind · _) ih))
  refine ⟨hnone, fun hmem => ?_⟩
  obtain ⟨t, hlookup, -⟩ := (ws n).mem_fired.mp hmem
  cases hnone.symm.trans hlookup

theorem Run.fired_iff (h : (ws 0).Waits taskID (left + 1) (turn + 1) times) :
    (taskID ∈ (ws n).fired ↔ ∃ q : Nat, n = left + q * (turn + 1) ∧ (0 ≤ times → q ≤ times)) ∧
      (0 ≤ times → left + times.toNat * (turn + 1) < n → (ws n).record.lookup taskID = none) := by
  induction n using Nat.strong_induction_on generalizing ws left times with
  | _ n ih =>
    by_cases hn : n ≤ left
    · rw [hrun.first h hn]
      refine ⟨⟨fun heq => ⟨0, by omega, id⟩, ?_⟩, fun _ hlt => by omega⟩
      rintro ⟨q, heq, -⟩
      omega
    by_cases hlast : times = 0
    · subst hlast
      have hgone := hrun.gone h (not_le.mp hn)
      refine ⟨iff_of_false hgone.2 ?_, fun _ _ => hgone.1⟩
      rintro ⟨q, rfl, hq⟩
      simp [show q = 0 by omega] at hn
    obtain ⟨r, rfl⟩ := Nat.exists_eq_add_of_le (not_le.mp hn)
    obtain ⟨hfired, hgone⟩ := ih r (by omega) (hrun.shift (left + 1)) (hrun.refires h hlast)
    refine ⟨hfired.trans ⟨?_, ?_⟩, fun htimes hlt => hgone ?_ ?_⟩ <;> clear hfired hgone
    · rintro ⟨q, rfl, hq⟩
      refine ⟨q + 1, ?_, by grind⟩
      rw [succ_mul]
      omega
    · rintro ⟨_ | q, heq, hq⟩
      · omega
      rw [succ_mul] at heq
      exact ⟨q, by omega, by grind⟩
    · grind
    · rw [if_pos (by omega)]
      obtain ⟨m, rfl⟩ : ∃ m : Nat, times = m + 1 := ⟨(times - 1).toNat, by omega⟩
      rw [show ((m : Int) + 1).toNat = m + 1 from rfl, succ_mul] at hlt
      rw [add_sub_cancel_right, Int.toNat_natCast]
      omega

/-- A task that is set fires for the first time on the tick after as many as its interval has
paces. -/
theorem fires_first
    (hset : w.addTask taskID interval times = .ok w' ∨ w.updateTask taskID interval times = .ok w')
    (hview : (ws 0).view taskID = w'.view taskID) (hn : n ≤ interval / w.pace) :
    taskID ∈ (ws n).fired ↔ n = interval / w.pace := by
  rw [eq_setTask hset] at hview
  exact hrun.first (waits_setTask.of_view hview) hn

omit hrun in
theorem fires_first_fifth : "t" ∈ (tick^[4] (fourPaces 1)).fired :=
  (fires_first run_iterate (.inl (addTask_fourPaces 1)) rfl (by decide)).mpr rfl

omit hrun in
theorem period_pos (hadd : w.addTask taskID interval times = .ok w') : 0 < w.period interval := by
  have hslots := zero_lt_of_lt w.curSlot_lt
  refine mul_pos (div_pos ?_ hslots) hslots
  unfold addTask at hadd
  split at hadd
  · cases hadd
  have hpaces := (le_div_iff_mul_le w.pace_pos).mpr (not_lt.mp ‹_›)
  omega

section Add

variable (hadd : w.addTask taskID interval times = .ok w')
  (hview : (ws 0).view taskID = w'.view taskID)
include hadd hview

theorem fired_iff_of_add : (∀ n, taskID ∈ (ws n).fired ↔
      ∃ q : Nat, n = interval / w.pace + q * w.period interval ∧ (0 ≤ times → q ≤ times)) ∧
      (0 ≤ times → ∀ n, interval / w.pace + times.toNat * w.period interval < n →
        (ws n).record.lookup taskID = none) := by
  rw [eq_setTask (.inl hadd)] at hview
  have hwaits := waits_setTask.of_view hview
  obtain ⟨turn, hturn⟩ := exists_eq_add_one.mpr (period_pos hadd)
  rw [hturn] at hwaits ⊢
  exact ⟨fun n => (hrun.fired_iff hwaits).1, fun htimes n => (hrun.fired_iff hwaits).2 htimes⟩

/-- After its last firing a task has been on one ready list more than its `times`. -/
theorem firings_eq (htimes : 0 ≤ times)
    (hn : interval / w.pace + times.toNat * w.period interval < n) :
    firings ws taskID n = times + 1 := by
  obtain ⟨m, rfl⟩ := Int.eq_ofNat_of_zero_le htimes
  have hpos := period_pos hadd
  have himage : ((Finset.range n).filter fun k => taskID ∈ (ws k).fired) =
      (Finset.range (m + 1)).image fun q => interval / w.pace + q * w.period interval := by
    ext k
    simp only [Finset.mem_filter, Finset.mem_range, Finset.mem_image,
      (fired_iff_of_add hrun hadd hview).1]
    constructor
    · rintro ⟨-, q, rfl, hq⟩
      exact ⟨q, by omega, rfl⟩
    · rintro ⟨q, hq, rfl⟩
      refine ⟨?_, q, rfl, by omega⟩
      have hle := mul_le_mul_right (w.period interval) (le_of_lt_succ hq)
      rw [Int.toNat_natCast] at hn
      omega
  unfold firings
  rw [himage, Finset.card_image_of_injective, Finset.card_range]
  · rfl
  · intro q q' heq
    exact Nat.eq_of_mul_eq_mul_right hpos (Nat.add_left_cancel heq)

/-- A task fires as often as its `times` say only if they say for ever; with `times ≥ 0` it fires
once more, and is then gone. -/
theorem fires_times : (times = -1 → FiresTimes taskID ws times) ∧
    (1 ≤ times → ¬FiresTimes taskID ws times) ∧ (0 ≤ times → FiresTimes taskID ws (times + 1)) := by
  obtain ⟨hfires, hgone⟩ := fired_iff_of_add hrun hadd hview
  refine ⟨?_, ?_, ?_⟩
  · rintro rfl
    rw [FiresTimes, if_pos rfl]
    intro n
    refine ⟨_, ?_, (hfires _).mpr ⟨n, rfl, by omega⟩⟩
    exact (Nat.le_mul_of_pos_right n (period_pos hadd)).trans (Nat.le_add_left _ _)
  · intro hone hsaid
    rw [FiresTimes, if_neg (by omega)] at hsaid
    obtain ⟨N, hN⟩ := hsaid
    have hcount := (hN _ (le_max_left N (interval / w.pace + times.toNat * w.period interval + 1))).1
    rw [firings_eq hrun hadd hview (by omega) (lt_of_succ_le (le_max_right _ _))] at hcount
    omega
  · intro htimes
    rw [FiresTimes, if_neg (by omega)]
    exact ⟨interval / w.pace + times.toNat * w.period interval + 1, fun n hn =>
      ⟨firings_eq hrun hadd hview htimes (by omega), hgone htimes n (by omega)⟩⟩

omit hrun hadd hview in
theorem fires_times_one : ¬FiresTimes "t" (fun n => tick^[n] (fourPaces 1)) 1 :=
  (fires_times run_iterate (addTask_fourPaces 1) rfl).2.1 (by decide)

omit hrun hadd hview in
theorem fires_twice : (newSimpleTimeWheel 0 3).addTask "t" 8000000 1 = .ok (fourPaces 1) ∧
    "t" ∈ (tick^[4] (fourPaces 1)).fired ∧ "t" ∈ (tick^[7] (fourPaces 1)).fired :=
  ⟨rfl, by decide, by decide⟩

/-- A task fires again after its period, which is its interval up to the size of the wheel unless it
went into a slot past the next one, or into slot 0 from the last one. -/
theorem fires_period {d : Nat} (hfirst : taskID ∈ (ws n).fired) (hnext : taskID ∈ (ws (n + d)).fired)
    (hd : 0 < d) (hbetween : ∀ k < d, 0 < k → taskID ∉ (ws (n + k)).fired) :
    d = w.period interval ∧
      (interval / w.pace ≤ d ∧ d < interval / w.pace + w.slotNum ↔
        (w.trigger interval times).index ≤ w.curSlot + 1 ∧
          w.curSlot + 1 < w.slotNum + (w.trigger interval times).index) := by
  have hfires := (fired_iff_of_add hrun hadd hview).1
  have hperiod : d = w.period interval := by
    obtain ⟨p, hp, -⟩ := (hfires n).mp hfirst
    obtain ⟨q, hq, hlast⟩ := (hfires (n + d)).mp hnext
    have hlt : p < q := Nat.lt_of_mul_lt_mul_right (a := w.period interval) (by omega)
    have hmul := mul_le_mul_right (w.period interval) hlt
    rw [succ_mul] at hmul
    by_contra hne
    refine hbetween (w.period interval) (by omega) (period_pos hadd) ((hfires _).mpr ⟨p + 1, ?_, by omega⟩)
    rw [succ_mul]
    omega
  have hposition := div_add_mod' (interval / w.pace + w.curSlot + 1) w.slotNum
  have hcur := w.curSlot_lt
  rw [hperiod]
  unfold period trigger
  dsimp only
  omega

end Add

omit hrun in
theorem fires_period_three : 3 = (newSimpleTimeWheel 0 3).period 8000000 :=
  (fires_period run_iterate (addTask_fourPaces 1) rfl (n := 4) (by decide) (by decide) (by decide)
    (by decide)).1

omit hrun in
/-- There are fewer ticks from one firing to the next than paces in the interval. -/
theorem fires_early : (newSimpleTimeWheel 0 3).addTask "t" 8000000 (-1) = .ok (fourPaces (-1)) ∧
    "t" ∈ (tick^[4] (fourPaces (-1))).fired ∧ "t" ∈ (tick^[4 + 3] (fourPaces (-1))).fired ∧
      3 < 8000000 / (newSimpleTimeWheel 0 3).pace :=
  ⟨rfl, by decide, by decide, by decide⟩

end SimpleTimeWheel

end Yuanrong.TimeWheel
