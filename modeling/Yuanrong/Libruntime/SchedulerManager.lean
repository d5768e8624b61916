import Mathlib.Data.List.GetD
import Mathlib.Data.List.Rotate
import Yuanrong.Lib.FinMap
import Yuanrong.Lib.StepSystem

/-!
# The scheduler that a request is sent to

`SchedulerManager` keeps the schedulers by name, their ids in a shuffled list and the routes of
functions in a cache. Without a route a request goes round the list, by an index that all callers
advance.
-/

namespace Yuanrong.Libruntime

open AList List Option Nat

structure SchedulerInstance where
  instanceName : String
  instanceID : String
  isAvailable : Bool

structure SchedulerManager where
  schedulerInfoMap : FinMap String String := ∅
  shuffledSchedulerList : List String := []
  currentIndex : Nat := 0
  lruCache : FinMap String String := ∅

namespace SchedulerManager

/-- An id that the request's list does not have is taken to be available. -/
def unavailable (schedulerInfos : List SchedulerInstance) (schedulerId : String) : Bool :=
  (schedulerInfos.find? (·.instanceID = schedulerId)).any (!·.isAvailable)

/-- The loop of `TryGetFromShuffledList`; other callers advance the index by `others left` before a
turn. -/
def tryGetFromShuffledList (list : List String) (schedulerInfos : List SchedulerInstance)
    (others : Nat → Nat) : Nat → Nat → Option String × Nat
  | 0, currentIndex => (none, currentIndex)
  | left + 1, currentIndex =>
    let index := (currentIndex + others left) % 2 ^ 64
    let schedulerId := list.getD (index % list.length) ""
    if unavailable schedulerInfos schedulerId then
      tryGetFromShuffledList list schedulerInfos others left ((index + 1) % 2 ^ 64)
    else (some schedulerId, (index + 1) % 2 ^ 64)

variable (m : SchedulerManager)

/-- `none` is `ALL_SCHEDULER_UNAVAILABLE`. -/
def next (functionId : String) (schedulerInfos : List SchedulerInstance) (others : Nat → Nat) :
    Option String × SchedulerManager :=
  if functionId = "" then (none, m)
  else
    match (m.lruCache.lookup functionId).filter fun id => id ≠ "" && !unavailable schedulerInfos id with
    | some id => (some id, m)
    | none =>
      let found := tryGetFromShuffledList m.shuffledSchedulerList schedulerInfos others
        m.shuffledSchedulerList.length m.currentIndex
      (found.1.filter (· ≠ ""), { m with currentIndex := found.2 })

def ids : List String := m.schedulerInfoMap.entries.map Sigma.snd

def add (schedulerName schedulerId : String) : SchedulerManager :=
  if schedulerName = "" ∨ schedulerId = "" then m
  else
    { m with
      schedulerInfoMap := m.schedulerInfoMap.insert schedulerName schedulerId
      shuffledSchedulerList :=
        if schedulerId ∈ m.shuffledSchedulerList then m.shuffledSchedulerList
        else m.shuffledSchedulerList ++ [schedulerId] }

def remove (schedulerName : String) : SchedulerManager :=
  match m.schedulerInfoMap.lookup schedulerName with
  | none => m
  | some id =>
    { m with
      schedulerInfoMap := m.schedulerInfoMap.erase schedulerName
      shuffledSchedulerList := m.shuffledSchedulerList.filter (· ≠ id) }

def resetAll (schedulerInfoList : List SchedulerInstance) (shuffled : List String) : SchedulerManager where
  schedulerInfoMap := schedulerInfoList.foldl (fun infoMap info =>
    if info.instanceName = "" ∨ info.instanceID = "" ∨ !info.isAvailable then infoMap
    else infoMap.insert info.instanceName info.instanceID) ∅
  shuffledSchedulerList := shuffled
  currentIndex := if shuffled = [] then m.currentIndex else 0

/-- The cache drops the route of `evicted` to make room, if it has one. -/
inductive Event
  | add (schedulerName schedulerId : String)
  | remove (schedulerName : String)
  | removeAll
  | resetAll (schedulerInfoList : List SchedulerInstance) (shuffled : List String)
  | setRoute (functionId schedulerId evicted : String)
  | removeRoute (functionId : String)
  | next (functionId : String) (schedulerInfos : List SchedulerInstance) (others : Nat → Nat)

/-- A route is set to a scheduler that is there at that time. -/
def step : Event → Option SchedulerManager
  | .add schedulerName schedulerId => some (m.add schedulerName schedulerId)
  | .remove schedulerName => some (m.remove schedulerName)
  | .removeAll => some {}
  | .resetAll schedulerInfoList shuffled =>
    if shuffled.Perm (m.resetAll schedulerInfoList shuffled).ids then
      some (m.resetAll schedulerInfoList shuffled)
    else none
  | .setRoute functionId schedulerId evicted =>
    if schedulerId ∈ m.ids then
      some { m with lruCache := (m.lruCache.erase evicted).insert functionId schedulerId }
    else none
  | .removeRoute functionId => some { m with lruCache := m.lruCache.erase functionId }
  | .next functionId schedulerInfos others => some (m.next functionId schedulerInfos others).2

/-- No scheduler is replaced under its name or leaves while a route leads to it. -/
def orderly : Event → Bool
  | .add schedulerName schedulerId => (m.schedulerInfoMap.lookup schedulerName).all (· = schedulerId)
  | .remove schedulerName => (m.schedulerInfoMap.lookup schedulerName).all fun id =>
      m.lruCache.entries.all (·.2 ≠ id)
  | _ => true

variable {m} {schedulerInfos : List SchedulerInstance} {list : List String}
  {others : Nat → Nat} {left currentIndex : Nat} {id : String}

theorem unavailable_of_tryGet (hroom : currentIndex + left ≤ 2 ^ 64)
    (hnone : (tryGetFromShuffledList list schedulerInfos (fun _ => 0) left currentIndex).1 = none) :
    ∀ j < left, unavailable schedulerInfos (list.getD ((j + currentIndex) % list.length) "") = true := by
  induction left generalizing currentIndex with
  | zero => nofun
  | succ left ih =>
    have hindex : (currentIndex + 0) % 2 ^ 64 = currentIndex := mod_eq_of_lt (by omega)
    rw [tryGetFromShuffledList, hindex] at hnone
    split at hnone
    case isFalse => cases hnone
    rename_i hunavailable
    intro j hj
    cases j with
    | zero => rwa [zero_add]
    | succ j =>
      have hnext : (currentIndex + 1) % 2 ^ 64 = currentIndex + 1 := mod_eq_of_lt (by omega)
      rw [hnext] at hnone
      rw [add_right_comm, add_assoc]
      exact ih (by omega) hnone j (by omega)

theorem mem_of_tryGet (hne : list ≠ [])
    (hsome : (tryGetFromShuffledList list schedulerInfos others left currentIndex).1 = some id) :
    id ∈ list := by
  induction left generalizing currentIndex with
  | zero => cases hsome
  | succ left ih =>
    rw [tryGetFromShuffledList] at hsome
    split at hsome
    · exact ih hsome
    cases hsome
    rw [getD_eq_getElem _ _ (mod_lt _ (length_pos_iff.mpr hne))]
    exact getElem_mem _

theorem mem_ids : id ∈ m.ids ↔ ∃ name, m.schedulerInfoMap.lookup name = some id := by
  constructor
  · intro hmem
    obtain ⟨⟨name, _⟩, hentry, rfl⟩ := mem_map.mp hmem
    exact ⟨name, mem_entries_iff.mp hentry⟩
  · rintro ⟨name, hlookup⟩
    exact mem_map.mpr ⟨⟨name, id⟩, mem_entries_iff.mpr hlookup, rfl⟩

structure Current (m : SchedulerManager) : Prop where
  listed : ∀ id ∈ m.shuffledSchedulerList, id ∈ m.ids
  routed : ∀ functionId id, m.lruCache.lookup functionId = some id → id ∈ m.ids

theorem Current.add (h : m.Current)
    (hok : (m.schedulerInfoMap.lookup name).all (· = id) = true) : (m.add name id).Current := by
  unfold SchedulerManager.add
  split
  · exact h
  have hkeeps : ∀ x ∈ m.ids, ∃ n, (m.schedulerInfoMap.insert name id).lookup n = some x := by
    intro x hx
    obtain ⟨n, hn⟩ := mem_ids.mp hx
    refine ⟨n, ?_⟩
    rw [lookup_insert_eq_ite]
    split
    case isFalse => exact hn
    case isTrue heq =>
      rw [← heq, hn] at hok
      exact congrArg some (of_decide_eq_true hok).symm
  refine ⟨fun x hx => mem_ids.mpr ?_, fun f x hx => mem_ids.mpr (hkeeps x (h.routed f x hx))⟩
  by_cases hmem : x ∈ m.shuffledSchedulerList
  · exact hkeeps x (h.listed x hmem)
  have heq : x = id := by
    dsimp only at hx
    split at hx
    · exact absurd hx hmem
    · exact (mem_append.mp hx).elim (absurd · hmem) mem_singleton.mp
  exact ⟨name, heq ▸ lookup_insert _⟩

theorem Current.remove (h : m.Current) (hok : (m.schedulerInfoMap.lookup name).all
    (fun id => m.lruCache.entries.all (·.2 ≠ id)) = true) : (m.remove name).Current := by
  unfold SchedulerManager.remove
  split
  · exact h
  rename_i id hid
  rw [hid] at hok
  have hkeeps : ∀ x ∈ m.ids, x ≠ id → ∃ n, (m.schedulerInfoMap.erase name).lookup n = some x := by
    intro x hx hne
    obtain ⟨n, hn⟩ := mem_ids.mp hx
    refine ⟨n, ?_⟩
    rw [lookup_erase_eq_ite, if_neg, hn]
    rintro rfl
    exact hne (some.inj (hn.symm.trans hid))
  constructor
  · intro x hx
    obtain ⟨hmem, hne⟩ := mem_filter.mp hx
    exact mem_ids.mpr (hkeeps x (h.listed x hmem) (of_decide_eq_true hne))
  · intro f x hx
    have hne := all_eq_true.mp hok _ (mem_entries_iff.mpr hx)
    exact mem_ids.mpr (hkeeps x (h.routed f x hx) (of_decide_eq_true hne))

theorem Current.step (h : m.Current) (hok : m.orderly e = true) (hstep : m.step e = some m') :
    m'.Current := by
  cases e with
  | add =>
    cases hstep
    exact h.add hok
  | remove =>
    cases hstep
    exact h.remove hok
  | removeAll =>
    cases hstep
    exact ⟨nofun, nofun⟩
  | resetAll =>
    obtain ⟨hperm, rfl⟩ := ite_some_none_eq_some.mp hstep
    exact ⟨fun id hid => hperm.mem_iff.mp hid, nofun⟩
  | setRoute =>
    obtain ⟨hmem, rfl⟩ := ite_some_none_eq_some.mp hstep
    exact ⟨h.listed, forall_lookup_insert hmem fun f id hid => h.routed f id (lookup_of_erase hid)⟩
  | removeRoute =>
    cases hstep
    exact ⟨h.listed, fun f id hid => h.routed f id (lookup_of_erase hid)⟩
  | next =>
    cases hstep
    unfold SchedulerManager.next
    split
    · exact h
    split
    · exact h
    · exact ⟨h.listed, h.routed⟩

end SchedulerManager

def schedulerManager : StepSystem SchedulerManager SchedulerManager.Event Unit where
  init m := m = {}
  step m e := (m.step e).map (·, ())

/-- As long as changes are orderly, a request is sent to a scheduler that is there. -/
theorem next_is_current (m : SchedulerManager)
    (hreach : schedulerManager.Reach (fun m e => m.orderly e = true) m) (functionId id : String)
    (schedulerInfos : List SchedulerInstance) (others : Nat → Nat)
    (hnext : (m.next functionId schedulerInfos others).1 = some id) : id ∈ m.ids := by
  have hcurrent : m.Current := by
    refine hreach.invariant ?_ ?_
    · rintro m rfl
      exact ⟨nofun, nofun⟩
    · exact fun m e m' l _ hok h hstep => h.step hok (next_of_step hstep)
  unfold SchedulerManager.next at hnext
  split at hnext
  · cases hnext
  split at hnext
  case h_1 hroute =>
    cases hnext
    exact hcurrent.routed functionId id (filter_eq_some_iff.mp hroute).1
  case h_2 =>
    have hfound := (filter_eq_some_iff.mp hnext).1
    refine hcurrent.listed id (SchedulerManager.mem_of_tryGet ?_ hfound)
    intro hnil
    rw [hnil] at hfound
    cases hfound

theorem next_is_current_routed :
    ∃ m, schedulerManager.Reach (fun m e => m.orderly e = true) m ∧
      (m.next "f" [] fun _ => 0).1 = some "i" ∧ "i" ∈ m.ids := by
  obtain ⟨m, hreach, hnext⟩ := schedulerManager.reach_of_run SchedulerManager.orderly
    (show schedulerManager.init {} from rfl)
    [.add "n" "i", .add "m" "j", .setRoute "f" "i" "", .remove "m"]
    (fun m => (m.next "f" [] fun _ => 0).1 = some "i") (by decide)
  exact ⟨m, hreach, hnext, next_is_current m hreach "f" "i" [] (fun _ => 0) hnext⟩

/-- The list keeps the id that a name had before, and the cache the route to a removed scheduler. -/
theorem next_is_departed :
    (∃ m, schedulerManager.Reachable m ∧ (m.next "f" [] fun _ => 0).1 = some "i" ∧ m.ids = ["j"]) ∧
      ∃ m, schedulerManager.Reachable m ∧ (m.next "f" [] fun _ => 0).1 = some "i" ∧ m.ids = [] := by
  have hinit : schedulerManager.init {} := rfl
  constructor
  · exact schedulerManager.reachable_of_run hinit [.add "n" "i", .add "n" "j"] _ (by decide)
  · exact schedulerManager.reachable_of_run hinit
      [.add "n" "i", .setRoute "f" "i" "", .remove "n"] _ (by decide)

/-- A caller that is alone with the index, which does not overflow, looks at every scheduler. -/
theorem next_none_unavailable (m : SchedulerManager) (functionId : String)
    (schedulerInfos : List SchedulerInstance) (others : Nat → Nat) (hfunction : functionId ≠ "")
    (hids : "" ∉ m.shuffledSchedulerList) (halone : ∀ left, others left = 0)
    (hroom : m.currentIndex + m.shuffledSchedulerList.length ≤ 2 ^ 64)
    (hnext : (m.next functionId schedulerInfos others).1 = none) :
    ∀ id ∈ m.shuffledSchedulerList, SchedulerManager.unavailable schedulerInfos id = true := by
  obtain rfl : others = fun _ => 0 := funext halone
  unfold SchedulerManager.next at hnext
  rw [if_neg hfunction] at hnext
  split at hnext
  · cases hnext
  intro id hid
  have hnone := filter_eq_none_iff.mp hnext
  have hloop : (SchedulerManager.tryGetFromShuffledList m.shuffledSchedulerList schedulerInfos (fun _ => 0)
      m.shuffledSchedulerList.length m.currentIndex).1 = none := by
    refine eq_none_iff_forall_ne_some.mpr fun found hfound => hids ?_
    have hempty : found = "" := by simpa using hnone found hfound
    exact hempty ▸ SchedulerManager.mem_of_tryGet (ne_nil_of_mem hid) hfound
  rw [← mem_rotate (n := m.currentIndex)] at hid
  obtain ⟨j, hj, rfl⟩ := getElem_of_mem hid
  rw [length_rotate] at hj
  have hat := SchedulerManager.unavailable_of_tryGet hroom hloop j hj
  rw [getD_eq_getElem _ _ (mod_lt _ (zero_lt_of_lt hj))] at hat
  rw [getElem_rotate]
  exact hat

def twoSchedulers : SchedulerManager := { shuffledSchedulerList := ["a", "b"] }

theorem next_none_unavailable_both :
    (twoSchedulers.next "f" [⟨"m", "a", false⟩, ⟨"n", "b", false⟩] fun _ => 0).1 = none ∧
      SchedulerManager.unavailable [⟨"m", "a", false⟩, ⟨"n", "b", false⟩] "b" = true :=
  ⟨by decide, next_none_unavailable twoSchedulers "f" _ (fun _ => 0) (by decide) (by decide)
    (fun _ => rfl) (by decide) (by decide) "b" (by decide)⟩

/-- Another caller takes every other index: one scheduler is looked at twice, the other one not at
all. -/
theorem next_misses_available :
    (twoSchedulers.next "f" [⟨"m", "a", false⟩] fun left => if left = 0 then 1 else 0).1 = none ∧
      SchedulerManager.unavailable [⟨"m", "a", false⟩] "b" = false := by
  decide

end Yuanrong.Libruntime
