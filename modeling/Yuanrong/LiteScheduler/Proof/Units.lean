import Yuanrong.LiteScheduler.Proof.PoolChange

/-!
# Counting the units that are out

A unit is out while its allocation is in the map, and then while the goroutine that took the
allocation out of the map has not yet returned it to the pool.
-/

namespace Yuanrong.Lite

open AList LiteScheduler Option

variable (P : Allocation → Bool)

def weigh (a : Option Allocation) : ℤ := if a.any P then 1 else 0

def live (ls : LiteScheduler) : ℤ := ls.allocations.count fun _ a => P a = true

def tokens (s : System) : ℤ := s.threads.count fun _ pc => pc.token.any P = true

def units (s : System) : ℤ := live P s.ls + tokens P s

variable {P} {a : Allocation}

theorem weigh_nonneg (a : Option Allocation) : 0 ≤ weigh P a := by
  unfold weigh
  split
  · exact Int.one_nonneg
  · exact le_rfl

@[simp]
theorem weigh_none : weigh P none = 0 := rfl

variable {ls : LiteScheduler} {id : String} {a : Allocation}

theorem live_congr (h : ls'.allocations = ls.allocations) : live P ls' = live P ls := by
  rw [live, live, h]

theorem live_insert (h : ls'.allocations = ls.allocations.insert id a) :
    live P ls' = live P ls - weigh P (ls.allocations.lookup id) + weigh P (some a) := by
  rw [live, h, count_insert, live]
  cases ls.allocations.lookup id <;> rfl

theorem live_erase (h : ls'.allocations = ls.allocations.erase id) :
    live P ls' = live P ls - weigh P (ls.allocations.lookup id) := by
  rw [live, h, count_erase, live]
  cases ls.allocations.lookup id <;> rfl

theorem live_eq_zero (h : ∀ id a, ls.allocations.lookup id = some a → P a = false) : live P ls = 0 := by
  apply count_eq_zero
  intro id a ha
  simp [h id a ha]

theorem live_pos (ha : ls.allocations.lookup id = some a) (hP : P a = true) : 0 < live P ls :=
  count_pos ha hP

theorem live_nonneg : 0 ≤ live P ls := count_nonneg _ _

variable {s : System} {tid : Nat}

theorem tokens_nonneg : 0 ≤ tokens P s := count_nonneg _ _

theorem tokens_pos (hpc : s.threads.lookup tid = some pc)
    (htoken : pc.token = some a) (hP : P a = true) : 0 < tokens P s :=
  count_pos hpc (by rw [htoken]; exact hP)

theorem tokens_eq_zero (h : ∀ tid pc a, s.threads.lookup tid = some pc → pc.token = some a → P a = false) :
    tokens P s = 0 := by
  apply count_eq_zero
  intro tid pc hpc
  cases htoken : pc.token with
  | none => simp
  | some a => simp [h tid pc a hpc htoken]

theorem units_nonneg : 0 ≤ units P s := by
  have hlive : 0 ≤ live P s.ls := live_nonneg
  have htokens : 0 ≤ tokens P s := tokens_nonneg
  unfold units
  omega

theorem tokens_finish (s : System) (tid : Nat) (o : Outcome) : tokens P (s.finish tid o).1 =
      tokens P s - weigh P ((s.threads.lookup tid).bind Pc.token) + weigh P (o.next.bind Pc.token) := by
  have hold : ((s.threads.lookup tid).elim 0 fun pc => if pc.token.any P = true then (1 : ℤ) else 0) =
      weigh P ((s.threads.lookup tid).bind Pc.token) := by
    cases s.threads.lookup tid <;> rfl
  unfold tokens System.finish System.setThread
  cases o.next with
  | none =>
    rw [count_erase, hold]
    simp
  | some =>
    rw [count_insert, hold]
    rfl

theorem units_finish (s : System) (tid : Nat) (o : Outcome) :
    units P (s.finish tid o).1 = live P o.ls + tokens P s -
      weigh P ((s.threads.lookup tid).bind Pc.token) + weigh P (o.next.bind Pc.token) := by
  rw [units, tokens_finish]
  change live P o.ls + _ = _
  omega

theorem units_still (hallocs : o.ls.allocations = s.ls.allocations)
    (htoken : o.next.bind Pc.token = (s.threads.lookup tid).bind Pc.token) :
    units P (s.finish tid o).1 = units P s := by
  rw [units_finish, live_congr hallocs, htoken, units]
  omega

theorem units_congr (hallocs : s'.ls.allocations = s.ls.allocations)
    (hthreads : s'.threads = s.threads) : units P s' = units P s := by
  rw [units, units, live_congr hallocs, tokens, tokens, hthreads]

variable {o : Outcome}

theorem units_insert (htoken : (s.threads.lookup tid).bind Pc.token = none)
    (hallocs : o.ls.allocations = s.ls.allocations.insert id a) (hnext : o.next.bind Pc.token = none) :
    units P (s.finish tid o).1 =
      units P s - weigh P (s.ls.allocations.lookup id) + weigh P (some a) := by
  rw [units_finish, live_insert hallocs, htoken, hnext, units, weigh_none]
  omega

theorem units_release (hfree : (s.threads.lookup tid).bind Pc.token = none)
    (halloc : s.ls.allocations.lookup id = some a) (hallocs : o.ls.allocations = s.ls.allocations.erase id)
    (hnext : o.next.bind Pc.token = some a) : units P (s.finish tid o).1 = units P s := by
  rw [units_finish, live_erase hallocs, hfree, hnext, units, halloc, weigh_none]
  omega

theorem units_reap (hidle : s.threads.lookup reaperTid = none)
    (halloc : s.ls.allocations.lookup id = some a) :
    units P
        { ls := { s.ls with batch := rest, allocations := s.ls.allocations.erase id }
          threads := s.threads.insert reaperTid (.reapSlot a) } = units P s :=
  units_release (o := { ls := { s.ls with batch := rest, allocations := s.ls.allocations.erase id }
                        next := some (.reapSlot a) }) (by rw [hidle]; rfl) halloc rfl rfl

theorem units_returned (hpc : s.threads.lookup tid = some pc) (htoken : pc.token = some a)
    (hallocs : o.ls.allocations = s.ls.allocations) (hnext : o.next.bind Pc.token = none) :
    units P (s.finish tid o).1 = units P s - weigh P (some a) := by
  rw [units_finish, live_congr hallocs, hpc, bind_some, htoken, hnext, units, weigh_none]
  omega

theorem units_drop (htoken : (s.threads.lookup tid).bind Pc.token = none)
    (hallocs : o.ls.allocations = s.ls.allocations.erase id) (hnext : o.next.bind Pc.token = none) :
    units P (s.finish tid o).1 = units P s - weigh P (s.ls.allocations.lookup id) := by
  rw [units_finish, live_erase hallocs, htoken, hnext, units, weigh_none]
  omega

theorem units_refresh (hlease : ∀ a, P (extendLease cfg s.ls a) = P a)
    (htoken : (s.threads.lookup tid).bind Pc.token = none) (halloc : s.ls.allocations.lookup id = some a)
    (hallocs : o.ls.allocations = s.ls.allocations.insert id (extendLease cfg s.ls a))
    (hnext : o.next.bind Pc.token = none) : units P (s.finish tid o).1 = units P s := by
  rw [units_insert htoken hallocs hnext, halloc, weigh, weigh, any_some, any_some, hlease a]
  omega

theorem units_remove (hother : ∀ id a, s.ls.allocations.lookup id = some a → P a = true →
      ¬(a.instanceID = i ∧ a.funcKey = pool.funcKey)) :
    units P { s with ls := s.ls.removeInstanceLocked f pool i } = units P s := by
  have hlive : live P (s.ls.removeInstanceLocked f pool i) = live P s.ls := by
    change ((s.ls.allocations.filter _).total fun _ a => if P a = true then (1 : ℤ) else 0) =
      s.ls.allocations.total fun _ a => if P a = true then (1 : ℤ) else 0
    rw [total_filter]
    apply total_congr
    intro id a ha
    by_cases hP : P a = true
    · simp [hother id a ha hP]
    · simp [hP]
  rw [units, hlive]
  rfl

end Yuanrong.Lite
