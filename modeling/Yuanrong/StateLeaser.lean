import Yuanrong.Lib.FinMap
import Yuanrong.Lib.StepSystem

/-!
# The leases of a state instance

A leaser deletes its instance once there was no lease for the scale-down window. A timer that has
expired runs its callback at some later time, and `Stop` does nothing to it any more.
-/

namespace Yuanrong.StateInstance

open AList List Bool

inductive Callback
  | releaseLease (id : Nat)
  | deleteStateInstance
deriving DecidableEq

/-- A timer is `true` until it expires. `due` are the callbacks of expired timers. -/
structure Leaser where
  leases : FinMap Nat Bool := ∅
  maxLeases : Int
  nextID : Nat := 0
  timer : Option Bool := none
  due : List Callback := []
  terminated : Bool := false

namespace Leaser

inductive Event
  | recover
  | terminate
  | acquireLease
  | releaseLease (id : Nat)
  | retainLease (id : Nat)
  | expireLease (id : Nat)
  | expireTimer
  | callback (c : Callback)

variable (s : Leaser)

def releaseLease (id : Nat) : Leaser :=
  { s with
    leases := s.leases.erase id
    timer := if (s.leases.erase id).len = 0 then some true else s.timer }

def next : Event → Option Leaser
  | .recover => some { s with timer := some true }
  | .terminate => some { s with timer := none, terminated := true }
  | .acquireLease =>
    if s.maxLeases ≤ s.leases.len then some s
    else some { s with leases := s.leases.insert s.nextID true, nextID := s.nextID + 1, timer := none }
  | .releaseLease id => some (s.releaseLease id)
  | .retainLease id =>
    if (s.leases.lookup id).isSome then some { s with leases := s.leases.insert id true } else some s
  | .expireLease id =>
    if s.leases.lookup id = some true then
      some { s with leases := s.leases.insert id false, due := .releaseLease id :: s.due }
    else none
  | .expireTimer =>
    if s.timer = some true then
      some { s with timer := some false, due := .deleteStateInstance :: s.due }
    else none
  | .callback c =>
    if c ∉ s.due then none
    else
      match c with
      | .releaseLease id => some { s.releaseLease id with due := s.due.erase c }
      | .deleteStateInstance => some { s with due := s.due.erase c }

/-- Callbacks run when their timers expire. `Recover` and `Terminate` find no lease, and `Terminate`
is the last call. -/
def prompt : Event → Bool
  | .callback _ => true
  | .recover | .terminate => s.due.isEmpty && !s.terminated && s.leases.len == 0
  | _ => s.due.isEmpty && !s.terminated

def system : StepSystem Leaser Event Unit where
  init s := ∃ maxLeases, s = { maxLeases }
  step s e := (s.next e).map (·, ())

structure Inv : Prop where
  timer : s.timer.isSome → s.leases.len = 0
  live : s.timer.isSome ∨ s.due ≠ [] → s.terminated = false
  delete : .deleteStateInstance ∈ s.due → s.leases.len = 0
  release : ∀ id, .releaseLease id ∈ s.due → s.leases.lookup id ≠ some true

variable {s} {s' : Leaser}

theorem Inv.releaseLease (h : s.Inv) (hlive : s.terminated = false) (id : Nat) {due : List Callback}
    (hdue : due ⊆ s.due) : Inv { s.releaseLease id with due } := by
  have hlen := s.leases.len_erase_le id
  refine ⟨fun htimer => ?_, fun _ => hlive, fun hmem => ?_, fun id' hmem htrue => ?_⟩
  · have hold := h.timer
    simp only [Leaser.releaseLease] at htimer ⊢
    grind
  · exact Nat.le_zero.mp (h.delete (hdue hmem) ▸ hlen)
  · exact h.release id' (hdue hmem) (lookup_of_erase htrue)

theorem Inv.step (h : s.Inv) {e : Event} (hok : s.prompt e = true) (hnext : s.next e = some s') :
    s'.Inv := by
  have htimer := h.timer
  have hlive := h.live
  have hlen : ∀ id armed, (s.leases.lookup id).isSome → (s.leases.insert id armed).len = s.leases.len := by
    intro id armed hsome
    obtain ⟨old, hold⟩ := Option.isSome_iff_exists.mp hsome
    exact s.leases.len_insert_of_some armed hold
  cases e with
  | callback c =>
    simp only [next] at hnext
    split at hnext
    case isTrue => cases hnext
    rename_i hmem
    have hlive := h.live (.inr (ne_nil_of_mem (not_not.mp hmem)))
    cases c with
    | releaseLease id =>
      cases hnext
      exact h.releaseLease hlive id erase_subset
    | deleteStateInstance =>
      cases hnext
      exact ⟨h.timer, fun _ => hlive, fun hm => h.delete (mem_of_mem_erase hm),
        fun id hm => h.release id (mem_of_mem_erase hm)⟩
  | releaseLease id =>
    cases hnext
    exact h.releaseLease (by simpa using (and_eq_true_iff.mp hok).2) id (List.Subset.refl _)
  | _ =>
    simp only [prompt, and_eq_true, beq_iff_eq, not_eq_true', List.isEmpty_iff] at hok
    simp only [next] at hnext
    constructor <;> grind [lookup_insert_eq_ite]

end Leaser

end Yuanrong.StateInstance
