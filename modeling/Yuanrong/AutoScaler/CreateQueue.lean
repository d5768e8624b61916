import Yuanrong.AutoScaler.PendingAccounting

/-!
# The two ends of the create queue

Creations are taken from the front of the list and cancelled from its back, each by a cursor that is
moved off the element before that is removed.
-/

namespace Yuanrong.Scaling.InstanceCreateQueue

open List

variable {iq : InstanceCreateQueue}

theorem remove_back (hlinked : iq.Linked) (hqueue : iq.queue = rest ++ [request]) :
    (iq.remove request).queue = rest ∧ (iq.remove request).Linked := by
  obtain ⟨hnodup, hcreate, hcancel⟩ := hlinked
  rw [hqueue] at hnodup hcreate hcancel
  have hnot : request ∉ rest := by grind
  have herase : (iq.remove request).queue = rest := by simp [remove, hqueue, erase_append_right _ hnot]
  refine ⟨herase, by grind, ?_, ?_⟩
  · rw [herase]
    cases rest with
    | nil => simp [remove, hcreate, next, hqueue]
    | cons => grind [remove]
  · rw [herase]
    have hprev : iq.prev request = rest.getLast? := by
      rw [prev, hqueue, takeWhile_append_of_pos (by grind)]
      simp
    simp [remove, hcancel, hprev]

theorem get_eq (hlinked : iq.Linked) (hrunning : iq.stopped = false) :
    iq.getForCreate = iq.queue.head?.map (fun request => (request, iq.remove request)) ∧
      iq.getForCancel = iq.queue.getLast?.map fun request => (request, iq.remove request) := by
  simp [getForCreate, getForCancel, hrunning, hlinked.createHead, hlinked.cancelHead]

/-- A queue and what its calls have returned. A request is the number of its push. -/
structure Run where
  iq : InstanceCreateQueue := {}
  pushed : Nat := 0
  created : List Nat := []
  cancelled : List Nat := []

inductive Call
  | push
  | getForCreate
  | getForCancel

-- `getForCreate` waits where the list is empty, and returns nil if it still is when the wait ends
def Run.next (r : Run) : Call → Run
  | .push => { r with iq := r.iq.push r.pushed, pushed := r.pushed + 1 }
  | .getForCreate =>
    match r.iq.getForCreate with
    | some (request, iq) => { r with iq, created := r.created ++ [request] }
    | none => r
  | .getForCancel =>
    match r.iq.getForCancel with
    | some (request, iq) => { r with iq, cancelled := r.cancelled ++ [request] }
    | none => r

structure Run.InOrder (r : Run) : Prop where
  linked : r.iq.Linked
  running : r.iq.stopped = false
  sorted : (r.created ++ r.iq.queue).Pairwise (· < ·)
  all : (r.created ++ r.cancelled ++ r.iq.queue).Perm (range r.pushed)

theorem Run.InOrder.next {r : Run} (h : r.InOrder) (e : Call) : (r.next e).InOrder := by
  obtain ⟨hlinked, hrunning, hsorted, hall⟩ := h
  obtain ⟨hcreate, hcancel⟩ := get_eq hlinked hrunning
  cases e with
  | push =>
    have hlt : ∀ q, q ∈ r.created ++ r.iq.queue → q < r.pushed := by
      intro q hq
      apply mem_range.mp
      apply hall.subset
      grind
    refine ⟨hlinked.push fun hmem => ?_, hrunning, ?_, ?_⟩
    · exact (hlt _ (mem_append_right _ hmem)).false
    · rw [Run.next, InstanceCreateQueue.push, ← append_assoc]
      apply pairwise_append.mpr
      grind
    · rw [Run.next, InstanceCreateQueue.push, range_succ, ← append_assoc]
      exact hall.append_right _
  | getForCreate =>
    simp only [Run.next, hcreate]
    cases hqueue : r.iq.queue with
    | nil => exact ⟨hlinked, hrunning, hsorted, hall⟩
    | cons request rest =>
      obtain ⟨hrest, hlinked'⟩ := remove_front hlinked hqueue
      rw [hqueue] at hsorted hall
      exact ⟨hlinked', hrunning, by grind, by grind⟩
  | getForCancel =>
    simp only [Run.next, hcancel]
    obtain hqueue | ⟨rest, request, hqueue⟩ := r.iq.queue.eq_nil_or_concat'
    · rw [hqueue]
      exact ⟨hlinked, hrunning, hsorted, hall⟩
    obtain ⟨hrest, hlinked'⟩ := remove_back hlinked hqueue
    rw [hqueue] at hsorted hall
    rw [hqueue, getLast?_concat]
    exact ⟨hlinked', hrunning, by grind, by grind⟩

/-- Each cursor is at its end. Creations are taken in the order of the pushes, cancellations from
the last one left, and every request is queued or was returned once. -/
theorem queue_is_deque (es : List Call) :
    let r := es.foldl Run.next {}
    r.iq.createHead = r.iq.queue.head? ∧ r.iq.cancelHead = r.iq.queue.getLast? ∧
      (r.iq.createHead = none ↔ r.iq.queue = []) ∧ (r.iq.cancelHead = none ↔ r.iq.queue = []) ∧
      r.iq.getForCreate.map (·.1) = r.iq.queue.head? ∧ r.iq.getForCancel.map (·.1) = r.iq.queue.getLast? ∧
      (r.created ++ r.iq.queue).Pairwise (· < ·) ∧
      (r.created ++ r.cancelled ++ r.iq.queue).Perm (range r.pushed) := by
  intro r
  have h : r.InOrder := by
    apply foldlRecOn es Run.next
    · exact ⟨⟨nodup_nil, rfl, rfl⟩, rfl, .nil, .nil⟩
    · intro r h e _
      exact h.next e
  obtain ⟨hlinked, hrunning, hsorted, hall⟩ := h
  obtain ⟨hcreate, hcancel⟩ := get_eq hlinked hrunning
  rw [hcreate, hcancel, hlinked.createHead, hlinked.cancelHead]
  refine ⟨rfl, rfl, head?_eq_none_iff, getLast?_eq_none_iff, ?_, ?_, hsorted, hall⟩
  · simp [Function.comp_def]
  · simp [Function.comp_def]

end Yuanrong.Scaling.InstanceCreateQueue
