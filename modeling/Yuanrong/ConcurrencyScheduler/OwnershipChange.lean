import Yuanrong.ConcurrencyScheduler.Proof.ThreadIDs

/-!
# Session expiry across a change of ownership

The goroutine that gives a session up works on the queue its instance was in when the goroutine was
started. When the scheduler has gained or lost the function since, the instance is in the other
queue, the goroutine does not find it, and the session is dropped with its threads.
-/

namespace Yuanrong.Concurrency

open AList BasicConcurrencyScheduler Option InstanceQueue

def QueueName.opposite : QueueName → QueueName
  | .self => .other
  | .other => .self

def Instance.filable (ins : Instance) : Bool :=
  ins.statusCode = kernelInstanceStatusRunning || ins.statusCode = kernelInstanceStatusSubHealth ||
    ins.statusCode = kernelInstanceStatusEvicting

namespace InstanceQueue

variable {q : InstanceQueue} {objID : String} {elem : Nat} {el : InstanceElement}

/-- The queue has the element under the ID, in the order its number of free threads gives. -/
structure Ordered (q : InstanceQueue) (objID : String) (elem : Nat) (el : InstanceElement) : Prop where
  getByID : q.getByID objID = some elem
  item : ∀ item, q.instanceQueue.lookup objID = some item →
    item = { elem, filedThreads := el.threadMap.len }

variable (q elem) in
theorem ordered_file (hid : el.ins.instanceID = objID) (hfilable : el.ins.filable = true) :
    ((q.remove objID).file objID elem el).2 = none ∧
      ((q.remove objID).file objID elem el).1.Ordered objID elem el := by
  have hsub : (q.remove objID).subHealthRecord.lookup objID = none := lookup_erase _ _
  have hevict : (q.remove objID).evictingRecord.lookup objID = none := lookup_erase _ _
  have hqueue : (q.remove objID).instanceQueue.lookup objID = none := lookup_erase _ _
  unfold file
  split
  · refine ⟨rfl, ?_, ?_⟩
    · unfold getByID
      rw [hsub, hevict, hid, lookup_insert]
      rfl
    · intro item hitem
      rw [hid, lookup_insert] at hitem
      exact (some.inj hitem).symm
  case isFalse hrunning =>
    split
    · refine ⟨rfl, ?_, ?_⟩
      · unfold getByID
        rw [lookup_insert]
      intro item hitem
      rw [hqueue] at hitem
      cases hitem
    case isFalse hsubHealth =>
      split
      · refine ⟨rfl, ?_, ?_⟩
        · unfold getByID
          rw [hsub, lookup_insert]
        intro item hitem
        rw [hqueue] at hitem
        cases hitem
      case isFalse hevicting => simp [Instance.filable, hrunning, hsubHealth, hevicting] at hfilable

theorem ordered_updateObjByID (hheld : (q.getByID objID).isSome = true) (hid : el.ins.instanceID = objID)
    (hfilable : el.ins.filable = true) : (q.updateObjByID objID elem el).1.Ordered objID elem el := by
  obtain ⟨hnone, hordered⟩ := ordered_file q elem hid hfilable
  unfold updateObjByID
  have hnot : ¬ (q.getByID objID).isNone = true := by
    rw [← not_isSome, hheld]
    exact Bool.false_ne_true
  rw [if_neg hnot]
  cases hfile : (q.remove objID).file objID elem el with
  | mk =>
    rw [hfile] at hnone hordered
    cases hnone
    dsimp only
    split
    · exact hordered
    split
    · exact hordered
    · exact { hordered with }

end InstanceQueue

theorem queue_refile (bcs : BasicConcurrencyScheduler) (name : QueueName) (ref : Nat) (el : InstanceElement) :
    (bcs.refile name ref el).queue name =
      ((bcs.queue name).updateObjByID el.ins.instanceID ref el).1 := by
  cases name
  · rfl
  · rfl

/-- An expiring session has its instance in its goroutine's queue only, session IDs are free of
separators, and a designated thread is not free or yet to mint. -/
def expiresAtHome (cfg : Config) (s : System) : Event → Prop
  | .resume tid _ => ∀ req resolved, s.threads.lookup tid = some (.acquire req resolved) →
      ThreadsMinted.Designates req.demand s.bcs
  | .expire g _ => ∀ u r el, s.bcs.unbinds.lookup g = some u →
      s.bcs.records.lookup u.record = some r → s.bcs.elems.lookup r.insElem = some el →
      (s.bcs.queue u.insQue.opposite).getByID el.ins.instanceID = none ∧ el.ins.filable = true
  | e => tidy cfg e = true

theorem tidy_of_expiresAtHome (hok : expiresAtHome cfg s e) : tidy cfg e = true := by
  cases e <;> first | rfl | exact hok

variable {cfg : Config} {s : System}

theorem threadsMinted_of_reach (hreach : (scheduler cfg).Reach (expiresAtHome cfg) s) :
    ThreadsMinted s.bcs := by
  refine hreach.invariant (P := fun s => ThreadsMinted s.bcs) ?_ ?_
  · intro s hinit
    refine ⟨?_, ?_⟩
    · rw [hinit.elems]
      simp
    · rw [hinit.records]
      simp
  · intro s e s' l hprev hok hthreads hstep
    have htidy : Tidy cfg s := Tidy.of_reach (fun _ _ h => tidy_of_expiresAtHome h) hprev
    refine hthreads.effect htidy ?_ (effect_of_step htidy.wf hstep)
    rintro tid choice req resolved rfl hreq
    exact hok req resolved hreq

/-- All threads of an expired session are free again, up to the instance's number. -/
def Returned (s s' : System) (r : SessionRecord) (el : InstanceElement) : Prop :=
  ∃ el', s'.bcs.elems.lookup r.insElem = some el' ∧ el'.ins = el.ins ∧
    (el'.threadMap.len = el.threadMap.len + r.allocThdMap.len ∨
      el.ins.concurrentNum ≤ el'.threadMap.len) ∧
    ∀ name, ((s.bcs.queue name).getByID el.ins.instanceID).isSome = true →
      (s'.bcs.queue name).Ordered el.ins.instanceID r.insElem el'

theorem session_threads_returned (cfg : Config) (s s' : System) (l : Label) (g : Nat)
    (order : List String) (u : Unbind) (r : SessionRecord) (el : InstanceElement)
    (hreach : (scheduler cfg).Reach (expiresAtHome cfg) s)
    (hok : expiresAtHome cfg s (.expire g order))
    (hstep : s.step cfg (.expire g order) = some (s', l))
    (hu : s.bcs.unbinds.lookup g = some u) (hr : s.bcs.records.lookup u.record = some r)
    (hidle : r.idle = true) (hel : s.bcs.elems.lookup r.insElem = some el)
    (hheld : ∃ name, ((s.bcs.queue name).getByID el.ins.instanceID).isSome = true) :
    Returned s s' r el := by
  have hthreads := threadsMinted_of_reach hreach
  have htidy : Tidy cfg s := Tidy.of_reach (fun _ _ h => tidy_of_expiresAtHome h) hreach
  obtain ⟨hopposite, hfilable⟩ := hok u r el hu hr hel
  have hhome : ∀ name, ((s.bcs.queue name).getByID el.ins.instanceID).isSome = true → name = u.insQue := by
    intro name hname
    by_contra hne
    have heq : name = u.insQue.opposite := by
      cases name <;> cases hque : u.insQue <;> first | rfl | exact absurd hque.symm hne
    rw [heq, hopposite] at hname
    cases hname
  have hcaptured : ((s.bcs.queue u.insQue).getByID el.ins.instanceID).isSome = true := by
    obtain ⟨name, hname⟩ := hheld
    rw [← hhome name hname]
    exact hname
  have hfound : (s.bcs.getByID u.insQue el.ins.instanceID).isSome = true := by
    obtain ⟨ref, hget⟩ := isSome_iff_exists.mp hcaptured
    obtain ⟨el₀, hel₀, -⟩ := htidy.wf.filed _ _ ref (holds_of_getByID hget)
    unfold BasicConcurrencyScheduler.getByID
    rw [hget, bind_some, hel₀]
    rfl
  obtain ⟨u₀, bcs, hu₀, hpc, hbcs, rfl⟩ := unbindStep_eq_some (locked_eq_some hstep).2
  rw [hu] at hu₀
  cases hu₀
  cases hbcs
  have hexpires := expires_unbindExpired htidy.wf g u order
  generalize s.bcs.unbindExpired cfg g u order = bcs at hexpires ⊢
  cases hexpires with
  | cancelled hr₀ hbusy htoken | blocked hr₀ hbusy htoken =>
    rw [hr] at hr₀
    cases hr₀
    exact absurd (hidle.symm.trans hbusy) (by decide)
  | stale hr₀ =>
    rw [hr] at hr₀
    cases hr₀
  | @expired _ _ _ hr₀ _ hel₀ hel' =>
    rw [hr] at hr₀
    cases hr₀
    rw [hel] at hel₀
    cases hel₀
    rw [if_pos hfound] at hel'
    subst hel'
    have hins := returnThreads_ins el r.allocThdMap order
    refine ⟨returnThreads el r.allocThdMap order, ?_, hins, ?_, ?_⟩
    · rw [refile_elems]
      exact lookup_insert s.bcs.elems
    · have hlen := InstanceElement.len_foldl_put (returnOrder r.allocThdMap order) el
        (hthreads.minted _ _ hel) fun x hx => hthreads.gone u.record r el x hr hel (mem_returnOrder.mp hx)
      rwa [length_returnOrder] at hlen
    · intro name hname
      obtain rfl := hhome name hname
      rw [queue_refile, hins]
      refine ordered_updateObjByID ?_ ?_ ?_
      · cases hque : u.insQue <;> rw [hque] at hname <;> exact hname
      · rw [hins]
      · rw [hins]
        exact hfilable

/-- A session is bound to a thread of an instance, uses it, gives it back, and its timer fires. -/
def timerFired : List Event :=
  [.addInstance (plainInstance "i" 2) "p", .acquire 1 (plainRequest "s" 1), .resume 1 {}, .release 2,
    .timer 3]

/-- No thread is designated and no session expires. -/
def designatesNothing (cfg : Config) (s : System) : Event → Bool
  | .resume tid _ =>
    match s.threads.lookup tid with
    | some (.acquire req _) => req.designateThreadID = ""
    | _ => true
  | .expire _ _ => false
  | e => tidy cfg e

theorem session_threads_returned_home : ∃ s s' l r el,
    (scheduler plainConfig).Reach (expiresAtHome plainConfig) s ∧
      s.step plainConfig (.expire 3 []) = some (s', l) ∧ Returned s s' r el := by
  obtain ⟨s, hreach, s', l, hstep, u, hu, r, hr, hidle, el, hel, hheld, hopposite, hfilable⟩ :=
    reach_of_run plainConfig (designatesNothing plainConfig) true timerFired
    (fun s => ∃ s' l, s.step plainConfig (.expire 3 []) = some (s', l) ∧
      ∃ u, s.bcs.unbinds.lookup 3 = some u ∧ ∃ r, s.bcs.records.lookup u.record = some r ∧ r.idle ∧
      ∃ el, s.bcs.elems.lookup r.insElem = some el ∧ ((s.bcs.queue .self).getByID el.ins.instanceID).isSome ∧
        (s.bcs.queue u.insQue.opposite).getByID el.ins.instanceID = none ∧ el.ins.filable)
    (by decide)
  have hreach' : (scheduler plainConfig).Reach (expiresAtHome plainConfig) s := by
    refine hreach.mono fun s e hok => ?_
    cases e with
    | resume =>
      intro req resolved hreq hne
      simp only [designatesNothing, hreq] at hok
      exact absurd (of_decide_eq_true hok) hne
    | expire => cases hok
    | _ => exact hok
  refine ⟨s, s', l, r, el, hreach', hstep, ?_⟩
  refine session_threads_returned plainConfig s s' l 3 [] u r el hreach' ?_ hstep hu hr hidle hel
    ⟨.self, hheld⟩
  intro u' r' el' hu' hr' hel'
  rw [hu] at hu'
  cases hu'
  rw [hr] at hr'
  cases hr'
  rw [hel] at hel'
  cases hel'
  exact ⟨hopposite, hfilable⟩

/-- The function is lost between timer and expiry: the thread of the session is lost with it. -/
theorem session_threads_lost : ∃ s s' l u r el, (scheduler plainConfig).Reachable s ∧
    s.step plainConfig (.expire 3 []) = some (s', l) ∧ s.bcs.unbinds.lookup 3 = some u ∧
    s.bcs.records.lookup u.record = some r ∧ r.idle = true ∧
    s.bcs.elems.lookup r.insElem = some el ∧
    (∃ name, ((s.bcs.queue name).getByID el.ins.instanceID).isSome = true) ∧
    ¬ Returned s s' r el := by
  obtain ⟨s, hreach, s', l, hstep, u, hu, r, hr, hidle, el, hel, hheld, el', hel', hlost⟩ :=
    reachable_of_run plainConfig true (timerFired ++ [.ownerUpdate false])
    (fun s => ∃ s' l, s.step plainConfig (.expire 3 []) = some (s', l) ∧
      ∃ u, s.bcs.unbinds.lookup 3 = some u ∧ ∃ r, s.bcs.records.lookup u.record = some r ∧ r.idle ∧
      ∃ el, s.bcs.elems.lookup r.insElem = some el ∧ ((s.bcs.queue .other).getByID el.ins.instanceID).isSome ∧
      ∃ el', s'.bcs.elems.lookup r.insElem = some el' ∧
        el'.threadMap.len ≠ el.threadMap.len + r.allocThdMap.len ∧
        el'.threadMap.len < el.ins.concurrentNum)
    (by decide)
  refine ⟨s, s', l, u, r, el, hreach, hstep, hu, hr, hidle, hel, ⟨.other, hheld⟩, ?_⟩
  rintro ⟨el₀, hel₀, -, hlen | hfull, -⟩
  · rw [hel'] at hel₀
    cases hel₀
    exact hlost.1 hlen
  · rw [hel'] at hel₀
    cases hel₀
    exact absurd hfull (not_le.mpr hlost.2)

end Yuanrong.Concurrency
