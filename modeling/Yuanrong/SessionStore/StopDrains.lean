import Yuanrong.SessionStore.Coordinator

/-!
# Nothing is written after a stop

What was accepted is what was applied, what the worker has in hand and what is in the queue, in this
order. So the operations of a key are applied in the order they were accepted in.
-/

namespace Yuanrong.SessionStore

open AList List WorkerPc Bool

variable {ρ : Type}

def WorkerPc.inHand : WorkerPc ρ → List (AsyncStoreOp ρ)
  | .processing op _ => [op]
  | _ => []

def WorkerPc.leaving : WorkerPc ρ → Bool
  | .draining => true
  | .processing _ inDrain => inDrain
  | .done => true
  | _ => false

namespace System

variable {s s' : System ρ} {e : Event ρ}

structure Ordered (s : System ρ) : Prop where
  accepted : s.accepted = s.applied ++ s.worker.inHand ++ s.queue
  notStarted : s.started = false → s.worker = .notStarted ∧ s.queue = []
  sending : ∀ c op, s.callers.lookup c = some (.sending op) → s.started = true
  leaving : s.worker.leaving = true → s.ctxDone = true
  done : s.worker = .done → s.queue = []

variable {c : Nat}

section

variable (hord : s.Ordered)
include hord

theorem enqueue_ordered (hstep : s.enqueue c op = some s') : s'.Ordered := by
  unfold enqueue at hstep
  repeat' split at hstep
  all_goals cases hstep
  · exact hord
  refine { hord with sending := fun c' op' hc' => ?_ }
  rcases lookup_of_insert hc' with ⟨-, heq⟩ | hold
  · cases heq
  · exact hord.sending c' op' hold

theorem startWorker_ordered (hstep : s.startWorker c = some s') : s'.Ordered := by
  unfold startWorker at hstep
  split at hstep
  case h_2 => cases hstep
  rename_i op hc
  cases hstep
  cases hstarted : s.started with
  | false =>
    obtain ⟨hworker, hqueue⟩ := hord.notStarted hstarted
    have haccepted := hord.accepted
    rw [hworker] at haccepted
    refine ⟨?_, nofun, fun _ _ _ => rfl, fun h => ?_, fun h => ?_⟩
    · simpa [hstarted, inHand] using haccepted
    · simp [leaving] at h
    · simp at h
  | true =>
    refine ⟨?_, nofun, fun _ _ _ => rfl, fun h => ?_, fun h => ?_⟩
    · simpa [hstarted] using hord.accepted
    · exact hord.leaving (by simpa [hstarted] using h)
    · exact hord.done (by simpa [hstarted] using h)

theorem send_ordered (hstep : s.send c = some s') : s'.Ordered := by
  have hsending : ∀ c' op', (s.callers.erase c).lookup c' = some (.sending op') → s.started = true :=
    fun c' op' h => hord.sending c' op' (lookup_of_erase h)
  unfold send at hstep
  split at hstep
  case h_2 => cases hstep
  rename_i op hc
  have hstarted := hord.sending c op hc
  split at hstep
  case isFalse =>
    cases hstep
    exact { hord with sending := hsending }
  rename_i hroom
  cases hstep
  refine ⟨?_, fun h => absurd (h.symm.trans hstarted) false_ne_true, hsending, hord.leaving,
    fun h => ?_⟩
  · simp [hord.accepted]
  · have hctx := hord.leaving (by rw [h]; rfl)
    exact absurd (hroom.1.symm.trans hctx) false_ne_true

theorem receive_ordered (hstep : s.receive = some s') : s'.Ordered := by
  unfold receive at hstep
  split at hstep
  case h_1 op rest hworker hqueue =>
    cases hstep
    refine ⟨?_, fun h => ?_, hord.sending, nofun, nofun⟩
    · simp [hord.accepted, hworker, hqueue, inHand]
    · exact absurd ((hord.notStarted h).1.symm.trans hworker) (by simp)
  case h_2 op rest hworker hqueue =>
    cases hstep
    refine ⟨?_, fun h => ?_, hord.sending, fun _ => hord.leaving (by rw [hworker]; rfl),
      nofun⟩
    · simp [hord.accepted, hworker, hqueue, inHand]
    · exact absurd ((hord.notStarted h).1.symm.trans hworker) (by simp)
  case h_3 => cases hstep

theorem process_ordered (hstep : s.process effect = some s') : s'.Ordered := by
  unfold process at hstep
  split at hstep
  case h_2 => cases hstep
  rename_i op inDrain hworker
  cases hstep
  have hout : (if inDrain = true then draining else selecting : WorkerPc ρ).inHand = [] := by split <;> rfl
  refine ⟨?_, fun h => ?_, hord.sending, fun h => ?_, fun h => ?_⟩
  · rw [hout, hord.accepted, hworker]
    simp [inHand]
  · exact absurd ((hord.notStarted h).1.symm.trans hworker) (by simp)
  · cases inDrain with
    | false => cases h
    | true => exact hord.leaving (by rw [hworker]; rfl)
  · cases inDrain <;> cases h

theorem drained_ordered (hstep : s.drained = some s') : s'.Ordered := by
  unfold drained at hstep
  split at hstep
  case h_2 => cases hstep
  rename_i hworker hqueue
  cases hstep
  refine ⟨?_, fun h => ?_, hord.sending, fun _ => hord.leaving (by rw [hworker]; rfl), fun _ => hqueue⟩
  · simp [hord.accepted, hworker, hqueue, inHand]
  · exact absurd ((hord.notStarted h).1.symm.trans hworker) (by simp)

theorem step_ordered (hstep : s.step e = some s') : s'.Ordered := by
  cases e with
  | saveRecord | deleteRecord => exact enqueue_ordered hord hstep
  | startWorker => exact startWorker_ordered hord hstep
  | send => exact send_ordered hord hstep
  | receive => exact receive_ordered hord hstep
  | receiveCtxDone =>
    change s.receiveCtxDone = some s' at hstep
    unfold receiveCtxDone at hstep
    split at hstep
    case h_2 => cases hstep
    rename_i hworker
    obtain ⟨hctx, rfl⟩ := Option.ite_some_none_eq_some.mp hstep
    refine ⟨?_, fun h => ?_, hord.sending, fun _ => hctx, nofun⟩
    · simp [hord.accepted, hworker, inHand]
    · exact absurd ((hord.notStarted h).1.symm.trans hworker) (by simp)
  | process => exact process_ordered hord hstep
  | drained => exact drained_ordered hord hstep
  | cancel =>
    simp only [step, cancel] at hstep
    split at hstep
    all_goals cases hstep
    exact { hord with leaving := fun _ => rfl }
  | _ =>
    simp only [step, loadStarted, receiveDone, cleanRecords, cleanNext] at hstep
    repeat' split at hstep
    all_goals cases hstep
    all_goals exact { hord with }

end

structure Ended (s : System ρ) : Prop where
  ctxDone : s.ctxDone = true
  queue : s.queue = []
  inHand : s.worker.inHand = []

/-- From then on nothing is accepted or applied, and no key comes into the store. -/
structure Silent (s s' : System ρ) : Prop where
  ended : s'.Ended
  accepted : s'.accepted = s.accepted
  applied : s'.applied = s.applied
  store : ∀ key, s.store.lookup key = none → s'.store.lookup key = none

theorem cleanNext_eq_some (hstep : s.cleanNext c effect = some s') :
    ∃ key cleaner left, s.cleaners.lookup c = some cleaner ∧ cleaner.left = key :: left ∧
      s' = { s with
        store := if effect then s.store.erase key else s.store
        cleaners := s.cleaners.insert c
          { cleaner with left, failed := cleaner.failed || !effect } } := by
  unfold cleanNext at hstep
  split at hstep
  case h_1 => cases hstep
  rename_i cleaner hcleaner
  split at hstep
  case h_1 => cases hstep
  case h_2 key left hleft =>
    cases hstep
    exact ⟨key, cleaner, left, hcleaner, hleft, rfl⟩

theorem step_silent (hended : s.Ended) (hstep : s.step e = some s') : Silent s s' := by
  obtain ⟨hctx, hqueue, hhand⟩ := hended
  have hsame : Silent s s := ⟨⟨hctx, hqueue, hhand⟩, rfl, rfl, fun _ h => h⟩
  cases e with
  | startWorker =>
    simp only [step, startWorker] at hstep
    split at hstep
    all_goals cases hstep
    refine ⟨⟨hctx, hqueue, ?_⟩, rfl, rfl, fun _ h => h⟩
    split
    · exact hhand
    · rfl
  | send =>
    simp only [step, send] at hstep
    split at hstep
    case h_2 => cases hstep
    rw [if_neg (by simp [hctx])] at hstep
    cases hstep
    exact ⟨⟨hctx, hqueue, hhand⟩, rfl, rfl, fun _ h => h⟩
  | receive =>
    simp only [step, receive, hqueue] at hstep
    split at hstep
    case h_1 h | h_2 h => cases h
    case h_3 => cases hstep
  | process =>
    simp only [step, process] at hstep
    split at hstep
    case h_2 => cases hstep
    case h_1 op inDrain hworker =>
      rw [hworker] at hhand
      cases hhand
  | receiveCtxDone =>
    simp only [step, receiveCtxDone] at hstep
    split at hstep
    case h_2 => cases hstep
    rw [if_pos hctx] at hstep
    cases hstep
    exact ⟨⟨hctx, hqueue, rfl⟩, rfl, rfl, fun _ h => h⟩
  | drained =>
    simp only [step, drained] at hstep
    split at hstep
    all_goals cases hstep
    exact ⟨⟨hctx, hqueue, rfl⟩, rfl, rfl, fun _ h => h⟩
  | cleanNext _ effect =>
    obtain ⟨key, cleaner, left, -, -, rfl⟩ := cleanNext_eq_some hstep
    refine ⟨⟨hctx, hqueue, hhand⟩, rfl, rfl, fun x hx => ?_⟩
    cases effect with
    | false => exact hx
    | true =>
      by_contra hsome
      obtain ⟨record, hrecord⟩ := Option.ne_none_iff_exists'.mp hsome
      exact absurd (hx.symm.trans (lookup_of_erase hrecord)) (by simp)
  | saveRecord c key record | deleteRecord c key =>
    simp only [step, enqueue] at hstep
    repeat' split at hstep
    all_goals cases hstep
    · exact hsame
    · exact ⟨⟨hctx, hqueue, hhand⟩, rfl, rfl, fun _ h => h⟩
  | cancel =>
    simp only [step, cancel] at hstep
    split at hstep
    all_goals cases hstep
    exact ⟨⟨rfl, hqueue, hhand⟩, rfl, rfl, fun _ h => h⟩
  | _ =>
    simp only [step, loadStarted, receiveDone, cleanRecords] at hstep
    repeat' split at hstep
    all_goals cases hstep
    all_goals exact ⟨⟨hctx, hqueue, hhand⟩, rfl, rfl, fun _ h => h⟩

/-- A `Stop` that has returned has left nothing behind, and keys deleted after one are gone. -/
structure Stopped (s : System ρ) : Prop where
  cancelled : ∀ c pc, s.stops.lookup c = some pc → s.ctxDone = true
  returned : ∀ c, s.stops.lookup c = some .returned → s.Ended
  cleaned : ∀ c cleaner, s.cleaners.lookup c = some cleaner → cleaner.afterStop = true →
    s.Ended ∧ (cleaner.failed = false →
      ∀ key ∈ cleaner.keys, key ∈ cleaner.left ∨ s.store.lookup key = none)

theorem stopReturned_iff : s.stopReturned = true ↔ ∃ c, s.stops.lookup c = some .returned := by
  unfold stopReturned
  rw [any_eq_true]
  constructor
  · rintro ⟨⟨c, pc⟩, hentry, hpc⟩
    exact ⟨c, mem_entries_iff.mp ((of_decide_eq_true hpc : pc = .returned) ▸ hentry)⟩
  · rintro ⟨c, hc⟩
    exact ⟨⟨c, .returned⟩, mem_entries_iff.mpr hc, by simp⟩

theorem Stopped.setStop (hstopped : s.Stopped) (hc : s.stops.lookup c = some pc)
    (hended : pc' = .returned → s.Ended) : { s with stops := s.stops.insert c pc' }.Stopped where
  cancelled _ _ _ := hstopped.cancelled c pc hc
  returned c' hc' := by
    rcases lookup_of_insert hc' with ⟨-, heq⟩ | hold
    · obtain ⟨hctx, hqueue, hhand⟩ := hended heq
      exact ⟨hctx, hqueue, hhand⟩
    · obtain ⟨hctx, hqueue, hhand⟩ := hstopped.returned c' hold
      exact ⟨hctx, hqueue, hhand⟩
  cleaned c' cleaner hc' hafter := by
    obtain ⟨⟨hctx, hqueue, hhand⟩, hkeys⟩ := hstopped.cleaned c' cleaner hc' hafter
    exact ⟨⟨hctx, hqueue, hhand⟩, hkeys⟩

theorem cleanNext_stopped (hstopped : s.Stopped) (hstep : s.cleanNext c effect = some s') : s'.Stopped := by
  have hsilent : s.Ended → Silent s s' := fun hended => step_silent hended (e := .cleanNext c effect) hstep
  obtain ⟨key, cleaner, left, hcleaner, hleft, rfl⟩ := cleanNext_eq_some hstep
  refine ⟨hstopped.cancelled, fun c' hc' => (hsilent (hstopped.returned c' hc')).ended, ?_⟩
  intro c' cleaner' hc' hafter
  rcases lookup_of_insert hc' with ⟨rfl, rfl⟩ | hold
  · obtain ⟨hended, hkeys⟩ := hstopped.cleaned c' cleaner hcleaner hafter
    refine ⟨(hsilent hended).ended, fun hok x hx => ?_⟩
    simp only [or_eq_false_iff, not_eq_false'] at hok
    obtain ⟨hok, rfl⟩ := hok
    by_cases hxk : x = key
    · subst hxk
      exact .inr (lookup_erase _ _)
    rcases hkeys hok x hx with hmem | hnone
    · rw [hleft] at hmem
      exact .inl ((mem_cons.mp hmem).resolve_left hxk)
    · exact .inr ((hsilent hended).store x hnone)
  · obtain ⟨hended, hkeys⟩ := hstopped.cleaned c' cleaner' hold hafter
    refine ⟨(hsilent hended).ended, fun hok x hx => ?_⟩
    exact (hkeys hok x hx).imp_right ((hsilent hended).store x)

theorem step_stopped (hord : s.Ordered) (hstopped : s.Stopped) (hstep : s.step e = some s') : s'.Stopped := by
  have hsilent : s.Ended → Silent s s' := fun hended => step_silent hended hstep
  cases e with
  | cancel =>
    obtain ⟨hnone, rfl⟩ := Option.ite_some_none_eq_some.mp hstep
    refine ⟨fun _ _ _ => rfl, fun c' hc' => ?_, fun c' cleaner hc' hafter => ?_⟩
    · rcases lookup_of_insert hc' with ⟨-, heq⟩ | hold
      · cases heq
      · exact (hsilent (hstopped.returned c' hold)).ended
    · obtain ⟨hended, hkeys⟩ := hstopped.cleaned c' cleaner hc' hafter
      exact ⟨(hsilent hended).ended, hkeys⟩
  | loadStarted c =>
    obtain ⟨hc, rfl⟩ := Option.ite_some_none_eq_some.mp hstep
    refine hstopped.setStop hc fun hreturned => ?_
    cases hstarted : s.started with
    | true => simp [hstarted] at hreturned
    | false =>
      obtain ⟨hworker, hqueue⟩ := hord.notStarted hstarted
      exact ⟨hstopped.cancelled c _ hc, hqueue, by rw [hworker]; rfl⟩
  | receiveDone c =>
    simp only [step, receiveDone] at hstep
    split at hstep
    case h_2 => cases hstep
    rename_i hc hworker
    cases hstep
    exact hstopped.setStop hc fun _ => ⟨hstopped.cancelled c _ hc, hord.done hworker, by rw [hworker]; rfl⟩
  | cleanRecords =>
    obtain ⟨-, rfl⟩ := Option.ite_some_none_eq_some.mp hstep
    refine ⟨hstopped.cancelled, fun c' hc' => (hsilent (hstopped.returned c' hc')).ended, ?_⟩
    intro c' cleaner hc' hafter
    rcases lookup_of_insert hc' with ⟨-, rfl⟩ | hold
    · obtain ⟨c₀, hc₀⟩ := stopReturned_iff.mp hafter
      exact ⟨(hsilent (hstopped.returned c₀ hc₀)).ended, fun _ key hkey => .inl hkey⟩
    · obtain ⟨hended, hkeys⟩ := hstopped.cleaned c' cleaner hold hafter
      exact ⟨(hsilent hended).ended, hkeys⟩
  | cleanNext => exact cleanNext_stopped hstopped hstep
  | _ =>
    simp only [step, enqueue, startWorker, send, receive, receiveCtxDone, process, drained] at hstep
    repeat' split at hstep
    all_goals cases hstep
    all_goals
      refine ⟨hstopped.cancelled, fun c hc => (hsilent (hstopped.returned c hc)).ended, ?_⟩
      intro c cleaner hc hafter
      obtain ⟨hended, hkeys⟩ := hstopped.cleaned c cleaner hc hafter
      refine ⟨(hsilent hended).ended, fun hok key hkey => ?_⟩
      exact (hkeys hok key hkey).imp_right ((hsilent hended).store key)

end System

theorem ordered_of_reachable (hreach : (coordinator ρ).Reachable s) : s.Ordered ∧ s.Stopped := by
  refine hreach.invariant (P := fun s => s.Ordered ∧ s.Stopped) (fun s hinit => ?_)
    fun s e s' l _ _ hinv hstep => ?_
  · refine ⟨⟨?_, fun _ => ⟨hinit.worker, hinit.queue⟩, ?_, ?_, ?_⟩, ?_, ?_, ?_⟩
    · rw [hinit.accepted, hinit.applied, hinit.worker, hinit.queue]
      rfl
    · intro c op hc
      rw [hinit.callers] at hc
      cases hc
    · intro h
      rw [hinit.worker] at h
      cases h
    · intro h
      exact absurd (hinit.worker.symm.trans h) (by simp)
    · intro c pc hc
      rw [hinit.stops] at hc
      cases hc
    · intro c hc
      rw [hinit.stops] at hc
      cases hc
    · intro c cleaner hc
      rw [hinit.cleaners] at hc
      cases hc
  · have hnext := next_of_step hstep
    exact ⟨System.step_ordered hinv.1 hnext, System.step_stopped hinv.1 hinv.2 hnext⟩

/-- Operations of a key are applied in order. After a `Stop` all that was accepted is, nothing more,
and keys cleaned since are gone. -/
theorem stop_drains_store (ρ : Type) (s : System ρ) (hreach : (coordinator ρ).Reachable s) :
    (∀ key, s.applied.filter (fun op => op.key = key) <+: s.accepted.filter fun op => op.key = key) ∧
    (s.stopReturned = true → s.applied = s.accepted ∧
      ∀ e s' l, (coordinator ρ).step s e = some (s', l) →
        s'.applied = s.applied ∧ s'.accepted = s.accepted) ∧
    ∀ c cleaner, s.cleaners.lookup c = some cleaner → cleaner.afterStop = true →
      cleaner.left = [] → cleaner.failed = false → ∀ key ∈ cleaner.keys,
        s.store.lookup key = none := by
  obtain ⟨hord, hstopped⟩ := ordered_of_reachable hreach
  refine ⟨fun key => ?_, fun hreturned => ?_, fun c cleaner hc hafter hleft hok key hkey => ?_⟩
  · rw [hord.accepted, append_assoc, filter_append]
    exact prefix_append _ _
  · obtain ⟨c, hc⟩ := System.stopReturned_iff.mp hreturned
    have hended := hstopped.returned c hc
    refine ⟨?_, fun e s' l hstep => ?_⟩
    · rw [hord.accepted, hended.queue, hended.inHand, append_nil, append_nil]
    have hnext := next_of_step hstep
    have hsilent := System.step_silent hended hnext
    exact ⟨hsilent.applied, hsilent.accepted⟩
  · rcases (hstopped.cleaned c cleaner hc hafter).2 hok key hkey with hmem | hnone
    · rw [hleft] at hmem
      cases hmem
    · exact hnone

theorem stop_drains_store_queued : ∃ (s : System Nat) (cleaner : Cleaner),
    (coordinator Nat).Reachable s ∧ s.stopReturned = true ∧ s.accepted.length = 1 ∧
      s.applied = s.accepted ∧ s.cleaners.lookup 0 = some cleaner ∧ cleaner.keys = ["k"] ∧
      s.store.lookup "k" = none := by
  obtain ⟨s, hreach, hreturned, haccepted, cleaner, hlookup, hkeys, hafter, hleft, hok⟩ :=
    (coordinator Nat).reachable_of_run (s := {}) (by constructor <;> rfl)
    [.saveRecord 0 "k" 7, .startWorker 0, .send 0, .cancel 0, .loadStarted 0, .receiveCtxDone,
      .receive, .process true, .drained, .receiveDone 0, .cleanRecords 0 ["k"], .cleanNext 0 true]
    (fun s => s.stopReturned ∧ s.accepted.length = 1 ∧ ∃ cleaner, s.cleaners.lookup 0 = some cleaner ∧
      cleaner.keys = ["k"] ∧ cleaner.afterStop ∧ cleaner.left = [] ∧ cleaner.failed = false) (by decide)
  obtain ⟨-, hstop, hclean⟩ := stop_drains_store Nat s hreach
  exact ⟨s, cleaner, hreach, hreturned, haccepted, (hstop hreturned).1, hlookup, hkeys,
    hclean 0 cleaner hlookup hafter hleft hok "k" (by rw [hkeys]; exact mem_singleton_self _)⟩

end Yuanrong.SessionStore
