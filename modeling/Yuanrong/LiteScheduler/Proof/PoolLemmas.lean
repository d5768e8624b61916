import Yuanrong.LiteScheduler.Pool

/-!
# What the pool operations do

For each operation under the pool's lock: the sessions, instances and timers it leaves, and what it
does to the slack of an instance. The slack is what is accounted on the instance beyond the units
its sessions hold.
-/

namespace Yuanrong.Lite

open AList List SessionBinding

section Take

variable (b : SessionBinding)

theorem stickyTake_cases : (0 < b.reserved ∧ bindSessionStickyTakeLocked b =
      ({ b with reserved := b.reserved - 1, activeAllocs := b.activeAllocs + 1 }, 0)) ∨
    (b.reserved ≤ 0 ∧ bindSessionStickyTakeLocked b =
      ({ b with activeAllocs := b.activeAllocs + 1 }, 1)) := by
  unfold bindSessionStickyTakeLocked
  split
  · exact .inl ⟨by assumption, rfl⟩
  · exact .inr ⟨by omega, rfl⟩

theorem stickyTake_held :
    (bindSessionStickyTakeLocked b).1.held = b.held + (bindSessionStickyTakeLocked b).2 := by
  rcases stickyTake_cases b with ⟨-, htake⟩ | ⟨-, htake⟩
  all_goals
    rw [htake]
    simp only [held]
    omega

@[simp]
theorem stickyTake_instanceID : (bindSessionStickyTakeLocked b).1.instanceID = b.instanceID := by
  rcases stickyTake_cases b with ⟨-, htake⟩ | ⟨-, htake⟩ <;> rw [htake]

@[simp]
theorem stickyTake_activeAllocs : (bindSessionStickyTakeLocked b).1.activeAllocs = b.activeAllocs + 1 := by
  rcases stickyTake_cases b with ⟨-, htake⟩ | ⟨-, htake⟩ <;> rw [htake]

@[simp]
theorem stickyTake_expiring : (bindSessionStickyTakeLocked b).1.expiring = b.expiring := by
  rcases stickyTake_cases b with ⟨-, htake⟩ | ⟨-, htake⟩ <;> rw [htake]

@[simp]
theorem stickyTake_timer : (bindSessionStickyTakeLocked b).1.timer = b.timer := by
  rcases stickyTake_cases b with ⟨-, htake⟩ | ⟨-, htake⟩ <;> rw [htake]

@[simp]
theorem stickyTake_ref : (bindSessionStickyTakeLocked b).1.ref = b.ref := by
  rcases stickyTake_cases b with ⟨-, htake⟩ | ⟨-, htake⟩ <;> rw [htake]

end Take

def returnUnit (b : SessionBinding) : SessionBinding :=
  if b.activeAllocs > 0 then
    { b with activeAllocs := b.activeAllocs - 1, reserved := b.reserved + 1 }
  else
    b

section

variable (b : SessionBinding)
include b

theorem returnUnit_held : (returnUnit b).held = b.held := by
  unfold returnUnit
  split
  · simp only [held]
    omega
  · rfl

@[simp]
theorem returnUnit_instanceID : (returnUnit b).instanceID = b.instanceID := by
  unfold returnUnit
  split <;> rfl

@[simp]
theorem returnUnit_expiring : (returnUnit b).expiring = b.expiring := by
  unfold returnUnit
  split <;> rfl

@[simp]
theorem returnUnit_timer : (returnUnit b).timer = b.timer := by
  unfold returnUnit
  split <;> rfl

@[simp]
theorem returnUnit_ref : (returnUnit b).ref = b.ref := by
  unfold returnUnit
  split <;> rfl

theorem returnUnit_activeAllocs :
    (returnUnit b).activeAllocs = if b.activeAllocs > 0 then b.activeAllocs - 1 else b.activeAllocs := by
  unfold returnUnit
  split <;> rfl

theorem returnUnit_reserved_ge : b.reserved ≤ (returnUnit b).reserved := by
  unfold returnUnit
  split
  · change b.reserved ≤ b.reserved + 1
    omega
  · exact le_rfl

end

def cancelled (b : SessionBinding) : SessionBinding :=
  if b.expiring then { b with timer := none, expiring := false } else b

section

variable (b : SessionBinding)
include b

@[simp]
theorem cancelled_instanceID : (cancelled b).instanceID = b.instanceID := by
  unfold cancelled
  split <;> rfl

@[simp]
theorem cancelled_reserved : (cancelled b).reserved = b.reserved := by
  unfold cancelled
  split <;> rfl

@[simp]
theorem cancelled_activeAllocs : (cancelled b).activeAllocs = b.activeAllocs := by
  unfold cancelled
  split <;> rfl

@[simp]
theorem cancelled_ref : (cancelled b).ref = b.ref := by
  unfold cancelled
  split <;> rfl

@[simp]
theorem cancelled_expiring : (cancelled b).expiring = false := by
  unfold cancelled
  split
  · rfl
  · simpa using ‹¬b.expiring = true›

theorem stickyTake_cancelled :
    (bindSessionStickyTakeLocked (cancelled b)).2 = (bindSessionStickyTakeLocked b).2 := by
  simp only [bindSessionStickyTakeLocked, cancelled_reserved]
  split <;> rfl

end

theorem lookup_stopTimer (timers : FinMap Nat SessionTimer) (b : SessionBinding) (t : Nat) :
    (stopTimer timers b).lookup t =
      (timers.lookup t).filter fun timer => b.timer ≠ some t || timer.launched := by
  unfold stopTimer
  split
  · rename_i hnone
    cases hlookup : timers.lookup t <;> simp [hnone, Option.filter]
  rename_i t' hsome
  rw [lookup_filter, hsome]
  congr 1
  funext timer
  by_cases heq : t = t'
  · simp [heq]
  · simp [heq, Ne.symm heq]

namespace LiteFunctionPool

variable {p : LiteFunctionPool}

/-! ### Shapes -/

section Shapes

variable {k i : String} {b : SessionBinding} {ins : LiteInstance}

structure Frame (p p' : LiteFunctionPool) : Prop where
  funcKey : p'.funcKey = p.funcKey
  funcSpec : p'.funcSpec = p.funcSpec
  seqCounter : p'.seqCounter = p.seqCounter

theorem Frame.refl (p : LiteFunctionPool) : Frame p p := ⟨rfl, rfl, rfl⟩

theorem Frame.trans (h : Frame p p') (h' : Frame p' p'') : Frame p p'' :=
  ⟨h'.funcKey.trans h.funcKey, h'.funcSpec.trans h.funcSpec, h'.seqCounter.trans h.seqCounter⟩

theorem addInUse_of_lookup (hins : p.instances.lookup i = some ins) : p.addInUse i delta =
      { p with instances := p.instances.insert i { ins with inUse := ins.inUse + delta } } := by
  simp only [addInUse, hins]

theorem stickyTake_of_lookup (hbinding : p.sessions.lookup k = some b)
    (hins : p.instances.lookup b.instanceID = some ins) :
    p.stickyTake k =
      { p with
        instances := p.instances.insert b.instanceID
          { ins with inUse := ins.inUse + (bindSessionStickyTakeLocked b).2 }
        sessions := p.sessions.insert k (bindSessionStickyTakeLocked b).1 } := by
  simp only [stickyTake, hbinding, addInUse_of_lookup hins]

@[simp]
theorem addInUse_sessions (p : LiteFunctionPool) (i : String) (delta : Int) :
    (p.addInUse i delta).sessions = p.sessions := by
  unfold addInUse
  split <;> rfl

theorem stickyTake_sessions (hbinding : p.sessions.lookup k = some b) :
    (p.stickyTake k).sessions = p.sessions.insert k (bindSessionStickyTakeLocked b).1 := by
  simp only [stickyTake, hbinding]

theorem bindFresh_sessions (p : LiteFunctionPool) (k i : String) (c : Int) :
    ((p.addInUse i c).bindSessionFreshLocked k i c).sessions =
      p.sessions.insert k ⟨(p.addInUse i c).nextRef, i, c - 1, 1, none, false⟩ := by
  rw [← addInUse_sessions p i c]
  rfl

theorem lookup_cancelSessionUnbind (hbinding : p.sessions.lookup k = some b) (k' : String) :
    (p.cancelSessionUnbind k).sessions.lookup k' =
      if k' = k then some (cancelled b) else p.sessions.lookup k' := by
  simp only [cancelSessionUnbind, hbinding, cancelled]
  by_cases hexpiring : b.expiring = true
  · simp only [hexpiring, if_true]
    exact lookup_insert_eq_ite _ _ _ _
  simp only [if_neg hexpiring]
  split
  · rename_i heq
    rw [heq, hbinding]
  · rfl

theorem processInstanceInUse_nextRef (p : LiteFunctionPool) (b : SessionBinding) :
    (p.processInstanceInUse b).nextRef = p.nextRef := by
  unfold processInstanceInUse
  split
  · rfl
  split <;> rfl

theorem unbindSessionOnRelease_of_lookup (hbinding : p.sessions.lookup k = some b) :
    p.unbindSessionOnRelease k =
      if (returnUnit b).activeAllocs > 0 || b.expiring then
        ({ p with sessions := p.sessions.insert k (returnUnit b) }, false)
      else
        ({ p with sessions := p.sessions.insert k { returnUnit b with expiring := true } }, true) := by
  simp only [unbindSessionOnRelease, hbinding]
  change (if (returnUnit b).activeAllocs > 0 || (returnUnit b).expiring then _ else _) = _
  rw [returnUnit_expiring]
  rfl

theorem unbindSessionOnRelease_of_none (hbinding : p.sessions.lookup k = none) :
    p.unbindSessionOnRelease k = (p, false) := by
  simp only [unbindSessionOnRelease, hbinding]

end Shapes

/-! ### Slack -/

def heldOn (p : LiteFunctionPool) (i : String) : ℤ :=
  p.sessions.total fun _ b => if b.instanceID = i then b.held else 0

def slack (p : LiteFunctionPool) (i : String) : Option ℤ :=
  (p.instances.lookup i).map fun ins => ins.inUse - p.heldOn i

variable {k i : String} {b : SessionBinding} {ins : LiteInstance} {q : LiteFunctionPool}

theorem slack_of_lookup (hins : p.instances.lookup i = some ins) :
    p.slack i = some (ins.inUse - p.heldOn i) := by
  rw [slack, hins]
  rfl

theorem heldOn_congr (hsessions : q.sessions = p.sessions) (i : String) : q.heldOn i = p.heldOn i := by
  rw [heldOn, hsessions, heldOn]

theorem slack_congr (hsessions : q.sessions = p.sessions) (hinstances : q.instances = p.instances)
    (i : String) : q.slack i = p.slack i := by
  rw [slack, slack, hinstances, heldOn_congr hsessions]

theorem heldOn_insert (hbinding : p.sessions.lookup k = some b)
    (hsessions : q.sessions = p.sessions.insert k n) (i : String) :
    q.heldOn i = p.heldOn i - (if b.instanceID = i then b.held else 0) +
      (if n.instanceID = i then n.held else 0) := by
  rw [heldOn, hsessions, heldOn]
  have hadd := total_insert_add p.sessions (fun _ b => if b.instanceID = i then b.held else 0) n hbinding
  linarith

theorem heldOn_insert_of_none (hbinding : p.sessions.lookup k = none)
    (hsessions : q.sessions = p.sessions.insert k n) (i : String) :
    q.heldOn i = p.heldOn i + (if n.instanceID = i then n.held else 0) := by
  rw [heldOn, hsessions, heldOn]
  exact total_insert_of_none p.sessions _ n hbinding

theorem heldOn_erase (hbinding : p.sessions.lookup k = some b) (hsessions : q.sessions = p.sessions.erase k)
    (i : String) : q.heldOn i = p.heldOn i - (if b.instanceID = i then b.held else 0) := by
  rw [heldOn, hsessions, heldOn]
  have hadd := total_erase_add p.sessions (fun _ b => if b.instanceID = i then b.held else 0) hbinding
  linarith

theorem slack_eq_of_shift (hins : p.instances.lookup i₀ = some ins)
    (hinstances : q.instances = p.instances.insert i₀ { ins with inUse := ins.inUse + d })
    (hheld : ∀ i, q.heldOn i = p.heldOn i + if i₀ = i then d else 0) (i : String) :
    q.slack i = p.slack i := by
  rw [slack, slack, hinstances, lookup_insert_eq_ite, hheld]
  by_cases heq : i = i₀
  · subst heq
    rw [if_pos rfl, if_pos rfl, hins]
    simp only [Option.map_some, Option.some.injEq]
    omega
  · rw [if_neg heq, if_neg (Ne.symm heq), add_zero]

theorem slack_stickyTake (hbinding : p.sessions.lookup k = some b)
    (hins : p.instances.lookup b.instanceID = some ins) (i : String) :
    (p.stickyTake k).slack i = p.slack i := by
  have hshape := stickyTake_of_lookup hbinding hins
  apply slack_eq_of_shift hins (by rw [hshape])
  intro i
  rw [heldOn_insert hbinding (by rw [hshape])]
  rw [stickyTake_instanceID, stickyTake_held]
  split <;> omega

theorem slack_addInUse (hins : p.instances.lookup i = some ins) (d : ℤ) (j : String) :
    (p.addInUse i d).slack j = (p.slack j).map fun v => v + if j = i then d else 0 := by
  rw [addInUse_of_lookup hins]
  rw [slack, slack, lookup_insert_eq_ite]
  have hheld : heldOn { p with instances := p.instances.insert i { ins with inUse := ins.inUse + d } } j =
      p.heldOn j := heldOn_congr rfl j
  rw [hheld]
  by_cases heq : j = i
  · subst heq
    simp only [if_true, hins, Option.map_some, Option.some.injEq]
    omega
  · simp only [if_neg heq, Option.map_map, Function.comp_def, add_zero]

theorem slack_bindFresh (hbinding : p.sessions.lookup k = none) (hins : p.instances.lookup i = some ins)
    (j : String) : ((p.addInUse i c).bindSessionFreshLocked k i c).slack j = p.slack j := by
  rw [addInUse_of_lookup hins]
  apply slack_eq_of_shift hins rfl
  intro j
  rw [heldOn_insert_of_none hbinding rfl]
  simp [held]

theorem slack_bindFresh_of_lookup (hbinding : p.sessions.lookup k = some b)
    (hins : p.instances.lookup i = some ins) (j : String) :
    ((p.addInUse i c).bindSessionFreshLocked k i c).slack j =
      (p.slack j).map fun v => v + if b.instanceID = j then b.held else 0 := by
  have hheld : ∀ j, ((p.addInUse i c).bindSessionFreshLocked k i c).heldOn j =
      p.heldOn j - (if b.instanceID = j then b.held else 0) + if i = j then c else 0 := by
    intro j
    rw [addInUse_of_lookup hins]
    rw [heldOn_insert hbinding rfl]
    simp [held]
  rw [slack, hheld, slack, addInUse_of_lookup hins]
  change Option.map _ (lookup j (p.instances.insert i { ins with inUse := ins.inUse + c })) = _
  rw [lookup_insert_eq_ite]
  by_cases heq : j = i
  · subst heq
    simp only [if_true, hins, Option.map_some, Option.some.injEq]
    omega
  · simp only [if_neg heq, if_neg (Ne.symm heq), Option.map_map, Function.comp_def]
    congr 1
    funext slot
    omega

theorem slack_cancelSessionUnbind (k i : String) : (p.cancelSessionUnbind k).slack i = p.slack i := by
  unfold cancelSessionUnbind
  split
  · rfl
  rename_i b hbinding
  split
  · have hheld := heldOn_insert (q := { p with
        timers := stopTimer p.timers b
        sessions := p.sessions.insert k { b with timer := none, expiring := false } })
      hbinding rfl i
    rw [slack, slack, hheld]
    simp [held]
  · rfl

theorem slack_unbindSessionOnRelease (k i : String) : (p.unbindSessionOnRelease k).1.slack i = p.slack i := by
  cases hbinding : p.sessions.lookup k with
  | none => rw [unbindSessionOnRelease_of_none hbinding]
  | some b =>
    have hreplace : ∀ b' : SessionBinding, b'.instanceID = b.instanceID → b'.held = b.held →
        slack { p with sessions := p.sessions.insert k b' } i = p.slack i := by
      intro b' hid hheld
      rw [slack, slack, heldOn_insert hbinding rfl i, hid, hheld, sub_add_cancel]
    rw [unbindSessionOnRelease_of_lookup hbinding]
    split
    all_goals exact hreplace _ (returnUnit_instanceID b) (returnUnit_held b)

theorem slack_removeSessionBinding (hbinding : p.sessions.lookup k = some b)
    (hins : p.instances.lookup b.instanceID = some ins) (hpos : 0 < b.held) (hle : b.held ≤ ins.inUse)
    (i : String) : (p.removeSessionBinding k).slack i = p.slack i := by
  have hshape : p.removeSessionBinding k =
      { p with
        instances := p.instances.insert b.instanceID { ins with inUse := ins.inUse + -b.held }
        timers := stopTimer p.timers b
        sessions := p.sessions.erase k } := by
    simp only [removeSessionBinding, hbinding, processInstanceInUse, hins, if_pos hpos, if_pos hle,
      sub_eq_add_neg]
  apply slack_eq_of_shift hins (by rw [hshape])
  intro i
  rw [heldOn_erase hbinding (by rw [hshape])]
  split <;> omega

theorem heldOn_nonneg (hheld : ∀ k b, p.sessions.lookup k = some b → 0 ≤ b.held) (i : String) :
    0 ≤ p.heldOn i := by
  apply total_nonneg
  intro k b hb
  split
  · exact hheld k b hb
  · exact le_rfl

theorem held_le_heldOn (hheld : ∀ k b, p.sessions.lookup k = some b → 0 ≤ b.held)
    (hb : p.sessions.lookup k = some b) : b.held ≤ p.heldOn b.instanceID := by
  have hle := le_total (f := fun _ b' => if b'.instanceID = b.instanceID then b'.held else 0)
    (fun k' b' hb' => by
      split
      · exact hheld k' b' hb'
      · exact le_rfl) hb
  rw [if_pos rfl] at hle
  exact hle

theorem slack_fireSessionUnbind (hheld : ∀ k b, p.sessions.lookup k = some b → 0 < b.held)
    (hins : ∀ k b, p.sessions.lookup k = some b →
      ∃ ins, p.instances.lookup b.instanceID = some ins ∧ b.held ≤ ins.inUse) (t : Nat) (timer : SessionTimer)
    (i : String) : (p.fireSessionUnbind t timer).slack i = p.slack i := by
  unfold fireSessionUnbind
  split
  · cases hb : p.sessions.lookup timer.sessionID with
    | none =>
      simp only [removeSessionBinding, hb]
      exact slack_congr rfl rfl i
    | some b =>
      obtain ⟨ins, hlookup, hle⟩ := hins _ b hb
      exact slack_removeSessionBinding (p := { p with timers := p.timers.erase t }) hb hlookup
        (hheld _ b hb) hle i
  · exact slack_congr rfl rfl i

theorem slack_upsertInstance (new : Instance) (i : String) : (p.upsertInstance new).slack i =
      if i = new.instanceID ∧ p.instances.lookup i = none then some (0 - p.heldOn i)
      else p.slack i := by
  have hheld : (p.upsertInstance new).heldOn i = p.heldOn i := heldOn_congr rfl i
  rw [slack, hheld, slack]
  change Option.map _ (lookup i (p.instances.insert new.instanceID _)) = _
  rw [lookup_insert_eq_ite]
  by_cases heq : i = new.instanceID
  · subst heq
    rw [if_pos rfl]
    cases hins : p.instances.lookup new.instanceID with
    | none => simp [buildLiteInstanceFromInstance]
    | some => simp
  · rw [if_neg heq, if_neg (fun h => heq h.1)]

/-! ### Removing an instance -/

structure Unbound (i : String) (p p' : LiteFunctionPool) : Prop where
  frame : Frame p p'
  nextRef : p'.nextRef = p.nextRef
  instances : p'.instances = p.instances
  sessions : ∀ k, p'.sessions.lookup k = (p.sessions.lookup k).filter (·.instanceID ≠ i)
  heldOn : ∀ j, j ≠ i → p'.heldOn j = p.heldOn j
  timers : ∀ t timer, p'.timers.lookup t = some timer → p.timers.lookup t = some timer
  timers_keep : ∀ t timer, p.timers.lookup t = some timer →
    (∀ k b, p.sessions.lookup k = some b → b.instanceID = i → b.timer ≠ some t) →
    p'.timers.lookup t = some timer

theorem foldl_removeSessionBinding (ks : List String) (hgone : p.instances.lookup i = none)
    (hbound : ∀ k ∈ ks, ∀ b, p.sessions.lookup k = some b → b.instanceID = i) :
    let p' := ks.foldl removeSessionBinding p
    Frame p p' ∧ p'.nextRef = p.nextRef ∧ p'.instances = p.instances ∧
    (∀ k, p'.sessions.lookup k = if k ∈ ks then none else p.sessions.lookup k) ∧
    (∀ j, j ≠ i → p'.heldOn j = p.heldOn j) ∧
    (∀ t timer, p'.timers.lookup t = some timer → p.timers.lookup t = some timer) ∧
    (∀ t timer, p.timers.lookup t = some timer →
      (∀ k ∈ ks, ∀ b, p.sessions.lookup k = some b → b.timer ≠ some t) →
      p'.timers.lookup t = some timer) := by
  induction ks generalizing p with
  | nil =>
    refine ⟨Frame.refl p, rfl, rfl, ?_, ?_, ?_, ?_⟩
    · intro k
      simp
    · intro j _
      rfl
    · intro t timer h
      exact h
    · intro t timer h _
      exact h
  | cons k ks ih =>
    cases hbinding : p.sessions.lookup k with
    | none =>
      have hrest := ih hgone fun k' hk' => hbound k' (mem_cons_of_mem _ hk')
      simp only [foldl_cons, removeSessionBinding, hbinding]
      obtain ⟨hframe, href, hins, hsess, hheld, hsub, hkeep⟩ := hrest
      refine ⟨hframe, href, hins, ?_, hheld, hsub, ?_⟩
      · intro k'
        rw [hsess]
        by_cases heq : k' = k
        · subst heq
          simp [hbinding]
        · simp [heq]
      · intro t timer htimer hnone
        exact hkeep t timer htimer fun k' hk' => hnone k' (mem_cons_of_mem _ hk')
    | some b =>
      have hid : b.instanceID = i := hbound k mem_cons_self b hbinding
      have hstep : p.removeSessionBinding k =
          { p with timers := stopTimer p.timers b, sessions := p.sessions.erase k } := by
        rw [← hid] at hgone
        simp only [removeSessionBinding, hbinding, processInstanceInUse, hgone]
      let p₁ : LiteFunctionPool :=
        { p with timers := stopTimer p.timers b, sessions := p.sessions.erase k }
      have hbound₁ : ∀ k' ∈ ks, ∀ b', p₁.sessions.lookup k' = some b' → b'.instanceID = i := by
        intro k' hk' b' hb'
        exact hbound k' (mem_cons_of_mem _ hk') b' (lookup_of_erase hb')
      obtain ⟨hframe, href, hins, hsess, hheld, hsub, hkeep⟩ := ih (p := p₁) hgone hbound₁
      simp only [foldl_cons, hstep]
      have hframe₁ : Frame p p₁ := ⟨rfl, rfl, rfl⟩
      refine ⟨hframe₁.trans hframe, href, hins, ?_, ?_, ?_, ?_⟩
      · intro k'
        rw [hsess, show p₁.sessions = p.sessions.erase k from rfl, lookup_erase_eq_ite]
        by_cases heq : k' = k
        all_goals simp [heq]
      · intro j hj
        rw [hheld j hj, heldOn_erase hbinding rfl, if_neg (by rw [hid]; exact Ne.symm hj), sub_zero]
      · intro t timer htimer
        have hstop := hsub t timer htimer
        rw [show p₁.timers = stopTimer p.timers b from rfl, lookup_stopTimer,
          Option.filter_eq_some_iff] at hstop
        exact hstop.1
      · intro t timer htimer hnone
        apply hkeep t timer
        · rw [show p₁.timers = stopTimer p.timers b from rfl, lookup_stopTimer, htimer]
          simp [Option.filter, hnone k mem_cons_self b hbinding]
        · intro k' hk' b' hb'
          exact hnone k' (mem_cons_of_mem _ hk') b' (lookup_of_erase hb')

/-- **Removing an instance.** The instance goes, and with it exactly the sessions bound to it. -/
theorem removeInstance_unbound (p : LiteFunctionPool) (i : String) :
    Unbound i { p with instances := p.instances.erase i } (p.removeInstance i) := by
  have hmem : ∀ k, k ∈ (p.sessions.entries.filter fun e => e.2.instanceID = i).map Sigma.fst ↔
      ∃ b, p.sessions.lookup k = some b ∧ b.instanceID = i := by
    intro k
    rw [mem_map]
    constructor
    · rintro ⟨⟨k', b⟩, hentry, rfl⟩
      rw [mem_filter] at hentry
      exact ⟨b, mem_entries_iff.mp hentry.1, by simpa using hentry.2⟩
    · rintro ⟨b, hb, hid⟩
      exact ⟨⟨k, b⟩, by simpa [hid] using mem_entries_iff.mpr hb, rfl⟩
  obtain ⟨hframe, href, hins, hsess, hheld, hsub, hkeep⟩ :=
    foldl_removeSessionBinding (p := { p with instances := p.instances.erase i })
      ((p.sessions.entries.filter fun e => e.2.instanceID = i).map Sigma.fst)
      (lookup_erase i p.instances)
      (by
        intro k hk b hb
        obtain ⟨b', hb', hid⟩ := (hmem k).mp hk
        have heq : b = b' := Option.some.inj (hb.symm.trans hb')
        exact heq ▸ hid)
  refine ⟨hframe, href, hins, ?_, hheld, hsub, ?_⟩
  · intro k
    refine (hsess k).trans ?_
    cases hb : p.sessions.lookup k with
    | none => simp
    | some b =>
      by_cases hid : b.instanceID = i
      · rw [if_pos ((hmem k).mpr ⟨b, hb, hid⟩)]
        simp [Option.filter, hid]
      rw [if_neg]
      · simp [Option.filter, hid]
      intro hk
      obtain ⟨b', hb', hid'⟩ := (hmem k).mp hk
      rw [hb] at hb'
      cases hb'
      exact hid hid'
  · intro t timer htimer hnone
    apply hkeep t timer htimer
    intro k hk b hb
    obtain ⟨b', hb', hid⟩ := (hmem k).mp hk
    have heq : b = b' := Option.some.inj (hb.symm.trans hb')
    exact hnone k b hb (heq ▸ hid)

theorem slack_removeInstance (p : LiteFunctionPool) (i j : String) :
    (p.removeInstance i).slack j = if j = i then none else p.slack j := by
  have hunbound := removeInstance_unbound p i
  rw [slack, hunbound.instances, lookup_erase_eq_ite]
  by_cases heq : j = i
  · rw [if_pos heq, if_pos heq]
    rfl
  · rw [if_neg heq, if_neg heq, hunbound.heldOn j heq]
    rfl

/-! ### Updates that leave the accounts alone -/

structure SameSlot (ins ins' : LiteInstance) : Prop where
  instanceID : ins'.instanceID = ins.instanceID
  capacity : ins'.capacity = ins.capacity
  inUse : ins'.inUse = ins.inUse
  status : ins'.status = ins.status
  reclaiming : ins'.reclaiming = true → ins.reclaiming = true ∨ ins.inUse ≤ 0

theorem SameSlot.refl (ins : LiteInstance) : SameSlot ins ins := ⟨rfl, rfl, rfl, rfl, .inl⟩

structure Quiet (p p' : LiteFunctionPool) : Prop where
  frame : Frame p p'
  nextRef : p'.nextRef = p.nextRef
  sessions : p'.sessions = p.sessions
  instances : ∃ g : String → LiteInstance → LiteInstance,
    (∀ i ins, SameSlot ins (g i ins)) ∧
      ∀ i, p'.instances.lookup i = (p.instances.lookup i).map (g i)
  timers : ∃ g : Nat → SessionTimer → SessionTimer,
    (∀ t timer, (g t timer).sessionID = timer.sessionID ∧ (g t timer).binding = timer.binding) ∧
      ∀ t, p'.timers.lookup t = (p.timers.lookup t).map (g t)

theorem sameInstances (p : LiteFunctionPool) : ∃ g : String → LiteInstance → LiteInstance,
    (∀ i ins, SameSlot ins (g i ins)) ∧
      ∀ i, p.instances.lookup i = (p.instances.lookup i).map (g i) :=
  ⟨fun _ ins => ins, fun _ => SameSlot.refl, fun _ => by simp⟩

theorem sameTimers (p : LiteFunctionPool) : ∃ g : Nat → SessionTimer → SessionTimer,
    (∀ t timer, (g t timer).sessionID = timer.sessionID ∧ (g t timer).binding = timer.binding) ∧
      ∀ t, p.timers.lookup t = (p.timers.lookup t).map (g t) :=
  ⟨fun _ timer => timer, fun _ _ => ⟨rfl, rfl⟩, fun _ => by simp⟩

theorem Quiet.dispatcher (p : LiteFunctionPool) (d : Dispatcher) : Quiet p { p with dispatcher := d } :=
  ⟨⟨rfl, rfl, rfl⟩, rfl, rfl, sameInstances p, sameTimers p⟩

theorem Quiet.refl (p : LiteFunctionPool) : Quiet p p :=
  ⟨Frame.refl p, rfl, rfl, sameInstances p, sameTimers p⟩

theorem Quiet.mapVal (p : LiteFunctionPool) (f : LiteInstance → LiteInstance)
    (hf : ∀ ins, SameSlot ins (f ins)) : Quiet p { p with instances := p.instances.mapVal fun _ => f } :=
  ⟨⟨rfl, rfl, rfl⟩, rfl, rfl,
    ⟨fun _ => f, fun _ => hf, fun i => lookup_mapVal p.instances _ i⟩, sameTimers p⟩

theorem sameSlot_scanInstance (funcKey : String) (ring : RingView) (now : Nat)
    (ins : LiteInstance) : SameSlot ins (scanInstance funcKey ring now ins) := by
  unfold scanInstance
  split
  · exact SameSlot.refl ins
  split
  · exact ⟨rfl, rfl, rfl, rfl, .inl⟩
  split
  · exact ⟨rfl, rfl, rfl, rfl, nofun⟩
  rename_i hidle
  split
  · exact SameSlot.refl ins
  split
  · exact ⟨rfl, rfl, rfl, rfl, .inl⟩
  split
  · exact SameSlot.refl ins
  split
  · exact SameSlot.refl ins
  · exact ⟨rfl, rfl, rfl, rfl, fun _ => .inr (by omega)⟩

theorem Quiet.scanIdle (p : LiteFunctionPool) (ring : RingView) (now : Nat) : Quiet p (p.scanIdle ring now) :=
  Quiet.mapVal p _ (sameSlot_scanInstance p.funcKey ring now)

theorem Quiet.ringChange (p : LiteFunctionPool) (ring : RingView) : Quiet p (p.ringChange ring) := by
  apply Quiet.mapVal
  intro ins
  unfold ringChangeInstance
  split
  · exact SameSlot.refl ins
  split
  · exact SameSlot.refl ins
  · exact ⟨rfl, rfl, rfl, rfl, nofun⟩

theorem Quiet.resetReclaiming (p : LiteFunctionPool) (i : String) : Quiet p (p.resetReclaiming i) := by
  unfold LiteFunctionPool.resetReclaiming
  split
  · exact Quiet.refl p
  rename_i ins hins
  refine ⟨⟨rfl, rfl, rfl⟩, rfl, rfl, ⟨fun j slot => if j = i then { slot with reclaiming := false }
    else slot, ?_, ?_⟩, sameTimers p⟩
  · intro j slot
    dsimp only
    split
    · exact ⟨rfl, rfl, rfl, rfl, nofun⟩
    · exact SameSlot.refl slot
  · intro j
    rw [lookup_insert_eq_ite]
    by_cases heq : j = i
    · subst heq
      simp [hins]
    · simp [heq]

theorem Quiet.launch (p : LiteFunctionPool) {t : Nat} {timer : SessionTimer}
    (htimer : p.timers.lookup t = some timer) :
    Quiet p { p with timers := p.timers.insert t { timer with launched := true } } := by
  refine ⟨⟨rfl, rfl, rfl⟩, rfl, rfl, sameInstances p,
    ⟨fun t' timer => if t' = t then { timer with launched := true } else timer, ?_, ?_⟩⟩
  · intro t' timer'
    dsimp only
    split <;> exact ⟨rfl, rfl⟩
  · intro t'
    rw [lookup_insert_eq_ite]
    by_cases heq : t' = t
    · subst heq
      simp [htimer]
    · simp [heq]

theorem Quiet.slack (h : Quiet p p') (i : String) : p'.slack i = p.slack i := by
  obtain ⟨g, hsame, hlookup⟩ := h.instances
  rw [LiteFunctionPool.slack, LiteFunctionPool.slack, hlookup, heldOn_congr h.sessions, Option.map_map]
  congr 1
  funext ins
  simp [(hsame i ins).inUse]

/-! ### Operations that change nothing of an instance but its `InUse` -/

def InUseOnly (p p' : LiteFunctionPool) : Prop :=
  ∃ u : String → LiteInstance → Int,
    ∀ i, p'.instances.lookup i = (p.instances.lookup i).map fun ins => { ins with inUse := u i ins }

section InUse

variable {k i : String} {b : SessionBinding} {p p' : LiteFunctionPool}

theorem InUseOnly.of_eq (h : p'.instances = p.instances) : InUseOnly p p' :=
  ⟨fun _ ins => ins.inUse, fun i => by simp [h]⟩

theorem InUseOnly.trans (h : InUseOnly p p') (h' : InUseOnly p' p'') : InUseOnly p p'' := by
  obtain ⟨u, hu⟩ := h
  obtain ⟨u', hu'⟩ := h'
  refine ⟨fun i ins => u' i { ins with inUse := u i ins }, ?_⟩
  intro i
  rw [hu', hu, Option.map_map]
  rfl

theorem InUseOnly.insert (hins : p.instances.lookup i = some ins)
    (hinstances : p'.instances = p.instances.insert i { ins with inUse := v }) : InUseOnly p p' := by
  refine ⟨fun j slot => if j = i then v else slot.inUse, ?_⟩
  intro j
  rw [hinstances, lookup_insert_eq_ite]
  by_cases heq : j = i
  · subst heq
    simp [hins]
  · simp [heq]

theorem InUseOnly.lookup (h : InUseOnly p p') (hins' : p'.instances.lookup i = some ins') :
    ∃ ins v, p.instances.lookup i = some ins ∧ ins' = { ins with inUse := v } := by
  obtain ⟨u, hu⟩ := h
  rw [hu] at hins'
  obtain ⟨ins, hins, heq⟩ := Option.map_eq_some_iff.mp hins'
  exact ⟨ins, u i ins, hins, heq.symm⟩

theorem InUseOnly.keeps (h : InUseOnly p p') (hins : p.instances.lookup i = some ins) :
    ∃ ins', p'.instances.lookup i = some ins' := by
  obtain ⟨u, hu⟩ := h
  exact ⟨{ ins with inUse := u i ins }, by rw [hu, hins]; rfl⟩

structure Kept (p p' : LiteFunctionPool) : Prop extends Frame p p' where
  inUse : InUseOnly p p'

theorem Kept.of_eq (hframe : Frame p p') (h : p'.instances = p.instances) : Kept p p' :=
  ⟨hframe, InUseOnly.of_eq h⟩

theorem Kept.trans (h : Kept p p') (h' : Kept p' p'') : Kept p p'' :=
  ⟨h.toFrame.trans h'.toFrame, h.inUse.trans h'.inUse⟩

end InUse

section Frames

variable (p : LiteFunctionPool)

theorem Kept.refl : Kept p p := .of_eq (.refl p) rfl

theorem kept_addInUse (i : String) (d : Int) : Kept p (p.addInUse i d) := by
  cases hins : p.instances.lookup i with
  | none =>
    simp only [addInUse, hins]
    exact .refl p
  | some =>
    rw [addInUse_of_lookup hins]
    exact ⟨⟨rfl, rfl, rfl⟩, InUseOnly.insert hins rfl⟩

theorem kept_bindFresh (k i : String) (c : Int) : Kept p ((p.addInUse i c).bindSessionFreshLocked k i c) :=
  (kept_addInUse p i c).trans (.of_eq ⟨rfl, rfl, rfl⟩ rfl)

theorem kept_stickyTake (k : String) : Kept p (p.stickyTake k) := by
  unfold stickyTake
  split
  · exact .refl p
  · exact (kept_addInUse p _ _).trans (.of_eq ⟨rfl, rfl, rfl⟩ rfl)

theorem kept_cancelSessionUnbind (k : String) : Kept p (p.cancelSessionUnbind k) := by
  unfold cancelSessionUnbind
  split
  · exact .refl p
  split <;> exact .of_eq ⟨rfl, rfl, rfl⟩ rfl

theorem kept_unbindSessionOnRelease (k : String) : Kept p (p.unbindSessionOnRelease k).1 := by
  cases hbinding : p.sessions.lookup k with
  | none =>
    rw [unbindSessionOnRelease, hbinding]
    exact .refl p
  | some =>
    rw [unbindSessionOnRelease_of_lookup hbinding]
    split
    all_goals exact .of_eq ⟨rfl, rfl, rfl⟩ rfl

theorem kept_startSessionUnbindTimer (k : String) (ttl : Int) (now : Nat) :
    Kept p (p.startSessionUnbindTimer k ttl now) := by
  unfold startSessionUnbindTimer
  split
  · exact .refl p
  split <;> exact .of_eq ⟨rfl, rfl, rfl⟩ rfl

theorem kept_processInstanceInUse (b : SessionBinding) : Kept p (p.processInstanceInUse b) := by
  unfold processInstanceInUse
  split
  · exact .refl p
  rename_i slot hslot
  split
  · exact ⟨⟨rfl, rfl, rfl⟩, InUseOnly.insert hslot rfl⟩
  · exact .refl p

theorem kept_removeSessionBinding (k : String) : Kept p (p.removeSessionBinding k) := by
  unfold removeSessionBinding
  split
  · exact .refl p
  · exact (kept_processInstanceInUse p _).trans (.of_eq ⟨rfl, rfl, rfl⟩ rfl)

theorem kept_fireSessionUnbind (ref : Nat) (timer : SessionTimer) :
    Kept p (p.fireSessionUnbind ref timer) := by
  have hfired : Kept p { p with timers := p.timers.erase ref } := .of_eq ⟨rfl, rfl, rfl⟩ rfl
  unfold fireSessionUnbind
  split
  · exact hfired.trans (kept_removeSessionBinding _ _)
  · exact hfired

theorem frame_removeInstance (i : String) : Frame p (p.removeInstance i) := by
  have herased : Frame p { p with instances := p.instances.erase i } := ⟨rfl, rfl, rfl⟩
  exact herased.trans (removeInstance_unbound p i).frame

end Frames

end LiteFunctionPool

end Yuanrong.Lite
