import Yuanrong.LiteScheduler.Proof.Units

/-!
# The accounts of an instance

What an instance is accounted beyond the units its sessions hold covers the units out without a
session. The surplus only grows, and only in the steps that lose sight of a unit: an assignment over
a live record, a record dropped with its unit still out, and a poll that binds a session over its
own binding.
-/

namespace Yuanrong.Lite

open LiteScheduler LiteFunctionPool Option AList

def free (f i : String) (a : Allocation) : Bool :=
  a.sessionID = "" && a.funcKey = f && a.instanceID = i

/-- Binding keys are of one session, and no instance comes back before its units. -/
def accountable (s : System) : Event → Bool
  | .run tid _ =>
    match s.threads.lookup tid with
    | some (.dispatch req) => separatorFree req.sessionID
    | some (.poll req _) => separatorFree req.sessionID
    | some (.reacquire params) => separatorFree params.sessionID
    | _ => true
  | .instanceUpdate f ins =>
    ((s.ls.getPool f).any fun pool => (pool.instances.lookup ins.instanceID).isSome) ||
      s.threads.entries.all fun entry => entry.2.token.all fun a => !free f ins.instanceID a
  | _ => true

section Keys

variable {p p' : LiteFunctionPool} {k : String} {b : SessionBinding}

theorem sessionBindingKey_ne (hsession : sessionID ≠ "") (hfree : separatorFree sessionID = true)
    (ctx ctx' : String) : p.sessionBindingKey sessionID ctx ≠ p.sessionBindingKey "" ctx' := by
  have hjoin : joinKey [sessionID, ctx] ≠ joinKey ["", ctx'] := by
    intro heq
    exact hsession (joinKey_inj hfree rfl heq).1
  unfold sessionBindingKey
  split
  · exact hsession
  split
  · exact hjoin
  · exact hsession

/-- What a binding holds, and that it is not under the key of requests without session. -/
structure LiteFunctionPool.Holds (p : LiteFunctionPool) (k : String) (b : SessionBinding) : Prop where
  reserved : 0 ≤ b.reserved
  activeAllocs : 0 ≤ b.activeAllocs
  held : 1 ≤ b.held
  key : ∀ ctx, k ≠ p.sessionBindingKey "" ctx

def LiteFunctionPool.AllHold (p : LiteFunctionPool) : Prop :=
  ∀ k b, p.sessions.lookup k = some b → p.Holds k b

theorem LiteFunctionPool.AllHold.change (h : p.AllHold)
    (hok : accountable s e = true) (hchange : PoolChange s e f p p') : p'.AllHold := by
  intro k b' hb'
  have hkeys : ∀ b, p.sessions.lookup k = some b → ∀ ctx, k ≠ p'.sessionBindingKey "" ctx := by
    intro b hb
    rw [hchange.sessionBindingKey]
    exact (h k b hb).key
  cases hchange.binding hb' with
  | @same b hb =>
    obtain ⟨hr, ha, hheld, -⟩ := h k b hb
    refine ⟨by omega, by omega, ?_, hkeys b hb⟩
    unfold SessionBinding.held at hheld ⊢
    omega
  | @taken b hb _ hreserved =>
    obtain ⟨hr, ha, hheld, -⟩ := h k b hb
    have hbounds : 0 ≤ b'.reserved ∧ b.reserved - 1 ≤ b'.reserved := by
      rcases stickyTake_cases b with ⟨hpos, htake⟩ | ⟨-, htake⟩
      · rw [htake] at hreserved
        change b'.reserved = b.reserved - 1 at hreserved
        omega
      · rw [htake] at hreserved
        change b'.reserved = b.reserved at hreserved
        omega
    refine ⟨hbounds.1, by omega, ?_, hkeys b hb⟩
    unfold SessionBinding.held at hheld ⊢
    omega
  | @returned b hb _ _ hactive =>
    obtain ⟨hr, ha, hheld, -⟩ := h k b hb
    have hsum := returnUnit_held b
    have hless := returnUnit_activeAllocs b
    unfold SessionBinding.held at hheld hsum
    refine ⟨by omega, ?_, ?_, hkeys b hb⟩
    · rw [hactive, hless]
      split <;> omega
    · unfold SessionBinding.held
      omega
  | @fresh _ _ hsession hkey hbinds hreserved =>
    refine ⟨hreserved, by omega, ?_, ?_⟩
    · unfold SessionBinding.held
      omega
    intro ctx
    rw [hchange.sessionBindingKey, hkey]
    refine sessionBindingKey_ne hsession ?_ _ _
    obtain ⟨tid, choice, rfl, ⟨req, rfl, -, -, ⟨hpc, -⟩ | ⟨deadline, hpc⟩, -⟩ |
      ⟨params, rfl, -, -, -, -, hpc, -⟩⟩ := hbinds
    all_goals simpa [accountable, hpc] using hok

end Keys

structure Balanced (s : System) : Prop where
  holds : ∀ f p, s.ls.getPool f = some p → p.AllHold
  covers : ∀ f p i v, s.ls.getPool f = some p → p.slack i = some v → units (free f i) s ≤ v

structure Lossless (s : System) (e : Event) (l : Label) : Prop where
  fresh : ∀ a, l.granted = some a → s.ls.allocations.lookup a.allocationID = none
  drop : ∀ tid choice id reply, e = .run tid choice →
    s.threads.lookup tid = some (.dropAlloc id reply) → s.ls.allocations.lookup id = none
  poll : ∀ tid choice req deadline p, e = .run tid choice →
    s.threads.lookup tid = some (.poll req deadline) → s.ls.getPool req.funcKey = some p →
    req.sessionID ≠ "" → p.sessions.lookup req.bindingKey = none

/-- From `p` in `s` to `p'` in `s'` the surplus on the instance grows, and stays when `L` holds. -/
def Carried (L : Prop) (s s' : System) (f i : String) (p p' : LiteFunctionPool) : Prop :=
  ∀ v', p'.slack i = some v' → ∃ v, p.slack i = some v ∧
    v - units (free f i) s ≤ v' - units (free f i) s' ∧
    (L → v - units (free f i) s = v' - units (free f i) s')

section Carry

variable {s s' : System} {f : String} {p p' : LiteFunctionPool}

theorem carried_of_map (d : ℤ) (hslack : p'.slack i = (p.slack i).map fun v => v + d)
    (hle : units (free f i) s' ≤ units (free f i) s + d)
    (heq : L → units (free f i) s' = units (free f i) s + d) : Carried L s s' f i p p' := by
  intro v' hv'
  rw [hslack] at hv'
  obtain ⟨v, hv, rfl⟩ := map_eq_some_iff.mp hv'
  refine ⟨v, hv, by omega, ?_⟩
  intro hL
  have := heq hL
  omega

theorem carried_of_eq (hslack : p'.slack i = p.slack i) (hle : units (free f i) s' ≤ units (free f i) s)
    (heq : L → units (free f i) s' = units (free f i) s) : Carried L s s' f i p p' := by
  refine carried_of_map 0 ?_ (by omega) ?_
  · rw [hslack]
    simp
  · intro hL
    rw [heq hL, add_zero]

theorem carried_still (hslack : p'.slack i = p.slack i)
    (hunits : units (free f i) s' = units (free f i) s) : Carried L s s' f i p p' :=
  carried_of_eq hslack hunits.le fun _ => hunits

theorem weigh_free (f i : String) (a : Allocation) : weigh (free f i) (some a) =
    if a.sessionID = "" ∧ a.funcKey = f ∧ a.instanceID = i then 1 else 0 := by
  simp [weigh, free, and_assoc]

theorem weigh_free_session (hsession : a.sessionID ≠ "") : weigh (free f i) (some a) = 0 := by
  rw [weigh_free, if_neg fun h => hsession h.1]

theorem weigh_free_other (hf : f ≠ a.funcKey) : weigh (free f i) (some a) = 0 := by
  rw [weigh_free, if_neg fun h => hf h.2.1.symm]

theorem slack_addUnit (hsession : a.sessionID = "")
    (hslot : p.instances.lookup a.instanceID = some slot) (d : ℤ) (i : String) :
    (p.addInUse a.instanceID d).slack i =
      (p.slack i).map fun v => v + d * weigh (free a.funcKey i) (some a) := by
  rw [slack_addInUse hslot, weigh_free]
  simp [hsession, eq_comm]

/-- What the binding that an assignment replaces holds on the instance. -/
def replaced (p : LiteFunctionPool) (req : LiteRequest) (i : String) : ℤ :=
  if req.sessionID = "" then 0
  else (p.sessions.lookup req.bindingKey).elim 0 fun b => if b.instanceID = i then b.held else 0

theorem replaced_nonneg (hheld : ∀ k b, p.sessions.lookup k = some b → 0 ≤ b.held) :
    0 ≤ replaced p req i := by
  unfold replaced
  split
  · exact le_rfl
  cases hb : p.sessions.lookup req.bindingKey with
  | none => exact le_rfl
  | some b =>
    rw [elim_some]
    split
    · exact hheld _ b hb
    · exact le_rfl

theorem slack_assignedFresh (d : Dispatcher) (hslot : p.instances.lookup slot.instanceID = some slot)
    (ha : a = assignedAlloc cfg ls { p with dispatcher := d } req slot) (i : String) :
    (assignedPool { p with dispatcher := d } req slot false).slack i = (p.slack i).map fun v =>
      v + (weigh (free a.funcKey i) (some a) + replaced p req i) := by
  let p₁ : LiteFunctionPool := { p with dispatcher := d, seqCounter := nextSeq p }
  have hp₁ : p₁.slack i = p.slack i := slack_congr rfl rfl i
  have hslot₁ : p₁.instances.lookup slot.instanceID = some slot := hslot
  have hid : a.sessionID = req.sessionID ∧ a.instanceID = slot.instanceID := by rw [ha]; exact ⟨rfl, rfl⟩
  unfold replaced
  by_cases hsession : req.sessionID = ""
  · rw [assignedPool_unit hsession, if_pos hsession, ← hid.2]
    rw [slack_addUnit (p := p₁) (hid.1.trans hsession) (hid.2 ▸ hslot₁), hp₁]
    simp
  rw [assignedPool_session hsession, if_neg hsession, weigh_free_session (hid.1.trans_ne hsession)]
  cases hb : p.sessions.lookup req.bindingKey with
  | none =>
    rw [slack_bindFresh (p := p₁) hb hslot₁, hp₁]
    simp
  | some =>
    rw [slack_bindFresh_of_lookup (p := p₁) hb hslot₁, hp₁]
    simp

theorem slack_buildReacquiredAlloc (hwf : p.WellFormed)
    (hslot : p.instances.lookup params.instanceID = some slot)
    (ha : a = reacquiredAllocation cfg ls params) (i : String) :
    (buildReacquiredAlloc p params).slack i =
      (p.slack i).map fun v => v + (weigh (free a.funcKey i) (some a) + 0) := by
  have hid : a.sessionID = params.sessionID ∧ a.instanceID = params.instanceID := by
    rw [ha]
    exact ⟨rfl, rfl⟩
  unfold buildReacquiredAlloc
  by_cases hsession : params.sessionID = ""
  · rw [if_neg (not_not.mpr hsession), ← hid.2, slack_addUnit (hid.1.trans hsession) (hid.2 ▸ hslot)]
    simp
  rw [if_pos hsession, weigh_free_session (hid.1.trans_ne hsession)]
  split
  · rename_i b hb
    obtain ⟨ins, hins⟩ := hwf.bound _ b hb
    rw [slack_stickyTake hb hins]
    simp
  · rename_i hnone
    rw [slack_bindFresh hnone hslot]
    simp

theorem Returned.slack (hreturned : Returned p a p' unbind)
    (hpos : ∀ ins, a.sessionID = "" → p.instances.lookup a.instanceID = some ins → 0 < ins.inUse)
    (i : String) :
    p'.slack i = (p.slack i).map fun v => v + -1 * weigh (free a.funcKey i) (some a) := by
  cases hreturned with
  | session hsession =>
    rw [slack_unbindSessionOnRelease, weigh_free_session hsession]
    simp
  | unit hsession hslot => exact slack_addUnit hsession hslot (-1) i
  | gone hslot =>
    by_cases hi : i = a.instanceID
    · rw [LiteFunctionPool.slack, hi, hslot]
      rfl
    · rw [weigh_free, if_neg fun h => hi h.2.2.symm]
      simp
  | empty hsession hslot hnone =>
    have := hpos _ hsession hslot
    omega

end Carry

section Step

variable {s : System} {f : String}
  {p p' : LiteFunctionPool}

theorem Balanced.held_nonneg (hbal : Balanced s) (hp : s.ls.getPool f = some p) :
    ∀ k b, p.sessions.lookup k = some b → 0 ≤ b.held := by
  intro k b hb
  have hheld := (hbal.holds f p hp k b hb).held
  omega

theorem Balanced.session_ne {req : LiteRequest} (hbal : Balanced s) (hreq : req.Admitted s.ls)
    (hp : s.ls.getPool req.funcKey = some p) (hb : p.sessions.lookup req.bindingKey = some b) :
    req.sessionID ≠ "" := by
  intro hnone
  apply (hbal.holds _ p hp _ b hb).key req.sessionCtxID
  rw [hreq.key hp, hnone]

theorem Balanced.held_le_inUse (hbal : Balanced s) (hwf : s.WellFormed) (hp : s.ls.getPool f = some p)
    (hb : p.sessions.lookup k = some b) :
    ∃ ins, p.instances.lookup b.instanceID = some ins ∧ b.held ≤ ins.inUse := by
  obtain ⟨ins, hins⟩ := (hwf.pool f p hp).bound k b hb
  refine ⟨ins, hins, ?_⟩
  have hcovers := hbal.covers f p b.instanceID _ hp (slack_of_lookup hins)
  have hnonneg : 0 ≤ units (free f b.instanceID) s := units_nonneg
  have hheld := held_le_heldOn (hbal.held_nonneg hp) hb
  omega

theorem Balanced.token_inUse_pos (hbal : Balanced s) (hpc : s.threads.lookup tid = some pc)
    (htoken : pc.token = some a) (hsession : a.sessionID = "") (hp : s.ls.getPool a.funcKey = some p)
    (hins : p.instances.lookup a.instanceID = some ins) : 0 < ins.inUse := by
  have hcovers := hbal.covers _ p _ _ hp (slack_of_lookup hins)
  have hheld := heldOn_nonneg (hbal.held_nonneg hp) a.instanceID
  have hlive : 0 ≤ live (free a.funcKey a.instanceID) s.ls := live_nonneg
  have hpos : 0 < tokens (free a.funcKey a.instanceID) s :=
    tokens_pos hpc htoken (by simp [free, hsession])
  unfold units at hcovers
  omega

section

variable {s' : System} (hp : s.ls.getPool f = some p) (hp' : s'.ls.getPool f = some p')
include hp hp'

theorem eq_of_pools (hpools : s'.ls.pools = s.ls.pools) : p' = p := by
  rw [getPool, hpools, ← getPool, hp] at hp'
  exact (some.inj hp').symm

theorem eq_of_setPool (hpools : s'.ls.pools = s.ls.pools.insert g q) :
    (f = g ∧ p' = q) ∨ (f ≠ g ∧ p' = p) := by
  rw [getPool, hpools, lookup_insert_eq_ite] at hp'
  split at hp'
  · rename_i hf
    exact .inl ⟨hf, (some.inj hp').symm⟩
  rename_i hf
  rw [← getPool, hp] at hp'
  exact .inr ⟨hf, (some.inj hp').symm⟩

theorem of_setPool {C : LiteFunctionPool → LiteFunctionPool → Prop} (hq : s.ls.getPool g = some q)
    (hpools : s'.ls.pools = s.ls.pools.insert g q') (hsame : f = g → C q q') (hother : f ≠ g → C p p) :
    C p p' := by
  rcases eq_of_setPool hp hp' hpools with ⟨hf, rfl⟩ | ⟨hf, rfl⟩
  · rw [← hf, hp] at hq
    cases hq
    exact hsame hf
  · exact hother hf

theorem carried_setPool (hq : s.ls.getPool g = some q)
    (hpools : s'.ls.pools = s.ls.pools.insert g q') (hslack : q'.slack i = q.slack i)
    (hunits : units (free f i) s' = units (free f i) s) : Carried L s s' f i p p' :=
  of_setPool hp hp' hq hpools (fun _ => carried_still hslack hunits) fun _ => carried_still rfl hunits

end

/-- An allocation is recorded, and `lost` is what its pool loses sight of. -/
theorem carried_insert {a : Allocation} {o : Outcome} {allocID : String} (lost : ℤ)
    (hp : s.ls.getPool f = some p) (hp' : (s.finish tid o).1.ls.getPool f = some p')
    (hq : s.ls.getPool a.funcKey = some q)
    (hpools : o.ls.pools = s.ls.pools.insert a.funcKey q')
    (hallocs : o.ls.allocations = s.ls.allocations.insert allocID a)
    (htoken : (s.threads.lookup tid).bind Pc.token = none) (hnext : o.next.bind Pc.token = none)
    (hfresh : L → s.ls.allocations.lookup allocID = none)
    (hslack : q'.slack i = (q.slack i).map fun v =>
      v + (weigh (free a.funcKey i) (some a) + lost))
    (hlost : 0 ≤ lost) (hnone : L → lost = 0) : Carried L s (s.finish tid o).1 f i p p' := by
  have hunits := units_insert (P := free f i) htoken hallocs hnext
  have hold := weigh_nonneg (P := free f i) (s.ls.allocations.lookup allocID)
  have hzero : L → weigh (free f i) (s.ls.allocations.lookup allocID) = 0 := by
    intro hL
    rw [hfresh hL, weigh_none]
  refine of_setPool hp hp' hq hpools ?_ ?_
  · rintro rfl
    refine carried_of_map _ hslack (by omega) ?_
    intro hL
    rw [hunits, hzero hL, hnone hL]
    omega
  · intro hf
    rw [weigh_free_other hf] at hunits
    refine carried_of_eq rfl (by omega) ?_
    intro hL
    rw [hunits, hzero hL]
    omega

theorem heldOn_absent (hwf : p.WellFormed) (hnone : p.instances.lookup i = none) : p.heldOn i = 0 := by
  apply total_eq_zero
  intro k b hb
  refine if_neg fun hid => ?_
  obtain ⟨slot, hslot⟩ := hwf.bound k b hb
  rw [hid, hnone] at hslot
  cases hslot

theorem units_new (hwf : s.WellFormed) (hok : accountable s (.instanceUpdate f ins) = true)
    (hp : s.ls.getPool f = some p) (hnone : p.instances.lookup ins.instanceID = none) :
    units (free f ins.instanceID) s = 0 := by
  have hlive : live (free f ins.instanceID) s.ls = 0 := by
    apply live_eq_zero
    intro id a ha
    obtain ⟨q, slot, hq, hslot⟩ := hwf.instance_mem id a ha
    by_contra hfree
    simp only [free, Bool.and_eq_true, decide_eq_true_eq, Bool.not_eq_false] at hfree
    rw [hfree.1.2, hp] at hq
    cases hq
    rw [hfree.2, hnone] at hslot
    cases hslot
  have htokens : tokens (free f ins.instanceID) s = 0 := by
    apply tokens_eq_zero
    intro tid pc a hpc htoken
    simp only [accountable, hp, any_some, hnone, isSome_none, Bool.false_or, List.all_eq_true] at hok
    have hentry := hok ⟨tid, pc⟩ (mem_entries_iff.mpr hpc)
    simpa [htoken] using hentry
  rw [units, hlive, htokens, add_zero]

theorem units_free_remove (hwf : s.WellFormed) (hpool : s.ls.getPool g = some pool)
    (hother : ¬(f = g ∧ i = j)) :
    units (free f i) { s with ls := s.ls.removeInstanceLocked g pool j } = units (free f i) s := by
  refine units_remove ?_
  intro _ a _ ha hgone
  simp only [free, Bool.and_eq_true, decide_eq_true_eq] at ha
  exact hother ⟨ha.1.2.symm.trans (hgone.2.trans (hwf.funcKey g pool hpool)), ha.2.symm.trans hgone.1⟩

/-- **The surplus is carried on** by every accountable step, except that an instance that is new has
none. -/
theorem Effect.carried (hwf : s.WellFormed) (hbal : Balanced s) (hok : accountable s e = true)
    (heffect : Effect cfg s e r) (hp : s.ls.getPool f = some p) (hp' : r.1.ls.getPool f = some p') :
    Carried (Lossless s e r.2) s r.1 f i p p' ∨ p'.slack i = some (units (free f i) r.1) := by
  have hsame : ∀ s' : System, s'.ls.getPool f = some p' → s'.ls.pools = s.ls.pools →
      units (free f i) s' = units (free f i) s → Carried (Lossless s e r.2) s s' f i p p' := by
    intro s' hp' hpools hunits
    rw [eq_of_pools hp hp' hpools]
    exact carried_still rfl hunits
  cases heffect with
  | move hls _ htoken =>
    left
    rw [eq_of_pools hp hp' (congrArg LiteScheduler.pools hls)]
    exact carried_still rfl (units_still (congrArg allocations hls) htoken)
  | @cursor _ _ _ _ _ _ hpool hls _ htoken =>
    left
    refine carried_setPool hp hp' hpool (congrArg LiteScheduler.pools hls) (slack_congr rfl rfl i) ?_
    exact units_still (by rw [hls]; rfl) htoken
  | @stickyGrant tid _ req pool slot b hpc hpool hbinding hslot =>
    left
    obtain ⟨hadmitted, htoken⟩ := admitted_of_sticky hwf hpc
    obtain ⟨-, -, -, -, hslack⟩ := assignedPool_sticky hbinding hslot
    refine carried_insert 0 hp hp' hpool (assignInstance_pools _ _ _ _ _ _)
      (assignInstance_allocations _ _ _ _ _ _) htoken rfl (fun hL => hL.fresh _ rfl) ?_ le_rfl
      fun _ => rfl
    rw [hslack, weigh_free_session (hbal.session_ne hadmitted hpool hbinding)]
    simp
  | @freshGrant tid choice req pool slot d hpc hpool hslot =>
    left
    refine carried_insert (replaced pool req i) hp hp' hpool (assignInstance_pools _ _ _ _ _ _)
      (assignInstance_allocations _ _ _ _ _ _) (admitted_of_requests hwf hpc).2 rfl
      (fun hL => hL.fresh _ rfl) (slack_assignedFresh d hslot rfl i)
      (replaced_nonneg (hbal.held_nonneg hpool)) ?_
    intro hL
    unfold replaced
    split
    · rfl
    rename_i hsession
    have hnone : pool.sessions.lookup req.bindingKey = none := by
      rcases hpc with ⟨-, hnone⟩ | ⟨deadline, hpc⟩
      · exact hnone
      · exact hL.poll tid choice req deadline pool rfl hpc hpool hsession
    rw [hnone]
    rfl
  | release hfree halloc => exact .inl (hsame _ hp' rfl (units_release (by rw [hfree]; rfl) halloc rfl rfl))
  | removeTask hpc => exact .inl (hsame _ hp' rfl (units_still rfl (by rw [hpc]; rfl)))
  | @returned tid _ _ alloc _ pool' _ next hpc htoken hpool hreturned hnext =>
    left
    have hunits := units_returned (P := free f i)
      (o := { ls := s.ls.setPool alloc.funcKey pool', next }) hpc htoken rfl hnext
    refine of_setPool hp hp' hpool rfl ?_ ?_
    · rintro rfl
      have hslack := hreturned.slack (fun _ h => hbal.token_inUse_pos hpc htoken h hpool) i
      refine carried_of_map _ hslack (by omega) ?_
      intro
      omega
    · intro hf
      rw [weigh_free_other hf, sub_zero] at hunits
      exact carried_still rfl hunits
  | @startTimer _ _ _ k ttl _ _ hpc hpool =>
    left
    refine carried_setPool hp hp' hpool rfl ?_ (units_still rfl (by rw [hpc]; rfl))
    unfold startSessionUnbindTimer
    split
    · rfl
    rename_i b hbinding
    split
    · rfl
    · rw [slack, slack, heldOn_insert hbinding rfl i]
      simp [SessionBinding.held]
  | @dropAlloc tid choice id reply hpc =>
    left
    have hunits : units (free f i) (s.finish tid (.goto
        { s.ls with allocations := s.ls.allocations.erase id } (.dropTask id reply))).1 =
        units (free f i) s - weigh (free f i) (s.ls.allocations.lookup id) :=
      units_drop (by rw [hpc]; rfl) rfl rfl
    have hnonneg := weigh_nonneg (P := free f i) (s.ls.allocations.lookup id)
    rw [eq_of_pools hp hp' rfl]
    refine carried_of_eq rfl (by omega) ?_
    intro hL
    rw [hunits, hL.drop tid choice id reply rfl hpc, weigh_none, sub_zero]
  | dropTask hpc => exact .inl (hsame _ hp' rfl (units_still rfl (by rw [hpc]; rfl)))
  | refresh hpc halloc =>
    left
    refine hsame _ hp' rfl (units_refresh (fun _ => rfl) ?_ halloc rfl rfl)
    rcases hpc with ⟨slot, hpc⟩ | ⟨params, -, hpc⟩
    all_goals
      rw [hpc]
      rfl
  | updateTask hpc =>
    left
    exact hsame _ hp' (setWheel_pools _ _) (units_still (setWheel_allocations _ _) (by rw [hpc]; rfl))
  | reacquireGrant hpc hpool hslot _ halloc =>
    left
    exact carried_insert 0 hp hp' hpool rfl rfl (by rw [hpc]; rfl) rfl (fun _ => halloc)
      (slack_buildReacquiredAlloc (hwf.pool _ _ hpool) hslot rfl i) le_rfl fun _ => rfl
  | reap hidle _ halloc => exact .inl (hsame _ hp' rfl (units_reap hidle halloc))
  | @fire g t pool timer hpool =>
    left
    refine carried_setPool hp hp' hpool rfl ?_ (units_congr rfl rfl)
    refine slack_fireSessionUnbind ?_ (fun k b hb => hbal.held_le_inUse hwf hpool hb) t timer i
    intro k b hb
    have hheld := (hbal.holds g pool hpool k b hb).held
    omega
  | @upsert _ ins pool hpool =>
    rcases eq_of_setPool hp hp' rfl with ⟨rfl, rfl⟩ | ⟨-, rfl⟩
    · rw [hp] at hpool
      cases hpool
      have hslack := slack_upsertInstance (p := p) ins i
      by_cases hnew : i = ins.instanceID ∧ p.instances.lookup i = none
      · right
        rw [if_pos hnew] at hslack
        obtain ⟨rfl, hnone⟩ := hnew
        rw [hslack, heldOn_absent (hwf.pool f p hp) hnone, sub_zero]
        exact congrArg some ((units_congr rfl rfl).trans (units_new hwf hok hp hnone)).symm
      · left
        rw [if_neg hnew] at hslack
        exact carried_still hslack (units_congr rfl rfl)
    · exact .inl (carried_still rfl (units_congr rfl rfl))
  | @remove _ g j pool hpool =>
    left
    refine of_setPool hp hp' hpool rfl ?_ ?_
    · intro
      by_cases hi : i = j
      · intro v' hv'
        rw [slack_removeInstance, if_pos hi] at hv'
        cases hv'
      · refine carried_still ?_ (units_free_remove hwf hpool fun h => hi h.2)
        rw [slack_removeInstance, if_neg hi]
    · intro hf
      exact carried_still rfl (units_free_remove hwf hpool fun h => hf h.1)
  | quiet hpool hquiet => exact .inl (carried_setPool hp hp' hpool rfl (hquiet.slack i) (units_congr rfl rfl))
  | _ => exact .inl (hsame _ hp' rfl (units_congr rfl rfl))

theorem Balanced.step (hbal : Balanced s) (hwf : s.WellFormed) (hok : accountable s e = true)
    (heffect : Effect cfg s e r) : Balanced r.1 where
  holds f p' hp' := by
    obtain ⟨p, hp, rfl | hchange⟩ := heffect.getPool hwf hp'
    · exact hbal.holds f _ hp
    · exact (hbal.holds f p hp).change hok hchange
  covers f p' i v' hp' hv' := by
    obtain ⟨p, hp, -⟩ := heffect.getPool hwf hp'
    rcases heffect.carried hwf hbal hok hp hp' with hcarried | hnew
    · obtain ⟨v, hv, hle, -⟩ := hcarried v' hv'
      have hcovers := hbal.covers f p i v hp hv
      omega
    · rw [hnew] at hv'
      exact (some.inj hv').le

theorem balanced_of_reach (himp : ∀ s e, ok s e → accountable s e = true)
    (hreach : (scheduler cfg).Reach ok s) : Balanced s := by
  refine hreach.invariant ?_ ?_
  · intro s hinit
    refine ⟨?_, ?_⟩
    · intro f p hp k b hb
      obtain ⟨spec, rfl⟩ := hinit.pools f p hp
      cases hb
    · intro f p i v hp hv
      obtain ⟨spec, rfl⟩ := hinit.pools f p hp
      cases hv
  · intro s e s' l hs hok hbal hstep
    have hwf := wellFormed_of_reach hs
    exact hbal.step hwf (himp s e hok) (step_effect hwf hstep)

end Step

end Yuanrong.Lite
