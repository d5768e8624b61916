import Yuanrong.LiteScheduler.Proof.Balance

/-!
# No work for an instance that is being reclaimed

The idle scan marks an instance only when nothing is accounted on it, so no session is bound to it
at that moment. Dispatch passes marked instances over. A record of the session store and a reacquire
name their instance themselves, and neither is checked against the mark.
-/

namespace Yuanrong.Lite

open LiteFunctionPool Bool

def isReclaiming (ls : LiteScheduler) (f i : String) : Bool :=
  (ls.getPool f).any fun pool => (pool.instances.lookup i).any fun ins => ins.reclaiming

/-- No record of the session store and no reacquire names an instance being reclaimed. -/
def sparesReclaiming (s : System) (e : Event) : Bool :=
  accountable s e &&
    match e with
    | .run tid choice =>
      match s.threads.lookup tid with
      | some (.dispatch req) =>
        choice.storeRec.all fun i => !isReclaiming s.ls req.funcKey i
      | some (.reacquire params) =>
        (s.ls.allocations.lookup params.allocID).isSome ||
          !isReclaiming s.ls params.funcKey params.instanceID
      | _ => true
    | _ => true

def LiteFunctionPool.Deserted (p : LiteFunctionPool) : Prop :=
  ∀ i ins, p.instances.lookup i = some ins → ins.reclaiming = true →
    ∀ k b, p.sessions.lookup k = some b → b.instanceID ≠ i

variable {cfg : Config} {s : System} {e : Event} {r : System × Label}
  {p : LiteFunctionPool} {ins : LiteInstance}

theorem isReclaiming_of_lookup (hp : s.ls.getPool f = some p)
    (hins : p.instances.lookup i = some ins) : isReclaiming s.ls f i = ins.reclaiming := by
  simp [isReclaiming, hp, hins]

theorem PoolChange.reclaiming (h : PoolChange s e f p p')
    (hins' : p'.instances.lookup i = some ins') (hmark : ins'.reclaiming = true) :
    ∃ ins, p.instances.lookup i = some ins ∧
      (ins.reclaiming = true ∨ (ins.inUse ≤ 0 ∧ p'.sessions = p.sessions)) := by
  have hinUse : InUseOnly p p' → ∃ ins, p.instances.lookup i = some ins ∧
      (ins.reclaiming = true ∨ (ins.inUse ≤ 0 ∧ p'.sessions = p.sessions)) := by
    intro h
    obtain ⟨ins, v, hins, rfl⟩ := h.lookup hins'
    exact ⟨ins, hins, .inl hmark⟩
  cases h with
  | quiet hquiet =>
    obtain ⟨g, hsame, hlookup⟩ := hquiet.instances
    rw [hlookup] at hins'
    obtain ⟨ins, hins, rfl⟩ := Option.map_eq_some_iff.mp hins'
    exact ⟨ins, hins, ((hsame i ins).reclaiming hmark).imp_right fun h => ⟨h, hquiet.sessions⟩⟩
  | sticky => exact hinUse ((kept_cancelSessionUnbind p _).inUse.trans (kept_assignedPool _ _ _ _).inUse)
  | @fresh req slot d =>
    obtain ⟨ins, v, hins, rfl⟩ :=
      (kept_assignedPool { p with dispatcher := d } req slot false).inUse.lookup hins'
    exact ⟨ins, hins, .inl hmark⟩
  | returned hreturned => exact hinUse hreturned.kept.inUse
  | startTimer => exact hinUse (kept_startSessionUnbindTimer p _ _ _).inUse
  | reacquire => exact hinUse (kept_buildReacquiredAlloc p _).inUse
  | fire => exact hinUse (kept_fireSessionUnbind p _ _).inUse
  | upsert =>
    rcases AList.lookup_of_insert hins' with ⟨rfl, rfl⟩ | hold
    · split at hmark
      · cases hmark
      · rename_i current hcurrent
        exact ⟨current, hcurrent, .inl hmark⟩
    · exact ⟨ins', hold, .inl hmark⟩
  | remove =>
    rw [(removeInstance_unbound p _).instances] at hins'
    exact ⟨ins', AList.lookup_of_erase hins', .inl hmark⟩

theorem not_reclaiming_of_binds (hok : sparesReclaiming s e = true) (hp : s.ls.getPool f = some p)
    (hins : p.instances.lookup i = some ins) (hbinds : Binds s e f p k sessionID i) :
    ins.reclaiming = false := by
  have hcond := (and_eq_true_iff.mp hok).2
  obtain ⟨tid, choice, rfl, ⟨req, -, rfl, -, -, slot, hslot, hfree | ⟨hpc, hstore⟩⟩ |
    ⟨params, -, rfl, -, -, rfl, hpc, halloc⟩⟩ := hbinds
  · rw [hins] at hslot
    cases hslot
    exact hfree
  · simpa [hpc, hstore, isReclaiming_of_lookup hp hins] using hcond
  · simpa [hpc, halloc, isReclaiming_of_lookup hp hins] using hcond

theorem LiteFunctionPool.Deserted.change (h : p.Deserted) (hwf : s.WellFormed) (hbal : Balanced s)
    (hp : s.ls.getPool f = some p) (hok : sparesReclaiming s e = true)
    (hchange : PoolChange s e f p p') : p'.Deserted := by
  intro i ins' hins' hmark k b' hb' hon
  obtain ⟨ins, hins, hwas⟩ := hchange.reclaiming hins' hmark
  -- Whether it was marked before or is not in use, no session was bound to it.
  have hnone : ∀ b, p.sessions.lookup k = some b → b.instanceID ≠ i := by
    intro b hb
    rcases hwas with hmarked | ⟨hidle, -⟩
    · exact h i ins hins hmarked k b hb
    rintro rfl
    obtain ⟨slot, hslot, hle⟩ := hbal.held_le_inUse hwf hp hb
    have hheld := (hbal.holds f p hp k b hb).held
    rw [hins] at hslot
    cases hslot
    omega
  cases hchange.binding hb' with
  | same hb hid | taken hb hid | returned hb hid => exact hnone _ hb (hid.symm.trans hon)
  | fresh _ _ hbinds =>
    rw [hon] at hbinds
    rcases hwas with hmarked | ⟨-, hsessions⟩
    · have hfree := not_reclaiming_of_binds hok hp hins hbinds
      rw [hmarked] at hfree
      cases hfree
    · rw [hsessions] at hb'
      exact hnone b' hb' hon

theorem deserted_of_reach (hreach : (scheduler cfg).Reach (fun s e => sparesReclaiming s e = true) s)
    (hp : s.ls.getPool f = some p) : p.Deserted := by
  refine hreach.invariant (P := fun s => ∀ f p, s.ls.getPool f = some p → p.Deserted) ?_ ?_ f p hp
  · intro s hinit f p hp i ins hins
    obtain ⟨spec, rfl⟩ := hinit.pools f p hp
    cases hins
  · intro s e s' l hs hok hinv hstep f p' hp'
    have hwf := wellFormed_of_reach hs
    have hbal : Balanced s :=
      balanced_of_reach (fun _ _ h => (and_eq_true_iff.mp h).1) hs
    obtain ⟨p, hp, rfl | hchange⟩ := (step_effect hwf hstep).getPool hwf hp'
    · exact hinv f _ hp
    · exact (hinv f p hp).change hwf hbal hp hok hchange

/-- **No new work.** In such runs no allocation is handed out on an instance being reclaimed. -/
theorem granted_not_reclaiming (cfg : Config) (s s' : System) (e : Event) (l : Label)
    (a : Allocation) (p : LiteFunctionPool) (ins : LiteInstance)
    (hreach : (scheduler cfg).Reach (fun s e => sparesReclaiming s e = true) s)
    (hok : sparesReclaiming s e = true) (hstep : s.step cfg e = some (s', l))
    (hgranted : l.granted = some a) (hp : s.ls.getPool a.funcKey = some p)
    (hins : p.instances.lookup a.instanceID = some ins) : ins.reclaiming = false := by
  have hwf := wellFormed_of_reach hreach
  have hcond := (and_eq_true_iff.mp hok).2
  cases step_effect hwf hstep with
  | move _ hnone | cursor _ _ hnone => exact absurd (hgranted.symm.trans hnone) (by simp)
  | @stickyGrant _ _ req pool slot b _ hpool hbinding hslot =>
    cases hgranted
    have hid : slot.instanceID = b.instanceID := (hwf.pool _ _ hpool).instanceID _ _ hslot
    change s.ls.getPool req.funcKey = some p at hp
    rw [hpool] at hp
    cases hp
    cases hmark : ins.reclaiming with
    | false => rfl
    | true => exact absurd hid.symm (deserted_of_reach hreach hpool _ ins hins hmark _ b hbinding)
  | @freshGrant _ _ req _ slot _ _ hpool hslot _ hreclaiming =>
    cases hgranted
    change s.ls.getPool req.funcKey = some p at hp
    change p.instances.lookup slot.instanceID = some ins at hins
    rw [hpool] at hp
    cases hp
    rcases hreclaiming with hfree | ⟨hdispatch, hstore⟩
    · rw [hslot] at hins
      cases hins
      exact hfree
    · simpa [hdispatch, hstore, isReclaiming_of_lookup hpool hins] using hcond
  | @reacquireGrant _ _ params _ _ _ hpc _ _ _ halloc =>
    cases hgranted
    change s.ls.getPool params.funcKey = some p at hp
    change p.instances.lookup params.instanceID = some ins at hins
    simpa [hpc, halloc, isReclaiming_of_lookup hp hins] using hcond
  | _ => cases hgranted

def reclaimed : List Event :=
  [.instanceUpdate "t/f/1" { plainInstance "i" 4 with sessionCtxID := some "c" },
    .scanIdle "t/f/1" ⟨fun _ => true, fun _ => true⟩ 0,
    .scanIdle "t/f/1" ⟨fun _ => true, fun _ => true⟩ 5000000000]

theorem granted_not_reclaiming_dispatched : ∃ s s' l a p ins,
    (scheduler plainConfig).Reach (fun s e => sparesReclaiming s e = true) s ∧
      s.step plainConfig (.run 1 { order := ["j", "i"] }) = some (s', l) ∧ l.granted = some a ∧
      s.ls.getPool a.funcKey = some p ∧ p.instances.lookup a.instanceID = some ins ∧
      ins.reclaiming = false := by
  obtain ⟨s, hreach, hok, s', l, hstep, a, hgranted, p, hp, hsome⟩ :=
    reach_of_run plainConfig sparesReclaiming [("t/f/1", plainSpec)]
    (reclaimed ++ [.instanceUpdate "t/f/1" { plainInstance "j" 4 with sessionCtxID := some "c" },
      .acquire 1 { plainRequest "s" with sessionCtxID := "c" }, .run 1 {}])
    (fun s => sparesReclaiming s (.run 1 { order := ["j", "i"] }) ∧
      ∃ s' l, s.step plainConfig (.run 1 { order := ["j", "i"] }) = some (s', l) ∧
      ∃ a, l.granted = some a ∧ ∃ p, s.ls.getPool a.funcKey = some p ∧
        (p.instances.lookup a.instanceID).isSome) (by decide)
  obtain ⟨ins, hins⟩ := Option.isSome_iff_exists.mp hsome
  exact ⟨s, s', l, a, p, ins, hreach, hstep, hgranted, hp, hins,
    granted_not_reclaiming plainConfig s s' _ l a p ins hreach hok hstep hgranted hp hins⟩

/-- A record of the session store sends a session back to an instance that is being reclaimed. -/
theorem granted_reclaiming_from_store : ∃ s s' l a p ins, (scheduler plainConfig).Reachable s ∧
    s.step plainConfig (.run 1 { order := ["i"], storeRec := some "i" }) = some (s', l) ∧
    l.granted = some a ∧ s.ls.getPool a.funcKey = some p ∧
    p.instances.lookup a.instanceID = some ins ∧ ¬ins.reclaiming = false := by
  obtain ⟨s, hreach, s', l, hstep, a, hgranted, p, hp, ins, hins, hmark⟩ :=
    reachable_of_run plainConfig [("t/f/1", plainSpec)]
    (reclaimed ++ [.acquire 1 { plainRequest "s" with sessionCtxID := "c" }, .run 1 {}])
    (fun s => ∃ s' l, s.step plainConfig (.run 1 { order := ["i"], storeRec := some "i" }) = some (s', l) ∧
      ∃ a, l.granted = some a ∧ ∃ p, s.ls.getPool a.funcKey = some p ∧
      ∃ ins, p.instances.lookup a.instanceID = some ins ∧ ¬ins.reclaiming = false) (by decide)
  exact ⟨s, s', l, a, p, ins, hreach, hstep, hgranted, hp, hins, hmark⟩

end Yuanrong.Lite
