import Yuanrong.LiteScheduler.Proof.Granted

/-!
# Allocation IDs are not issued twice

The sequence number in an ID comes from a counter of its pool that starts at zero with the process.
As long as every ID in the scheduler carries a number its pool's counter has passed, the next number
is a new one. A reacquire brings in the number its client names.
-/

namespace Yuanrong.Lite

open LiteScheduler Option

variable (owner : String → String)

/-- An instance has one function, no counter overflows, and records are rebuilt under numbers
passed. -/
def inSequence (s : System) (e : Event) : Bool :=
  (s.ls.pools.entries.all fun entry => entry.2.seqCounter + 1 < 2 ^ 63) &&
    match e with
    | .run tid _ =>
      match s.threads.lookup tid with
      | some (.reacquire params) =>
        (s.ls.allocations.lookup params.allocID).isSome ||
          ((s.ls.getPool params.funcKey).all fun pool =>
            (parseLiteAllocationID params.allocID).all fun id => id.seq ≤ pool.seqCounter)
      | _ => true
    | .instanceUpdate f ins => owner ins.instanceID = f
    | _ => true

def Past (cfg : Config) (ls : LiteScheduler) (id : String) : Prop :=
  ∀ k i (m : Int), id = genAllocationID cfg.hash k i m → -2 ^ 63 ≤ m → m < 2 ^ 63 →
    ∀ p, ls.getPool (owner i) = some p → m ≤ p.seqCounter

structure InSequence (cfg : Config) (s : System) : Prop where
  owned : ∀ f p i ins, s.ls.getPool f = some p → p.instances.lookup i = some ins → owner i = f
  past : ∀ id a, s.ls.allocations.lookup id = some a → Past owner cfg s.ls id

section Sequence

variable {owner} {cfg : Config} {s : System} {e : Event} {r : System × Label} {f : String} {a : Allocation}

theorem nextSeq_of_inSequence (hok : inSequence owner s e = true) (hp : s.ls.getPool f = some p) :
    nextSeq p = p.seqCounter + 1 ∧ p.seqCounter + 1 < 2 ^ 63 := by
  have hall := (Bool.and_eq_true_iff.mp hok).1
  rw [List.all_eq_true] at hall
  have hbound := hall ⟨f, p⟩ (AList.mem_entries_iff.mpr hp)
  have hlt : p.seqCounter + 1 < 2 ^ 63 := by simpa using hbound
  refine ⟨?_, hlt⟩
  rw [nextSeq]
  omega

theorem toInt64_nextSeq (hok : inSequence owner s e = true) (hp : s.ls.getPool f = some p) :
    toInt64 (nextSeq p) = p.seqCounter + 1 := by
  obtain ⟨hnext, hlt⟩ := nextSeq_of_inSequence hok hp
  rw [toInt64, hnext, if_pos hlt]
  rfl

section

variable (hwf : s.WellFormed) (heffect : Effect cfg s e r) (hok : inSequence owner s e = true)
include hwf heffect hok

theorem Effect.seqCounter_le (hp' : r.1.ls.getPool f = some p') :
    ∃ p, s.ls.getPool f = some p ∧ p.seqCounter ≤ p'.seqCounter := by
  obtain ⟨p, hp, rfl | hchange⟩ := heffect.getPool hwf hp'
  · exact ⟨_, hp, le_rfl⟩
  refine ⟨p, hp, ?_⟩
  obtain ⟨hnext, -⟩ := nextSeq_of_inSequence hok hp
  rcases hchange.frame with hframe | hframe
  · exact hframe.seqCounter.ge
  · have heq : p'.seqCounter = nextSeq p := hframe.seqCounter
    omega

theorem Past.step {id : String} (h : Past owner cfg s.ls id) : Past owner cfg r.1.ls id := by
  intro k i m hid hlow hhigh p' hp'
  obtain ⟨p, hp, hle⟩ := heffect.seqCounter_le hwf hok hp'
  have hm := h k i m hid hlow hhigh p hp
  omega

theorem owned_step (howned : ∀ f p i ins, s.ls.getPool f = some p →
      p.instances.lookup i = some ins → owner i = f) :
    ∀ f p i ins, r.1.ls.getPool f = some p → p.instances.lookup i = some ins → owner i = f := by
  intro f p' i ins hp' hins
  obtain ⟨p, hp, rfl | hchange⟩ := heffect.getPool hwf hp'
  · exact howned f _ i ins hp hins
  rcases hchange.instance_of hins with ⟨old, hold⟩ | ⟨update, rfl, rfl⟩
  · exact howned f p i old hp hold
  · simpa [inSequence] using (Bool.and_eq_true_iff.mp hok).2

theorem Effect.past_granted (hinv : InSequence owner cfg s) (hgranted : r.2.granted = some a) :
    Past owner cfg r.1.ls a.allocationID := by
  intro k i m hid hlow hhigh q hq
  rcases heffect.granted hwf hgranted with
    ⟨pool, pool', slot, hpool, hslot, hissued, -, hpool', hseq⟩ |
      ⟨tid, choice, params, rfl, hpc, hnone, rfl, pool, slot, hpool, hslot⟩
  · obtain ⟨-, hi, hm⟩ := genAllocationID_injective cfg.hash (hissued.symm.trans hid)
    rw [← hi, hinv.owned _ _ _ _ hpool hslot, hpool'] at hq
    cases hq
    obtain ⟨hnext, -⟩ := nextSeq_of_inSequence hok hpool
    rw [← hm, toInt64_nextSeq hok hpool, hseq, hnext]
    exact le_rfl
  · have hadmitted : params.Admitted s.ls := hwf.thread tid _ hpc
    obtain ⟨parsed, hparsed, hins⟩ := hadmitted.parsed
    change params.allocID = _ at hid
    have heq := parse_issued cfg.hash (hid ▸ hparsed) hlow hhigh
    have hcond := (Bool.and_eq_true_iff.mp hok).2
    simp only [hpc, hnone, hpool, hparsed, isSome_none, Bool.false_or, all_some, decide_eq_true_eq] at hcond
    obtain ⟨p, hp, hle⟩ := heffect.seqCounter_le hwf hok hq
    rw [heq] at hcond
    have hi : i = params.instanceID := by rw [← hins, heq]
    rw [hi, hinv.owned _ _ _ _ hpool hslot, hpool] at hp
    cases hp
    change m ≤ pool.seqCounter at hcond
    omega

theorem Effect.granted_fresh (hinv : InSequence owner cfg s) (hgranted : r.2.granted = some a) :
    s.ls.allocations.lookup a.allocationID = none := by
  rcases heffect.granted hwf hgranted with
    ⟨pool, pool', slot, hpool, hslot, hissued, -⟩ | ⟨tid, choice, params, -, -, hnone, rfl, -⟩
  · cases hlive : s.ls.allocations.lookup a.allocationID with
    | none => rfl
    | some old =>
      -- a new number is not the number of any ID that is past
      have hseq := toInt64_nextSeq hok hpool
      obtain ⟨-, hlt⟩ := nextSeq_of_inSequence hok hpool
      have hle := hinv.past _ old hlive _ a.instanceID _ hissued (by omega) (by omega) pool
        (by rw [hinv.owned _ _ _ _ hpool hslot]; exact hpool)
      omega
  · exact hnone

theorem InSequence.step (hinv : InSequence owner cfg s) : InSequence owner cfg r.1 where
  owned := owned_step hwf heffect hok hinv.owned
  past id a ha := by
    rcases heffect.alloc_mem ha with ⟨old, hold, -⟩ | ⟨hgranted, rfl⟩
    · exact (hinv.past id old hold).step hwf heffect hok
    · exact heffect.past_granted hwf hok hinv hgranted

end

theorem inSequence_of_reach (himp : ∀ s e, ok s e → inSequence owner s e = true)
    (hreach : (scheduler cfg).Reach ok s) : InSequence owner cfg s := by
  refine hreach.invariant ?_ ?_
  · intro s hinit
    refine ⟨?_, ?_⟩
    · intro f p i ins hp hins
      obtain ⟨spec, rfl⟩ := hinit.pools f p hp
      cases hins
    · intro id a ha
      rw [hinit.allocations] at ha
      cases ha
  · intro s e s' l hs hok hinv hstep
    have hwf := wellFormed_of_reach hs
    exact hinv.step hwf (step_effect hwf hstep) (himp s e hok)

end Sequence

/-- **Fresh IDs.** In such runs no record is handed out under the ID of another live one. -/
theorem granted_id_fresh (cfg : Config) (s s' : System) (e : Event) (l : Label) (a : Allocation)
    (hreach : (scheduler cfg).Reach (fun s e => inSequence owner s e = true) s)
    (hok : inSequence owner s e = true) (hstep : s.step cfg e = some (s', l))
    (hgranted : l.granted = some a) : s.ls.allocations.lookup a.allocationID = none := by
  have hwf := wellFormed_of_reach hreach
  exact (step_effect hwf hstep).granted_fresh hwf hok (inSequence_of_reach (fun _ _ h => h) hreach) hgranted

/-- One allocation is live and one was released and rebuilt when a third is granted. -/
theorem granted_id_fresh_rebuilt : ∃ s s' l a,
    (scheduler plainConfig).Reach (fun s e => inSequence (fun _ => "t/f/1") s e = true) s ∧
      s.step plainConfig (.run 5 {}) = some (s', l) ∧ l.granted = some a ∧
      s.ls.allocations.keys = ["lite:s:i:thread:1", "lite:s:i:thread:2"] ∧
      s.ls.allocations.lookup a.allocationID = none := by
  obtain ⟨s, hreach, hok, hkeys, s', l, hstep, hsome⟩ :=
    reach_of_run plainConfig (inSequence fun _ => "t/f/1") [("t/f/1", plainSpec)]
    [.instanceUpdate "t/f/1" (plainInstance "i" 8), .acquire 1 (plainRequest "s"), .run 1 {},
      .run 1 { order := ["i"] }, .acquire 2 (plainRequest "s"), .run 2 {},
      .release 3 "lite:s:i:thread:1", .run 3 {}, .run 3 {},
      .retain 4 "lite:s:i:thread:1" (some (plainReacquireData "s" 1)) none, .run 4 {}, .run 4 {},
      .acquire 5 (plainRequest "s")]
    (fun s => inSequence (fun _ => "t/f/1") s (.run 5 {}) ∧
      s.ls.allocations.keys = ["lite:s:i:thread:1", "lite:s:i:thread:2"] ∧
      ∃ s' l, s.step plainConfig (.run 5 {}) = some (s', l) ∧ l.granted.isSome) (by decide +kernel)
  obtain ⟨a, hgranted⟩ := isSome_iff_exists.mp hsome
  exact ⟨s, s', l, a, hreach, hstep, hgranted, hkeys,
    granted_id_fresh (fun _ => "t/f/1") plainConfig s s' _ l a hreach hok hstep hgranted⟩

/-- After a restart an allocation is rebuilt, and the next acquire is given its number. -/
theorem granted_id_live_after_restart : ∃ s s' l a, (scheduler plainConfig).Reachable s ∧
    s.step plainConfig (.run 2 {}) = some (s', l) ∧ l.granted = some a ∧
    ¬s.ls.allocations.lookup a.allocationID = none := by
  obtain ⟨s, hreach, s', l, hstep, a, hgranted, hlive⟩ := reachable_of_run plainConfig [("t/f/1", plainSpec)]
    [.instanceUpdate "t/f/1" (plainInstance "i" 4),
      .retain 1 "lite:s:i:thread:1" (some (plainReacquireData "s" 1)) none, .run 1 {}, .run 1 {},
      .acquire 2 (plainRequest "s")]
    (fun s => ∃ s' l, s.step plainConfig (.run 2 {}) = some (s', l) ∧ ∃ a, l.granted = some a ∧
      (s.ls.allocations.lookup a.allocationID).isSome) (by decide)
  exact ⟨s, s', l, a, hreach, hstep, hgranted, isSome_iff_ne_none.mp hlive⟩

end Yuanrong.Lite
