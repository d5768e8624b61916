import Yuanrong.ConcurrencyScheduler.Proof.Ledger

/-!
# The ledger under acquires

An acquire may lose threads of the instance and bind others to a session; the ledger's holders stay.
-/

namespace Yuanrong.Concurrency

open AList BasicConcurrencyScheduler Option Bool Nat

section Prepares

variable {cfg : Config} {i : String} {e : Nat} {bcs : BasicConcurrencyScheduler}
  {out : FinMap Nat Holder} {d : Demand}

section

variable (hledger : Ledger cfg i e bcs out)
include hledger

section

variable (hwf : WellFormed cfg bcs)
include hwf

theorem Ledger.congr (helems : bcs'.elems = bcs.elems) (hrecords : bcs'.records = bcs.records)
    (hmap : bcs'.sessionMap = bcs.sessionMap) (hnext : bcs.nextRef ≤ bcs'.nextRef) :
    Ledger cfg i e bcs' out := by
  refine hledger.next_same hwf (.of_same helems (keeps_records_same hrecords) hnext)
    (no_new_elems hwf fun e' el' hel' => ⟨el', helems ▸ hel'⟩) ?_ ?_
  · intro el hel
    exact ⟨el, helems ▸ hel, rfl, by rw [unused_congr hrecords]⟩
  intro ref r hlive
  unfold Live at hlive
  rw [hrecords, hmap] at hlive
  exact hledger.records ref r hlive

theorem Ledger.setElem (hel : bcs.elems.lookup ref = some el)
    (hid : el'.ins.instanceID = el.ins.instanceID)
    (hcontext : contextOf cfg el'.ins = contextOf cfg el.ins)
    (hsame : ref = e → el'.ins.concurrentNum = el.ins.concurrentNum ∧
      el'.threadMap.len + el.overIssued ≤ el.threadMap.len + el'.overIssued) :
    Ledger cfg i e (bcs.setElem ref el') out := by
  refine hledger.next_same hwf (.setElem hel hid hcontext (fun _ => rfl) (keeps_records_same rfl) le_rfl)
    (no_new_elems hwf (old_elems_insert hel fun _ => rfl)) ?_ fun ref r hlive => hledger.records ref r hlive
  intro el₀ hel₀
  change ∃ el₁, (bcs.elems.insert ref el').lookup e = some el₁ ∧ _
  rw [lookup_insert_eq_ite]
  split
  case isTrue heq =>
    subst heq
    rw [hel] at hel₀
    cases hel₀
    obtain ⟨hnum, hle⟩ := hsame rfl
    refine ⟨el', rfl, hnum, ?_⟩
    rw [show (bcs.setElem e el').unused e = bcs.unused e from rfl]
    omega
  case isFalse => exact ⟨el₀, hel₀, rfl, le_rfl⟩

theorem Ledger.refile (name : QueueName) (ref : Nat) (el : InstanceElement) :
    Ledger cfg i e (bcs.refile name ref el) out :=
  hledger.congr hwf (refile_elems _ _ _ _) (refile_records _ _ _ _) (refile_sessionMap _ _ _ _)
    (refile_nextRef _ _ _ _).ge

theorem Ledger.setRecord (hr : bcs.records.lookup ref = some r) (helems : bcs'.elems = bcs.elems)
    (hrecords : bcs'.records = bcs.records.insert ref r') (hmap : bcs'.sessionMap = bcs.sessionMap)
    (hnext : bcs.nextRef ≤ bcs'.nextRef) (hid : r'.sessionID = r.sessionID)
    (hkey : getRecordCacheKey cfg r' = getRecordCacheKey cfg r) (hins : r'.insElem = r.insElem)
    (hunused : r.insElem = e → r'.availThdMap.len ≤ r.availThdMap.len)
    (hheld : r.insElem = e → RecordHeld cfg out ref r → RecordHeld cfg out ref r') :
    Ledger cfg i e bcs' out := by
  refine hledger.next_same hwf (.of_same helems (keeps_records_insert hr hrecords hid hins) hnext)
    (no_new_elems hwf fun e' el' hel' => ⟨el', helems ▸ hel'⟩) ?_ ?_
  · intro el hel
    refine ⟨el, helems ▸ hel, rfl, ?_⟩
    have hsum := unused_insert (e := e) hr hrecords
    unfold SessionRecord.unusedOf at hsum
    split at hsum
    case isTrue heq => omega
    case isFalse => omega
  · intro ref₀ r₀ hlive hins₀
    unfold Live at hlive
    rw [hrecords, hmap, lookup_insert_eq_ite] at hlive
    split at hlive
    case isTrue heq =>
      subst heq
      obtain ⟨hr₀, hmap₀⟩ := hlive
      cases hr₀
      rw [hkey] at hmap₀
      rw [hins] at hins₀
      exact hheld hins₀ (hledger.records ref₀ r ⟨hr, hmap₀⟩ hins₀)
    case isFalse => exact hledger.records ref₀ r₀ hlive hins₀

theorem Ledger.delSession (cacheKey : String) : Ledger cfg i e (bcs.delSession cacheKey) out := by
  refine hledger.next_same hwf (.of_same rfl (keeps_records_same rfl) le_rfl)
    (no_new_elems hwf fun e' el' hel' => ⟨el', hel'⟩) (fun el hel => ⟨el, hel, rfl, le_rfl⟩) ?_
  intro ref r hlive
  exact hledger.records ref r ⟨hlive.1, lookup_of_erase hlive.2⟩

end

theorem Ledger.prepares (hwf : WellFormed cfg bcs) (hprep : Prepares cfg d bcs bcs') :
    Ledger cfg i e bcs' out := by
  cases hprep with
  | refile name => exact hledger.refile hwf name _ _
  | lose hel hwithin =>
    refine hledger.setElem hwf hel (congrArg _ hwithin.ins) (congrArg _ hwithin.ins) fun _ => ?_
    have hlen := hwithin.len
    have hover := hwithin.overIssued
    exact ⟨congrArg _ hwithin.ins, by omega⟩
  | drop cacheKey => exact hledger.delSession hwf cacheKey
  | @bind name ref el el' threads concurrency _ hel hwithin =>
    have hfree : bcs.records.lookup bcs.nextRef = none :=
      eq_none_iff_forall_ne_some.mpr fun r hr => lt_irrefl _ (hwf.recordRef _ _ hr)
    have hrecords := bindTo_records cfg bcs name el' (newRecord cfg d.sessionID concurrency ref el threads)
    have helems : ∀ e, (bcs.bindTo cfg name el'
        (newRecord cfg d.sessionID concurrency ref el threads)).elems.lookup e =
        (bcs.elems.insert ref el').lookup e :=
      fun e => congrArg (lookup e) (bindTo_elems cfg bcs name el' _)
    refine hledger.next_same hwf (.setElem hel (congrArg _ hwithin.ins)
      (congrArg _ hwithin.ins) helems ?_ (le_succ _))
      (no_new_elems hwf (old_elems_insert hel helems)) ?_ ?_
    · intro ref₀ r₀ hr₀ hlt
      rw [hrecords, lookup_insert_ne hlt.ne] at hr₀
      exact ⟨r₀, hr₀, rfl, rfl⟩
    · intro el₀ hel₀
      have hsum := unused_insert_new (e := e) hfree hrecords
      change _ = _ + (if ref = e then (threads.len : ℤ) else 0) at hsum
      rw [helems, lookup_insert_eq_ite]
      by_cases heq : e = ref
      · subst heq
        rw [hel] at hel₀
        cases hel₀
        rw [if_pos rfl]
        refine ⟨el', rfl, congrArg _ hwithin.ins, ?_⟩
        omega
      · rw [if_neg heq]
        exact ⟨el₀, hel₀, rfl, by omega⟩
    · intro ref₀ r₀ hlive hins₀
      obtain ⟨hr₀, hmap₀⟩ := hlive
      rw [bindTo_sessionMap] at hmap₀
      rw [hrecords, lookup_insert_eq_ite] at hr₀
      split at hr₀
      case isTrue heq =>
        cases hr₀
        rw [heq]
        refine ⟨?_, nofun, ?_, ?_⟩
        · intro x hx hunused
          change (threads.lookup x).isSome = true at hx
          change threads.lookup x = none at hunused
          rw [hunused] at hx
          cases hx
        · intro k h hk _ href
          exact absurd ((hledger.holders k h hk).session _ href).1 (lt_irrefl _)
        · intro k k' h h' hk _ _ _ href
          exact absurd ((hledger.holders k h hk).session _ href).1 (lt_irrefl _)
      case isFalse hne =>
        rcases lookup_of_insert hmap₀ with ⟨-, heq⟩ | hold
        · exact absurd heq.symm hne
        · exact hledger.records ref₀ r₀ ⟨hr₀, hold⟩ hins₀
  | signal _ hr =>
    exact hledger.setRecord hwf hr rfl rfl rfl le_rfl rfl rfl rfl (fun _ => le_rfl) fun _ h => { h with }

theorem Ledger.reflTransGen_prepares (hwf : WellFormed cfg bcs)
    (hprep : Prepared cfg d bcs bcs') : Ledger cfg i e bcs' out := by
  induction hprep with
  | refl => exact hledger
  | tail hrest hlast ih => exact ih.prepares (hwf.reflTransGen_prepares hrest) hlast

end

end Prepares

section Obtains

variable {cfg : Config} {i : String} {e : Nat} {bcs : BasicConcurrencyScheduler}
  {out : FinMap Nat Holder} {d : Demand}

variable {k : Nat} {r : SessionRecord} {h : Holder}

theorem RecordHeld.insert (hheld : RecordHeld cfg out ref r) (hk : out.lookup k = none)
    (hreal : h.alloc.sessionCtx = some ref → h.role ≠ .madeUp) : RecordHeld cfg (out.insert k h) ref r := by
  refine hheld.of_lookup ?_ ?_
  · intro k' h' x hk' hof
    rw [lookup_insert_ne, hk']
    rintro rfl
    rw [hk] at hk'
    cases hk'
  · exact forall_lookup_insert (fun hrole href => absurd hrole (hreal href)) fun k' h' hk' hrole href => hk'

theorem Ledger.grant (hledger : Ledger cfg i e bcs out) (hwf : WellFormed cfg bcs) (hk : out.lookup k = none)
    (hkeeps : Keeps cfg bcs bcs')
    (hold : ∀ e' el', bcs'.elems.lookup e' = some el' → ∃ el, bcs.elems.lookup e' = some el)
    (hbalance : ∀ el, bcs.elems.lookup e = some el → ∃ el', bcs'.elems.lookup e = some el' ∧
      el'.ins.concurrentNum = el.ins.concurrentNum ∧
      el'.threadMap.len + bcs'.unused e + (if h.role = .madeUp then 0 else 1) + el.overIssued ≤
        el.threadMap.len + bcs.unused e + el'.overIssued) (hok : HolderOk cfg i e bcs' h)
    (hrecords : ∀ ref r, Live cfg bcs' ref r → r.insElem = e → RecordHeld cfg (out.insert k h) ref r) :
    Ledger cfg i e bcs' (out.insert k h) := by
  refine hledger.next hwf hkeeps (no_new_elems hwf hold) ?_ ?_ hrecords
  · intro el hel
    obtain ⟨el', hel', hnum, hle⟩ := hbalance el hel
    refine ⟨el', hel', hnum, ?_⟩
    by_cases hrole : h.role = .madeUp
    · rw [if_pos hrole] at hle
      rw [held, count_insert, hk, elim_none, if_neg (not_not_intro hrole), sub_zero, add_zero, ← held]
      omega
    · rw [if_neg hrole] at hle
      rw [held, count_insert, hk, elim_none, if_pos hrole, sub_zero, ← held]
      omega
  · exact forall_lookup_insert hok
      fun k' h' hk' => (hledger.holders k' h' hk').keeps hkeeps (hledger.elem_lt hwf)

def Obtained (i : String) (k : Nat) (alloc : InstanceAllocation) (out out' : FinMap Nat Holder) :
    Prop :=
  (∀ k', k' ≠ k → out'.lookup k' = out.lookup k') ∧
    (alloc.ins.instanceID = i → ∃ h, out'.lookup k = some h ∧ h.alloc = alloc ∧
      (alloc.agentOverAcq = false → h.role ≠ .madeUp))

theorem obtained_insert (hreal : h.alloc.agentOverAcq = false → h.role ≠ .madeUp) :
    Obtained i k h.alloc out (out.insert k h) :=
  ⟨fun _ hne => lookup_insert_ne hne, fun _ => ⟨h, lookup_insert _, rfl, hreal⟩⟩

theorem obtained_other (hne : alloc.ins.instanceID ≠ i) : Obtained i k alloc out out :=
  ⟨fun _ _ => rfl, fun hid => absurd hid hne⟩

section

variable (hledger : Ledger cfg i e bcs out) (hwf : WellFormed cfg bcs)
include hledger hwf

theorem Ledger.takes (hk : out.lookup k = none) (hlive : Live cfg bcs ref r) (hid : r.sessionID = sessionID)
    (hsession : sessionID ≠ "") (hel : bcs.elems.lookup e = some el) (hins : r.insElem = e)
    (htakes : r.signalled.Takes designateThreadID threadID r') :
    Ledger cfg i e (bcs.setRecord ref r')
      (out.insert k
        { alloc := { ins := el.ins, allocationID := threadID, sessionID, sessionCtx := some ref }
          role := .used }) := by
  obtain ⟨el₀, hel₀, helid, -⟩ := hledger.elem
  rw [hel] at hel₀
  cases hel₀
  obtain ⟨y, hy, hcases⟩ := htakes
  change r.availThdMap.lookup y = some () at hy
  have hshape : r'.sessionID = r.sessionID ∧ r'.sessionCtxID = r.sessionCtxID ∧
      r'.insElem = r.insElem ∧ r'.availThdMap = r.availThdMap.erase y ∧
      r'.overAcqThdMap = r.overAcqThdMap := by
    rcases hcases with ⟨-, rfl⟩ | ⟨-, -, -, rfl⟩
    all_goals exact ⟨rfl, rfl, rfl, rfl, rfl⟩
  obtain ⟨hid', hctx', hins', havail', hover'⟩ := hshape
  have hheld := hledger.records ref r hlive hins
  refine hledger.grant hwf hk (.of_same rfl (keeps_records_insert hlive.1 rfl hid' hins') le_rfl)
    (fun e' el' hel' => ⟨el', hel'⟩) ?_ ?_ ?_
  · intro el hel
    refine ⟨el, hel, rfl, ?_⟩
    have hsum : (bcs.setRecord ref r').unused e + r.unusedOf e = bcs.unused e + r'.unusedOf e :=
      unused_insert hlive.1 rfl
    unfold SessionRecord.unusedOf at hsum
    rw [hins', if_pos hins, if_pos hins, havail'] at hsum
    have hlen := len_erase_of_some hy
    omega
  · refine ⟨helid, ?_, ?_, fun h => absurd h hsession, fun _ => Role.noConfusion⟩
    · intro el' hel'
      change bcs.elems.lookup e = some el' at hel'
      rw [hel] at hel'
      cases hel'
      rfl
    · intro ref' href'
      cases href'
      refine ⟨hwf.recordRef ref r hlive.1, ?_⟩
      intro r₀ hr₀
      change (bcs.records.insert ref r').lookup ref = some r₀ at hr₀
      rw [lookup_insert] at hr₀
      cases hr₀
      exact ⟨(hid'.trans hid).symm, hins'.trans hins⟩
  · intro ref₀ r₀ hlive₀ hins₀
    obtain ⟨hr₀, hmap₀⟩ := hlive₀
    rcases lookup_of_insert hr₀ with ⟨rfl, rfl⟩ | hold
    case inr => exact (hledger.records ref₀ r₀ ⟨hold, hmap₀⟩ hins₀).insert hk fun _ => Role.noConfusion
    have hmono := hheld.insert (h := {
      alloc := { ins := el.ins, allocationID := threadID, sessionID, sessionCtx := some ref₀ },
      role := .used }) hk fun _ => Role.noConfusion
    refine ⟨?_, ?_, ?_, hmono.unique⟩
    · intro x hx hfree
      rw [havail'] at hfree
      by_cases hxid : x = threadID
      · exact ⟨k, _, lookup_insert _, rfl, rfl, hxid.symm⟩
      have hne : x ≠ y := by
        rintro rfl
        rcases hcases with ⟨rfl, -⟩ | ⟨rfl, -, -, rfl⟩
        · exact hxid rfl
        · rw [lookup_insert_ne hxid, lookup_erase] at hx
          cases hx
      rw [lookup_erase_ne hne] at hfree
      refine hmono.used x ?_ hfree
      rcases hcases with ⟨-, rfl⟩ | ⟨rfl, -, -, rfl⟩
      · exact hx
      · rw [lookup_insert_ne hxid, lookup_erase_ne hne] at hx
        exact hx
    · rw [hover']
      exact hmono.overAcq
    · rw [hover']
      exact hmono.madeUp

theorem Ledger.plain (hk : out.lookup k = none) (hel : bcs.elems.lookup e = some el)
    (name : QueueName) (pick : Nat) (threadID : String) :
    Ledger cfg i e ((bcs.setElem e (el.taken pick)).refile name e (el.taken pick))
      (out.insert k { alloc := { ins := el.ins, allocationID := threadID }, role := .plain }) := by
  obtain ⟨el₀, hel₀, helid, -⟩ := hledger.elem
  rw [hel] at hel₀
  cases hel₀
  have hwithin := el.taken_within pick
  have helems : ∀ e', ((bcs.setElem e (el.taken pick)).refile name e (el.taken pick)).elems.lookup e' =
      (bcs.elems.insert e (el.taken pick)).lookup e' :=
    fun e' => congrArg (lookup e') (refile_elems (bcs.setElem e (el.taken pick)) name e _)
  have hrecords := refile_records (bcs.setElem e (el.taken pick)) name e (el.taken pick)
  have hnext := refile_nextRef (bcs.setElem e (el.taken pick)) name e (el.taken pick)
  refine hledger.grant hwf hk (.setElem hel (congrArg _ hwithin.ins) (congrArg _ hwithin.ins) helems
      (keeps_records_same hrecords) hnext.ge) (old_elems_insert hel helems) ?_ ?_ ?_
  · intro el₀ hel₀
    rw [hel] at hel₀
    cases hel₀
    refine ⟨el.taken pick, by rw [helems]; exact lookup_insert _, congrArg _ hwithin.ins, ?_⟩
    have hbalance := el.taken_balance pick
    rw [unused_congr hrecords, show (bcs.setElem e (el.taken pick)).unused e = bcs.unused e from rfl,
      if_neg Role.noConfusion]
    omega
  · refine ⟨helid, ?_, fun _ href => Option.noConfusion rfl (heq_of_eq href), fun _ => rfl,
      fun _ => Role.noConfusion⟩
    intro el' hel'
    rw [helems, lookup_insert] at hel'
    cases hel'
    exact congrArg _ hwithin.ins.symm
  · intro ref r hlive hins
    unfold Live at hlive
    rw [hrecords, refile_sessionMap] at hlive
    exact (hledger.records ref r hlive hins).insert hk fun _ => Role.noConfusion

theorem Ledger.beyond (hk : out.lookup k = none)
    (hlive : Live cfg bcs ref r) (hid : r.sessionID = h.alloc.sessionID)
    (hsession : h.alloc.sessionID ≠ "") (hel : bcs.elems.lookup e = some el) (hins : r.insElem = e)
    (halloc : h.alloc.ins = el.ins) (hof : h.Of ref threadID) (hrole : h.role = overRole cfg)
    (hfew : cfg.enableAgentSession = true → r.overAcqThdMap.len = 0) (hins' : el'.ins = el.ins)
    (hbalance : el'.threadMap.len + (if h.role = .madeUp then 0 else 1) + el.overIssued ≤
      el.threadMap.len + el'.overIssued)
    (helems : ∀ e', bcs'.elems.lookup e' = (bcs.elems.insert e el').lookup e')
    (hrecords : bcs'.records = bcs.records.insert ref
      { r with overAcqThdMap := r.overAcqThdMap.insert threadID () })
    (hmap : bcs'.sessionMap = bcs.sessionMap) (hnext : bcs.nextRef ≤ bcs'.nextRef) :
    Ledger cfg i e bcs' (out.insert k h) := by
  obtain ⟨el₀, hel₀, helid, -⟩ := hledger.elem
  rw [hel] at hel₀
  cases hel₀
  have hheld := hledger.records ref r hlive hins
  refine hledger.grant hwf hk (.setElem hel (congrArg _ hins') (congrArg _ hins') helems
      (keeps_records_insert hlive.1 hrecords rfl rfl) hnext) (old_elems_insert hel helems) ?_ ?_ ?_
  · intro el₀ hel₀
    rw [hel] at hel₀
    cases hel₀
    refine ⟨el', by rw [helems]; exact lookup_insert _, congrArg _ hins', ?_⟩
    have hsum := unused_insert (e := e) hlive.1 hrecords
    unfold SessionRecord.unusedOf at hsum
    dsimp only at hsum
    by_cases hmade : h.role = .madeUp
    · rw [if_pos hmade] at hbalance ⊢
      omega
    · rw [if_neg hmade] at hbalance ⊢
      omega
  · refine ⟨(congrArg _ halloc).trans helid, ?_, ?_, fun h => absurd h hsession, ?_⟩
    · intro el₀ hel₀
      rw [helems, lookup_insert] at hel₀
      cases hel₀
      exact congrArg _ (halloc.trans hins'.symm)
    · intro ref' href'
      cases hof.1.symm.trans href'
      refine ⟨(hwf.recordRef ref r hlive.1).trans_le hnext, ?_⟩
      intro r₀ hr₀
      rw [hrecords, lookup_insert] at hr₀
      cases hr₀
      exact ⟨hid.symm, hins⟩
    · rintro (hagent | hnone)
      · rw [hrole, overRole, if_neg (by rw [hagent]; exact false_ne_true)]
        exact Role.noConfusion
      · cases hof.1.symm.trans hnone
  · intro ref₀ r₀ hlive₀ hins₀
    obtain ⟨hr₀, hmap₀⟩ := hlive₀
    rw [hmap] at hmap₀
    rw [hrecords, lookup_insert_eq_ite] at hr₀
    split at hr₀
    case isFalse hne =>
      refine (hledger.records ref₀ r₀ ⟨hr₀, hmap₀⟩ hins₀).insert hk fun href => ?_
      cases hof.1.symm.trans href
      exact absurd rfl hne
    case isTrue heq =>
      subst heq
      cases hr₀
      -- of the holders, only the new one can have made a thread up for the session
      have hsole : ∀ k' h', (out.insert k h).lookup k' = some h' → h'.role = .madeUp →
          h'.alloc.sessionCtx = some ref₀ → k' = k ∧ h' = h := by
        intro k' h' hk' hrole' href'
        rcases lookup_of_insert hk' with ⟨rfl, rfl⟩ | hk'
        · exact ⟨rfl, rfl⟩
        have hover := hheld.madeUp k' h' hk' hrole' href'
        have hagent : cfg.enableAgentSession = true := by
          by_contra hplain
          exact (hledger.holders k' h' hk').real (Or.inl (by simpa using hplain)) hrole'
        obtain ⟨v, hv⟩ := isSome_iff_exists.mp hover
        have hlen := len_erase_of_some hv
        have hzero := hfew hagent
        omega
      have hkeep : ∀ {k' h'}, out.lookup k' = some h' → (out.insert k h).lookup k' = some h' := by
        intro k' h' hk'
        rw [lookup_insert_ne, hk']
        rintro rfl
        rw [hk] at hk'
        cases hk'
      refine ⟨?_, ?_, ?_, ?_⟩
      · intro x hx hfree
        obtain ⟨k', h', hk', hholds⟩ := hheld.used x hx hfree
        exact ⟨k', h', hkeep hk', hholds⟩
      · intro x hx
        by_cases hxid : x = threadID
        · exact ⟨k, h, lookup_insert _, hrole, hof.1, hof.2.trans hxid.symm⟩
        rw [lookup_insert_ne hxid] at hx
        obtain ⟨k', h', hk', hholds⟩ := hheld.overAcq x hx
        exact ⟨k', h', hkeep hk', hholds⟩
      · intro k' h' hk' hrole' href'
        obtain ⟨rfl, rfl⟩ := hsole k' h' hk' hrole' href'
        rw [hof.2, lookup_insert]
        rfl
      · intro k₁ k₂ h₁ h₂ hk₁ hk₂ hrole₁ hrole₂ href₁ href₂
        rw [(hsole k₁ h₁ hk₁ hrole₁ href₁).1, (hsole k₂ h₂ hk₂ hrole₂ href₂).1]

end

theorem live_of_demand (hwf : WellFormed cfg bcs) (hnamed : Named cfg bcs)
    (htidy : cfg.tidyID d.sessionID = true) (hkey : bcs.sessionMap.lookup (d.cacheKey cfg) = some ref)
    (hr : bcs.records.lookup ref = some r) :
    Live cfg bcs ref r ∧ r.sessionID = d.sessionID ∧ d.sessionID ≠ "" := by
  obtain ⟨r₀, hr₀, hkey₀⟩ := hwf.keyed _ ref hkey
  rw [hr] at hr₀
  cases hr₀
  obtain ⟨hne, htidy'⟩ := hnamed ref r hr
  have hid := (getSessionCacheKey_inj htidy' htidy hkey₀).1
  exact ⟨⟨hr, by rw [hkey₀]; exact hkey⟩, hid, hid ▸ hne⟩

theorem Ledger.obtains (hledger : Ledger cfg i e bcs out) (hwf : WellFormed cfg bcs)
    (hnamed : Named cfg bcs) (htidy : cfg.tidyID d.sessionID = true) (hk : out.lookup k = none)
    (hobtains : Obtains cfg d bcs alloc bcs') :
    ∃ out', Ledger cfg i e bcs' out' ∧ Obtained i k alloc out out' := by
  obtain ⟨el₀, hel₀, helid, -⟩ := hledger.elem
  have hother : ∀ {ref el}, bcs.elems.lookup ref = some el → ref ≠ e → el.ins.instanceID ≠ i :=
    fun hel hne hid => hne (hledger.sole _ _ hel hid)
  cases hobtains with
  | @plain name ref el pick threadID hel =>
    by_cases heq : ref = e
    · subst heq
      exact ⟨_, hledger.plain hwf hk hel name pick threadID, obtained_insert fun _ => Role.noConfusion⟩
    have hwithin := el.taken_within pick
    refine ⟨out, ?_, obtained_other (hother hel heq)⟩
    have hset := hledger.setElem hwf hel (congrArg _ hwithin.ins) (congrArg _ hwithin.ins)
      fun h => absurd h heq
    exact hset.refile (hwf.setElem hel (congrArg _ hwithin.ins)) name ref (el.taken pick)
  | @session _ r _ _ _ hkey hr hel htakes =>
    obtain ⟨hlive, hid, hsession⟩ := live_of_demand hwf hnamed htidy hkey hr
    by_cases heq : r.insElem = e
    · rw [heq] at hel
      exact ⟨_, hledger.takes hwf hk hlive hid hsession hel heq htakes,
        obtained_insert fun _ => Role.noConfusion⟩
    refine ⟨out, ?_, obtained_other (hother hel heq)⟩
    obtain ⟨y, -, ⟨-, rfl⟩ | ⟨-, -, -, rfl⟩⟩ := htakes
    all_goals
      exact hledger.setRecord hwf hr rfl rfl rfl le_rfl rfl rfl rfl (fun h => absurd h heq)
        fun h => absurd h heq
  | @overAcq name ref r el pick _ hkey hr _ hagent hel =>
    obtain ⟨hlive, hid, hsession⟩ := live_of_demand hwf hnamed htidy hkey hr
    have hwithin := el.taken_within pick
    have hrecords := refile_records (bcs.setElem r.insElem (el.taken pick)) name r.insElem (el.taken pick)
    by_cases heq : r.insElem = e
    · have hrole : Role.overAcq = overRole cfg := by
        rw [overRole, if_neg (by rw [hagent]; exact false_ne_true)]
      have hbalance := el.taken_balance pick
      refine ⟨out.insert k { alloc := _, role := .overAcq }, ?_, obtained_insert fun _ => Role.noConfusion⟩
      subst heq
      refine hledger.beyond hwf hk hlive hid hsession hel rfl rfl ⟨rfl, rfl⟩
        hrole (fun h => absurd (hagent.symm.trans h) false_ne_true) hwithin.ins ?_
        (fun e' => congrArg (lookup e')
          (refile_elems (bcs.setElem r.insElem (el.taken pick)) name r.insElem _)) ?_
        (refile_sessionMap (bcs.setElem r.insElem (el.taken pick)) name r.insElem _)
        (refile_nextRef (bcs.setElem r.insElem (el.taken pick)) name r.insElem _).ge
      · rw [if_neg Role.noConfusion]
        omega
      change insert ref _ _ = _
      rw [hrecords]
      rfl
    · refine ⟨out, ?_, obtained_other (hother hel heq)⟩
      have hset := hledger.setElem hwf hel (congrArg _ hwithin.ins) (congrArg _ hwithin.ins)
        fun h => absurd h heq
      have hwf' := hwf.setElem hel (congrArg _ hwithin.ins)
      have hrefile := hset.refile hwf' name r.insElem (el.taken pick)
      refine hrefile.setRecord (r := r) (hwf'.refile name (lookup_insert bcs.elems)) ?_ rfl rfl
        rfl le_rfl rfl rfl rfl (fun h => absurd h heq) fun h => absurd h heq
      rw [hrecords]
      exact hr
  | @agent _ r _ _ hkey hr _ hagent hover hel =>
    obtain ⟨hlive, hid, hsession⟩ := live_of_demand hwf hnamed htidy hkey hr
    by_cases heq : r.insElem = e
    · have hrole : Role.madeUp = overRole cfg := by rw [overRole, if_pos hagent]
      refine ⟨out.insert k { alloc := _, role := .madeUp }, ?_, obtained_insert fun h => Bool.noConfusion h⟩
      subst heq
      refine hledger.beyond hwf hk hlive hid hsession hel rfl rfl ⟨rfl, rfl⟩ hrole (fun _ => hover)
        rfl ?_ (fun e' => (lookup_insert_self hel e').symm) rfl rfl le_rfl
      rw [if_pos rfl]
      omega
    · refine ⟨out, ?_, obtained_other (hother hel heq)⟩
      exact hledger.setRecord hwf hr rfl rfl rfl le_rfl rfl rfl rfl (fun h => absurd h heq)
        fun h => absurd h heq

end Obtains

end Yuanrong.Concurrency
