import Yuanrong.ConcurrencyScheduler.Proof.LedgerAcquire

/-!
# The ledger under releases and expiries

A thread that comes back to a session or an instance has one holder fewer. If its ID is that of
another holder too, the scheduler cannot tell the two apart, and the one that is left stands for
what the other one stood for.
-/

namespace Yuanrong.Concurrency

open AList Option BasicConcurrencyScheduler

/-! ### Threads given back -/

def Contexts (cfg : Config) (bcs : BasicConcurrencyScheduler) : Prop :=
  ∀ ref r el, bcs.records.lookup ref = some r → bcs.elems.lookup r.insElem = some el →
    r.sessionCtxID = contextOf cfg el.ins

/-- The session found is bound to the allocation's instance, and made-up threads come back. -/
def BasicConcurrencyScheduler.releasesHome (cfg : Config) (bcs : BasicConcurrencyScheduler)
    (alloc : InstanceAllocation) : Bool :=
  alloc.sessionID = "" ||
    (bcs.getSession (alloc.releaseKey cfg)).all fun entry =>
      ((bcs.elems.lookup entry.2.insElem).any fun el =>
        el.ins.instanceID = alloc.ins.instanceID) &&
      (alloc.sessionCtx = some entry.1 || !alloc.agentOverAcq)

variable {el : InstanceElement} {h : Holder} {k : Nat}

section Releases

variable {cfg : Config} {i : String} {e : Nat} {bcs bcs' : BasicConcurrencyScheduler}
  {out : FinMap Nat Holder}

variable {ref : Nat} {r : SessionRecord}

theorem releasesHome_spec (hhome : bcs.releasesHome cfg alloc = true) (hsession : alloc.sessionID ≠ "")
    (hkey : bcs.sessionMap.lookup (alloc.releaseKey cfg) = some ref) (hr : bcs.records.lookup ref = some r) :
    (∃ el, bcs.elems.lookup r.insElem = some el ∧ el.ins.instanceID = alloc.ins.instanceID) ∧
      (alloc.sessionCtx = some ref ∨ alloc.agentOverAcq = false) := by
  unfold releasesHome getSession at hhome
  rw [hkey, bind_some, hr, map_some, all_some, decide_eq_false hsession,
    Bool.false_or, Bool.and_eq_true, any_eq_true, Bool.or_eq_true] at hhome
  obtain ⟨⟨el, hel, hid⟩, hown⟩ := hhome
  exact ⟨⟨el, hel, of_decide_eq_true hid⟩, hown.imp of_decide_eq_true (by simp)⟩

theorem HolderOk.releaseKey_eq (hok : HolderOk cfg i e bcs h) (hwf : WellFormed cfg bcs)
    (hcontexts : Contexts cfg bcs) (href : h.alloc.sessionCtx = some ref)
    (hr : bcs.records.lookup ref = some r) : h.alloc.releaseKey cfg = getRecordCacheKey cfg r := by
  obtain ⟨hid, hins⟩ := (hok.session ref href).2 r hr
  obtain ⟨el, hel⟩ := hwf.bound ref r hr
  have hctx := hcontexts ref r el hr hel
  rw [hins] at hel
  unfold InstanceAllocation.releaseKey getRecordCacheKey
  rw [hid, hctx, ← hok.context el hel]
  rfl

structure Returns (k : Nat) (out out' : FinMap Nat Holder) : Prop where
  others : ∀ k' h', out.lookup k' = some h' → k' ≠ k → ∃ h'', out'.lookup k' = some h'' ∧
    h''.alloc = h'.alloc ∧ (h'.role ≠ .madeUp → h''.role ≠ .madeUp)
  within : ∀ k' h', out'.lookup k' = some h' → ∃ h'', out.lookup k' = some h''

theorem Returns.same (k : Nat) (out : FinMap Nat Holder) : Returns k out out :=
  ⟨fun _ h' hk' _ => ⟨h', hk', rfl, id⟩, fun _ h' hk' => ⟨h', hk'⟩⟩

theorem Returns.erase (k : Nat) (out : FinMap Nat Holder) : Returns k out (out.erase k) :=
  ⟨fun _ h' hk' hne => ⟨h', (lookup_erase_ne hne).trans hk', rfl, id⟩,
    fun _ h' hk' => ⟨h', lookup_of_erase hk'⟩⟩

variable {r' : SessionRecord}

theorem Returns.convert (hk₁ : out.lookup k₁ = some h₁) :
    Returns k out ((out.erase k).insert k₁ { h₁ with role := .used }) where
  others := by
    intro k' h' hk' hne
    rw [lookup_insert_eq_ite]
    split
    case isTrue heq =>
      subst heq
      rw [hk₁] at hk'
      cases hk'
      exact ⟨_, rfl, rfl, fun _ => Role.noConfusion⟩
    case isFalse => exact ⟨h', (lookup_erase_ne hne).trans hk', rfl, id⟩
  within := by
    exact forall_lookup_insert ⟨h₁, hk₁⟩ fun _ h' hold => ⟨h', lookup_of_erase hold⟩

theorem RecordHeld.erase (hheld : RecordHeld cfg out ref r) (hk : out.lookup k = some h)
    (hused : ∀ x, (r'.allocThdMap.lookup x).isSome = true → r'.availThdMap.lookup x = none →
      ((r.allocThdMap.lookup x).isSome = true ∧ r.availThdMap.lookup x = none) ∧ ¬ h.Of ref x)
    (hover : ∀ x, (r'.overAcqThdMap.lookup x).isSome = true →
      (r.overAcqThdMap.lookup x).isSome = true ∧ ¬ h.Of ref x)
    (hmade : ∀ k' h', out.lookup k' = some h' → k' ≠ k → h'.role = .madeUp →
      h'.alloc.sessionCtx = some ref → (r.overAcqThdMap.lookup h'.alloc.allocationID).isSome = true →
        (r'.overAcqThdMap.lookup h'.alloc.allocationID).isSome = true) :
    RecordHeld cfg (out.erase k) ref r' := by
  have hkeep : ∀ {k' h' x}, out.lookup k' = some h' → h'.Of ref x → ¬ h.Of ref x →
      (out.erase k).lookup k' = some h' := by
    intro k' h' x hk' hof hnot
    rw [lookup_erase_ne, hk']
    rintro rfl
    rw [hk] at hk'
    cases hk'
    exact hnot hof
  refine ⟨?_, ?_, ?_, ?_⟩
  · intro x hx hfree
    obtain ⟨⟨hx₀, hfree₀⟩, hnot⟩ := hused x hx hfree
    obtain ⟨k', h', hk', hrole, hof⟩ := hheld.used x hx₀ hfree₀
    exact ⟨k', h', hkeep hk' hof hnot, hrole, hof⟩
  · intro x hx
    obtain ⟨hx₀, hnot⟩ := hover x hx
    obtain ⟨k', h', hk', hrole, hof⟩ := hheld.overAcq x hx₀
    exact ⟨k', h', hkeep hk' hof hnot, hrole, hof⟩
  · intro k' h' hk' hrole href
    have hold := lookup_of_erase hk'
    exact hmade k' h' hold (ne_of_lookup_erase hk') hrole href (hheld.madeUp k' h' hold hrole href)
  · intro k₁ k₂ h₁ h₂ hk₁ hk₂ hrole₁ hrole₂ href₁ href₂
    exact hheld.unique k₁ k₂ h₁ h₂ (lookup_of_erase hk₁) (lookup_of_erase hk₂) hrole₁ hrole₂ href₁ href₂

theorem RecordHeld.erase_other (hheld : RecordHeld cfg out ref r) (hk : out.lookup k = some h)
    (hother : h.alloc.sessionCtx ≠ some ref) : RecordHeld cfg (out.erase k) ref r :=
  hheld.erase hk (fun _ hx hfree => ⟨⟨hx, hfree⟩, fun hof => hother hof.1⟩)
    (fun _ hx => ⟨hx, fun hof => hother hof.1⟩) fun _ _ _ _ _ _ hover => hover

theorem RecordHeld.convert_other (hheld : RecordHeld cfg out ref r) (hk₁ : out.lookup k₁ = some h₁)
    (hother : h₁.alloc.sessionCtx ≠ some ref) :
    RecordHeld cfg (out.insert k₁ { h₁ with role := .used }) ref r := by
  refine hheld.of_lookup ?_ ?_
  · intro k' h' x hk' hof
    rw [lookup_insert_ne, hk']
    rintro rfl
    rw [hk₁] at hk'
    cases hk'
    exact hother hof.1
  · intro k' h' hk' hrole _
    rcases lookup_of_insert hk' with ⟨-, rfl⟩ | hk'
    · cases hrole
    · exact hk'

theorem startUnbindInstanceSession_records (bcs : BasicConcurrencyScheduler) (name : QueueName)
    (ref : Nat) (r : SessionRecord) :
    ∃ expiring, (bcs.startUnbindInstanceSession name ref r).records =
      bcs.records.insert ref { r with released := true, expiring } := by
  unfold startUnbindInstanceSession
  dsimp only
  split
  · exact ⟨true, rfl⟩
  · exact ⟨r.expiring, rfl⟩

theorem InstanceElement.len_put_le (el : InstanceElement) (threadID : String) :
    (el.putThreadToThreadMap threadID).threadMap.len ≤ el.threadMap.len + 1 ∧
      (el.putThreadToThreadMap threadID).overIssued = el.overIssued := by
  rcases el.putThreadToThreadMap_cases threadID with ⟨heq, -⟩ | heq
  · rw [heq]
    exact ⟨Nat.le_succ _, rfl⟩
  · rw [heq]
    exact ⟨el.threadMap.len_insert_le _ _, rfl⟩

theorem Ledger.giveBack (hledger : Ledger cfg i e bcs out) (hwf : WellFormed cfg bcs)
    (hlive : Live cfg bcs ref r) (hins : r.insElem = e) (hel : bcs.elems.lookup e = some el)
    (hins' : el'.ins = el.ins) (helems : ∀ e', bcs'.elems.lookup e' = (bcs.elems.insert e el').lookup e')
    (hrecords : bcs'.records = bcs.records.insert ref r') (hmap : bcs'.sessionMap = bcs.sessionMap)
    (hnext : bcs.nextRef ≤ bcs'.nextRef) (hid : r'.sessionID = r.sessionID)
    (hinsElem : r'.insElem = r.insElem)
    (hbalance : el'.threadMap.len + r'.availThdMap.len + held out' + el.overIssued ≤
      el.threadMap.len + r.availThdMap.len + held out + el'.overIssued)
    (hholders : ∀ k h, out'.lookup k = some h → HolderOk cfg i e bcs h) (hheld : RecordHeld cfg out' ref r')
    (hothers : ∀ ref₀ r₀, ref₀ ≠ ref → Live cfg bcs ref₀ r₀ → r₀.insElem = e → RecordHeld cfg out' ref₀ r₀) :
    Ledger cfg i e bcs' out' := by
  have hkeeps : Keeps cfg bcs bcs' := .setElem hel (congrArg _ hins') (congrArg _ hins') helems
    (keeps_records_insert hlive.1 hrecords hid hinsElem) hnext
  refine hledger.next hwf hkeeps (no_new_elems hwf (old_elems_insert hel helems)) ?_ ?_ ?_
  · intro el₀ hel₀
    rw [hel] at hel₀
    cases hel₀
    refine ⟨el', by rw [helems]; exact lookup_insert _, congrArg _ hins', ?_⟩
    have hsum := unused_insert (e := e) hlive.1 hrecords
    unfold SessionRecord.unusedOf at hsum
    omega
  · exact fun k h hk => (hholders k h hk).keeps hkeeps (hledger.elem_lt hwf)
  · intro ref₀ r₀ hlive₀ hins₀
    obtain ⟨hr₀, hmap₀⟩ := hlive₀
    rw [hmap] at hmap₀
    rw [hrecords, lookup_insert_eq_ite] at hr₀
    split at hr₀
    case isTrue heq =>
      cases hr₀
      rw [heq]
      exact hheld
    case isFalse hne => exact hothers ref₀ r₀ hne ⟨hr₀, hmap₀⟩ hins₀

section Own

variable {k : Nat} {h : Holder} (hledger : Ledger cfg i e bcs out) (hwf : WellFormed cfg bcs)
  (hk : out.lookup k = some h)

variable {ref : Nat}

include hledger hwf hk

theorem Ledger.elsewhere (hcontexts : Contexts cfg bcs)
    (hkey : bcs.sessionMap.lookup (h.alloc.releaseKey cfg) = some ref) (ref₀ : Nat) (r₀ : SessionRecord)
    (hne : ref₀ ≠ ref) (hlive : Live cfg bcs ref₀ r₀) : h.alloc.sessionCtx ≠ some ref₀ := by
  intro href
  have heq := (hledger.holders k h hk).releaseKey_eq hwf hcontexts href hlive.1
  rw [heq, hlive.2] at hkey
  exact hne (some.inj hkey)

theorem Ledger.home (hreal : h.alloc.agentOverAcq = false → h.role ≠ .madeUp)
    (hhome : bcs.releasesHome cfg h.alloc = true) (hsession : h.alloc.sessionID ≠ "")
    (hkey : bcs.sessionMap.lookup (h.alloc.releaseKey cfg) = some ref)
    (hr : bcs.records.lookup ref = some r) :
    Live cfg bcs ref r ∧ r.insElem = e ∧ (h.role = .madeUp → h.alloc.sessionCtx = some ref) := by
  obtain ⟨⟨el, hel, hid⟩, hown⟩ := releasesHome_spec hhome hsession hkey hr
  obtain ⟨r₀, hr₀, hkey₀⟩ := hwf.keyed _ ref hkey
  rw [hr] at hr₀
  cases hr₀
  refine ⟨⟨hr, by rw [hkey₀]; exact hkey⟩,
    hledger.sole _ el hel (hid.trans (hledger.holders k h hk).ofInstance), ?_⟩
  intro hmade
  rcases hown with hown | hown
  · exact hown
  · exact absurd hmade (hreal hown)

omit hwf hk in
theorem Ledger.holders_erase (k' : Nat) (h' : Holder) (hk' : (out.erase k).lookup k' = some h') :
    HolderOk cfg i e bcs h' :=
  hledger.holders k' h' (lookup_of_erase hk')

section

variable {r : SessionRecord} (hlive : Live cfg bcs ref r) (hins : r.insElem = e)
  (hown : h.role = .madeUp → h.alloc.sessionCtx = some ref)
  (helsewhere : ∀ ref₀ r₀, ref₀ ≠ ref → Live cfg bcs ref₀ r₀ → h.alloc.sessionCtx ≠ some ref₀)
  (hrecords : bcs'.records = bcs.records.insert ref r') (hmap : bcs'.sessionMap = bcs.sessionMap)
  (hnext : bcs.nextRef ≤ bcs'.nextRef)
include hlive hins hown helsewhere hrecords hmap hnext

theorem Ledger.marked (hover : r.overAcqThdMap.lookup h.alloc.allocationID = none)
    (hr' : ∃ expiring, r' =
      { r with availThdMap := r.availThdMap.insert h.alloc.allocationID (), released := true, expiring })
    (helems : bcs'.elems = bcs.elems) : Ledger cfg i e bcs' (out.erase k) := by
  obtain ⟨el, hel, -⟩ := hledger.elem
  have hheld := hledger.records ref r hlive hins
  have hcounted : h.role ≠ .madeUp := by
    intro hmade
    have hin := hheld.madeUp k h hk hmade (hown hmade)
    rw [hover] at hin
    cases hin
  obtain ⟨expiring, rfl⟩ := hr'
  refine hledger.giveBack hwf hlive hins hel rfl ?_ hrecords hmap hnext rfl rfl ?_ hledger.holders_erase ?_ ?_
  · intro e'
    rw [helems, lookup_insert_self hel]
  · have hlen := r.availThdMap.len_insert_le h.alloc.allocationID ()
    have hone := held_erase hk hcounted
    dsimp only
    omega
  · refine hheld.erase hk ?_ ?_ fun _ _ _ _ _ _ h => h
    · intro x hx hfree
      rw [lookup_insert_eq_ite] at hfree
      split at hfree
      · cases hfree
      case isFalse hne => exact ⟨⟨hx, hfree⟩, fun hof => hne hof.2.symm⟩
    · intro x hx
      refine ⟨hx, fun hof => ?_⟩
      rw [← hof.2, hover] at hx
      cases hx
  · exact fun ref₀ r₀ hne hlive₀ hins₀ => (hledger.records ref₀ r₀ hlive₀ hins₀).erase_other hk
      (helsewhere ref₀ r₀ hne hlive₀)

theorem Ledger.beyondBack (hover : (r.overAcqThdMap.lookup h.alloc.allocationID).isSome = true)
    (hr' : ∃ expiring, r' =
      { r with overAcqThdMap := r.overAcqThdMap.erase h.alloc.allocationID, released := true, expiring })
    (hel : bcs.elems.lookup e = some el) (hins' : el'.ins = el.ins)
    (hput : el'.threadMap.len ≤ el.threadMap.len + if overRole cfg = .madeUp then 0 else 1)
    (hissued : el'.overIssued = el.overIssued)
    (helems : ∀ e', bcs'.elems.lookup e' = (bcs.elems.insert e el').lookup e') :
    ∃ out', Ledger cfg i e bcs' out' ∧ Returns k out out' := by
  have hheld := hledger.records ref r hlive hins
  obtain ⟨expiring, rfl⟩ := hr'
  -- at most one thread is made up at a time
  have hsole : ∀ {k₁ h₁}, out.lookup k₁ = some h₁ → h₁.role = overRole cfg →
      h₁.alloc.sessionCtx = some ref → ∀ {k' h'}, out.lookup k' = some h' → h'.role = .madeUp →
      h'.alloc.sessionCtx = some ref → k' = k₁ := by
    intro k₁ h₁ hk₁ hrole₁ href₁ k' h' hk' hrole' href'
    refine hheld.unique k' k₁ h' h₁ hk' hk₁ hrole' ?_ href' href₁
    rw [hrole₁, overRole, if_pos]
    by_contra hplain
    exact (hledger.holders k' h' hk').real (Or.inl (by simpa using hplain)) hrole'
  by_cases hrole : h.role = overRole cfg ∧ h.alloc.sessionCtx = some ref
  · refine ⟨out.erase k, ?_, .erase k out⟩
    refine hledger.giveBack hwf hlive hins hel hins' helems hrecords hmap hnext rfl rfl ?_
      hledger.holders_erase ?_ ?_
    · by_cases hmade : overRole cfg = .madeUp
      · rw [if_pos hmade] at hput
        rw [held, count_erase, hk, Option.elim_some, if_neg (not_not_intro (hrole.1.trans hmade)),
          sub_zero, ← held, hissued]
        dsimp only
        omega
      · rw [if_neg hmade] at hput
        have hone := held_erase hk (by rw [hrole.1]; exact hmade)
        dsimp only
        omega
    · refine ⟨?_, ?_, ?_, ?_⟩
      · intro x hx hfree
        obtain ⟨k', h', hk', hrole', hof⟩ := hheld.used x hx hfree
        refine ⟨k', h', ?_, hrole', hof⟩
        rw [lookup_erase_ne, hk']
        rintro rfl
        rw [hk] at hk'
        cases hk'
        exact overRole_ne_used cfg (hrole.1.symm.trans hrole')
      · intro x hx
        rw [lookup_erase_eq_ite] at hx
        split at hx
        · cases hx
        rename_i hne
        obtain ⟨k', h', hk', hrole', hof⟩ := hheld.overAcq x hx
        refine ⟨k', h', ?_, hrole', hof⟩
        rw [lookup_erase_ne, hk']
        rintro rfl
        rw [hk] at hk'
        cases hk'
        exact hne hof.2.symm
      · intro k' h' hk' hrole' href'
        have heq := hsole hk hrole.1 hrole.2 (lookup_of_erase hk') hrole' href'
        exact absurd heq (ne_of_lookup_erase hk')
      · intro k₁ k₂ h₁ h₂ hk₁ hk₂ hrole₁ hrole₂ href₁ href₂
        exact hheld.unique k₁ k₂ h₁ h₂ (lookup_of_erase hk₁) (lookup_of_erase hk₂) hrole₁ hrole₂ href₁ href₂
    · exact fun ref₀ r₀ hne hlive₀ hins₀ => (hledger.records ref₀ r₀ hlive₀ hins₀).erase_other hk
        (helsewhere ref₀ r₀ hne hlive₀)
  · -- another holder has the thread; it stands for one of the session's own now
    obtain ⟨k₁, h₁, hk₁, hrole₁, hof₁⟩ := hheld.overAcq _ hover
    have hne₁ : k₁ ≠ k := by
      rintro rfl
      rw [hk] at hk₁
      cases hk₁
      exact hrole ⟨hrole₁, hof₁.1⟩
    have hk₁' : (out.erase k).lookup k₁ = some h₁ := by
      rw [lookup_erase_ne hne₁]
      exact hk₁
    have hcounted : h.role ≠ .madeUp := by
      intro hmade
      exact hne₁ (hsole hk₁ hrole₁ hof₁.1 hk hmade (hown hmade)).symm
    refine ⟨(out.erase k).insert k₁ { h₁ with role := .used }, ?_, .convert hk₁⟩
    refine hledger.giveBack hwf hlive hins hel hins' helems hrecords hmap hnext rfl rfl ?_
      (forall_lookup_insert { hledger.holders k₁ h₁ hk₁ with real := fun _ => Role.noConfusion }
        fun k' h' hold => hledger.holders k' h' (lookup_of_erase hold)) ?_ ?_
    · have hone := held_erase hk hcounted
      have htwo := held_insert_real hk₁' (Role.noConfusion :
        ({ h₁ with role := .used } : Holder).role ≠ .madeUp)
      rw [hrole₁] at htwo
      dsimp only
      by_cases hmade : overRole cfg = .madeUp
      · rw [if_pos hmade] at hput htwo
        omega
      · rw [if_neg hmade] at hput htwo
        omega
    · have hkeep : ∀ {k' h' x}, out.lookup k' = some h' → h'.Of ref x → x ≠ h.alloc.allocationID →
          ((out.erase k).insert k₁ { h₁ with role := .used }).lookup k' = some h' := by
        intro k' h' x hk' hof hne
        rw [lookup_insert_ne, lookup_erase_ne, hk']
        · rintro rfl
          rw [hk] at hk'
          cases hk'
          exact hne hof.2.symm
        · rintro rfl
          rw [hk₁] at hk'
          cases hk'
          exact hne (hof.2.symm.trans hof₁.2)
      have hgone : ∀ {k' h'}, ((out.erase k).insert k₁ { h₁ with role := .used }).lookup k' = some h' →
          h'.role = .madeUp → h'.alloc.sessionCtx = some ref → False := by
        intro k' h' hk' hrole' href'
        rcases lookup_of_insert hk' with ⟨-, rfl⟩ | hold
        · cases hrole'
        have heq := hsole hk₁ hrole₁ hof₁.1 (lookup_of_erase hold) hrole' href'
        subst heq
        rw [lookup_insert] at hk'
        cases hk'
        cases hrole'
      refine ⟨?_, ?_, ?_, ?_⟩
      · intro x hx hfree
        by_cases hxid : x = h.alloc.allocationID
        · exact ⟨k₁, _, lookup_insert _, rfl, hof₁.1, hof₁.2.trans hxid.symm⟩
        · obtain ⟨k', h', hk', hrole', hof⟩ := hheld.used x hx hfree
          exact ⟨k', h', hkeep hk' hof hxid, hrole', hof⟩
      · intro x hx
        rw [lookup_erase_eq_ite] at hx
        split at hx
        · cases hx
        rename_i hne
        obtain ⟨k', h', hk', hrole', hof⟩ := hheld.overAcq x hx
        exact ⟨k', h', hkeep hk' hof hne, hrole', hof⟩
      · exact fun k' h' hk' hrole' href' => (hgone hk' hrole' href').elim
      · exact fun k' _ h' _ hk' _ hrole' _ href' _ => (hgone hk' hrole' href').elim
    · intro ref₀ r₀ hne hlive₀ hins₀
      have hrest := (hledger.records ref₀ r₀ hlive₀ hins₀).erase_other hk (helsewhere ref₀ r₀ hne hlive₀)
      refine hrest.convert_other hk₁' fun href => hne ?_
      exact some.inj (href.symm.trans hof₁.1)

end

theorem Ledger.put (hel : bcs.elems.lookup e = some el) (hins' : el'.ins = el.ins)
    (hput : el'.threadMap.len ≤ el.threadMap.len + 1) (hissued : el'.overIssued = el.overIssued)
    (helems : ∀ e', bcs'.elems.lookup e' = (bcs.elems.insert e el').lookup e')
    (hrecords : bcs'.records = bcs.records) (hmap : bcs'.sessionMap = bcs.sessionMap)
    (hnext : bcs.nextRef ≤ bcs'.nextRef) (hcounted : h.role ≠ .madeUp)
    (hfree : ∀ ref r, Live cfg bcs ref r → r.insElem = e → h.alloc.sessionCtx = some ref →
      r.overAcqThdMap.lookup h.alloc.allocationID = none ∧ r.allocThdMap.lookup h.alloc.allocationID = none) :
    Ledger cfg i e bcs' (out.erase k) := by
  have hkeeps : Keeps cfg bcs bcs' := .setElem hel (congrArg _ hins') (congrArg _ hins') helems
    (keeps_records_same hrecords) hnext
  refine hledger.next hwf hkeeps (no_new_elems hwf (old_elems_insert hel helems)) ?_ ?_ ?_
  · intro el₀ hel₀
    rw [hel] at hel₀
    cases hel₀
    refine ⟨el', by rw [helems]; exact lookup_insert _, congrArg _ hins', ?_⟩
    have hone := held_erase hk hcounted
    rw [unused_congr hrecords, hissued]
    omega
  · exact fun k' h' hk' => (hledger.holders_erase k' h' hk').keeps hkeeps (hledger.elem_lt hwf)
  · intro ref r hlive hins
    unfold Live at hlive
    rw [hrecords, hmap] at hlive
    have hheld := hledger.records ref r hlive hins
    by_cases href : h.alloc.sessionCtx = some ref
    · obtain ⟨hover, halloc⟩ := hfree ref r hlive hins href
      refine hheld.erase hk ?_ ?_ fun _ _ _ _ _ _ h => h
      · intro x hx hnone
        refine ⟨⟨hx, hnone⟩, fun hof => ?_⟩
        rw [← hof.2, halloc] at hx
        cases hx
      · intro x hx
        refine ⟨hx, fun hof => ?_⟩
        rw [← hof.2, hover] at hx
        cases hx
    · exact hheld.erase_other hk href

theorem Ledger.releases_own (hcontexts : Contexts cfg bcs)
    (hreal : h.alloc.agentOverAcq = false → h.role ≠ .madeUp) (hhome : bcs.releasesHome cfg h.alloc = true)
    (hreleases : Releases cfg bcs h.alloc bcs') : ∃ out', Ledger cfg i e bcs' out' ∧ Returns k out out' := by
  have hok := hledger.holders k h hk
  cases hreleases with
  | nothing => exact ⟨out, hledger, .same k out⟩
  | @marked name _ _ ref r _ _ hsession hkey hr hover =>
    obtain ⟨hlive, hins, hown⟩ := hledger.home hwf hk hreal hhome hsession hkey hr
    obtain ⟨expiring, hrecords⟩ := startUnbindInstanceSession_records bcs name ref
      { r with availThdMap := r.availThdMap.insert h.alloc.allocationID () }
    refine ⟨out.erase k, ?_, .erase k out⟩
    refine hledger.marked hwf hk hlive hins hown (hledger.elsewhere hwf hk hcontexts hkey) ?_ ?_ ?_ hover
      ⟨expiring, rfl⟩ ?_
    · rw [refile_records, hrecords]
    · rw [refile_sessionMap, startUnbindInstanceSession_sessionMap]
    · rw [refile_nextRef]
      exact nextRef_le_startUnbind name ref _
    · rw [refile_elems, startUnbindInstanceSession_elems]
  | @agent name eref el ref r hel hid hsession hkey hr hover =>
    obtain ⟨hlive, hins, hown⟩ := hledger.home hwf hk hreal hhome hsession hkey hr
    obtain ⟨expiring, hrecords⟩ := startUnbindInstanceSession_records bcs name ref
      { r with overAcqThdMap := r.overAcqThdMap.erase h.alloc.allocationID }
    cases hledger.sole eref el hel (hid.trans hok.ofInstance)
    refine hledger.beyondBack hwf hk hlive hins hown (hledger.elsewhere hwf hk hcontexts hkey) ?_ ?_ ?_ hover
      ⟨expiring, rfl⟩ hel rfl (Nat.le_add_right _ _) rfl ?_
    · rw [refile_records, hrecords]
    · rw [refile_sessionMap, startUnbindInstanceSession_sessionMap]
    · rw [refile_nextRef]
      exact nextRef_le_startUnbind name ref _
    · intro e'
      rw [refile_elems, startUnbindInstanceSession_elems, lookup_insert_self hel]
  | @overAcq name eref el ref r hel hid hsession hkey hr hover hagent =>
    obtain ⟨hlive, hins, hown⟩ := hledger.home hwf hk hreal hhome hsession hkey hr
    obtain ⟨expiring, hrecords⟩ := startUnbindInstanceSession_records bcs name ref
      { r with overAcqThdMap := r.overAcqThdMap.erase h.alloc.allocationID }
    obtain ⟨hput, hissued⟩ := el.len_put_le h.alloc.allocationID
    have hrole : overRole cfg ≠ .madeUp := by
      rw [overRole, if_neg (by rw [hagent]; exact Bool.false_ne_true)]
      exact Role.noConfusion
    cases hledger.sole eref el hel (hid.trans hok.ofInstance)
    refine hledger.beyondBack hwf hk hlive hins hown (hledger.elsewhere hwf hk hcontexts hkey) ?_ ?_ ?_ hover
      ⟨expiring, rfl⟩ hel (el.putThreadToThreadMap_ins h.alloc.allocationID) ?_ hissued ?_
    · rw [refile_records]
      exact hrecords
    · rw [refile_sessionMap]
      exact startUnbindInstanceSession_sessionMap name ref _
    · rw [refile_nextRef]
      exact nextRef_le_startUnbind name ref _
    · rw [if_neg hrole]
      exact hput
    intro e'
    rw [refile_elems]
    change (insert e _ _).lookup e' = _
    rw [startUnbindInstanceSession_elems]
  | @put name eref el hel hid hunknown =>
    obtain ⟨hput, hissued⟩ := el.len_put_le h.alloc.allocationID
    cases hledger.sole eref el hel (hid.trans hok.ofInstance)
    refine ⟨out.erase k, ?_, .erase k out⟩
    refine hledger.put hwf hk hel (el.putThreadToThreadMap_ins h.alloc.allocationID) hput hissued
      (fun e' => congrArg (lookup e') (refile_elems (bcs.setElem e _) name e _))
      (refile_records (bcs.setElem e _) name e _)
      (refile_sessionMap (bcs.setElem e _) name e _)
      (refile_nextRef (bcs.setElem e _) name e _).ge ?_ ?_
    · rcases hunknown with hanon | ⟨ref, r, hkey, hr, hover, halloc⟩
      · exact hok.real (Or.inr (hok.anonymous hanon))
      intro hmade
      by_cases hsession : h.alloc.sessionID = ""
      · exact hok.real (Or.inr (hok.anonymous hsession)) hmade
      obtain ⟨hlive, hins, hown⟩ := hledger.home hwf hk hreal hhome hsession hkey hr
      have hin := (hledger.records ref r hlive hins).madeUp k h hk hmade (hown hmade)
      rw [hover] at hin
      cases hin
    · intro ref₀ r₀ hlive₀ hins₀ href₀
      rcases hunknown with hanon | ⟨ref, r, hkey, hr, hover, halloc⟩
      · cases (hok.anonymous hanon).symm.trans href₀
      have hkey₀ := hok.releaseKey_eq hwf hcontexts href₀ hlive₀.1
      rw [hkey₀, hlive₀.2] at hkey
      cases hkey
      rw [hlive₀.1] at hr
      cases hr
      exact ⟨hover, halloc⟩

end Own

theorem Ledger.releases_other (hledger : Ledger cfg i e bcs out) (hwf : WellFormed cfg bcs)
    (hne : alloc.ins.instanceID ≠ i) (hhome : bcs.releasesHome cfg alloc = true)
    (hreleases : Releases cfg bcs alloc bcs') : Ledger cfg i e bcs' out := by
  obtain ⟨el₀, hel₀, helid, -⟩ := hledger.elem
  have helem : ∀ {ref el}, bcs.elems.lookup ref = some el →
      el.ins.instanceID = alloc.ins.instanceID → ref ≠ e := by
    rintro ref el hel hid rfl
    rw [hel₀] at hel
    cases hel
    exact hne (hid.symm.trans helid)
  have hrecord : ∀ {ref r} (r' : SessionRecord) (name : QueueName), alloc.sessionID ≠ "" →
      bcs.sessionMap.lookup (alloc.releaseKey cfg) = some ref → bcs.records.lookup ref = some r →
      r'.sessionID = r.sessionID → getRecordCacheKey cfg r' = getRecordCacheKey cfg r →
      r'.insElem = r.insElem → Ledger cfg i e (bcs.startUnbindInstanceSession name ref r') out := by
    intro ref r r' name hsession hkey hr hid hkey' hins
    obtain ⟨⟨el, hel, hid'⟩, -⟩ := releasesHome_spec hhome hsession hkey hr
    have hnot := helem hel hid'
    obtain ⟨expiring, hrecords⟩ := startUnbindInstanceSession_records bcs name ref r'
    exact hledger.setRecord hwf hr (startUnbindInstanceSession_elems name ref r') hrecords
      (startUnbindInstanceSession_sessionMap name ref r') (nextRef_le_startUnbind name ref r') hid hkey'
      hins (fun h => absurd h hnot) fun h => absurd h hnot
  cases hreleases with
  | nothing => exact hledger
  | @marked name eref el _ r _ _ hsession hkey hr =>
    have hset := hrecord { r with availThdMap := r.availThdMap.insert alloc.allocationID () } name
      hsession hkey hr rfl rfl rfl
    exact hset.refile (hwf.startUnbindInstanceSession name hr rfl rfl) name eref el
  | @agent name eref el _ r _ _ hsession hkey hr =>
    have hset := hrecord { r with overAcqThdMap := r.overAcqThdMap.erase alloc.allocationID } name
      hsession hkey hr rfl rfl rfl
    exact hset.refile (hwf.startUnbindInstanceSession name hr rfl rfl) name eref el
  | @overAcq name eref el ref r hel hid hsession hkey hr =>
    have hwf' : WellFormed cfg (bcs.startUnbindInstanceSession name ref
        { r with overAcqThdMap := r.overAcqThdMap.erase alloc.allocationID }) :=
      hwf.startUnbindInstanceSession name hr rfl rfl
    have hel' : (bcs.startUnbindInstanceSession name ref
        { r with overAcqThdMap := r.overAcqThdMap.erase alloc.allocationID }).elems.lookup eref =
        some el := by
      rw [startUnbindInstanceSession_elems]
      exact hel
    have hins' := el.putThreadToThreadMap_ins alloc.allocationID
    have hset := (hrecord { r with overAcqThdMap := r.overAcqThdMap.erase alloc.allocationID } name
      hsession hkey hr rfl rfl rfl).setElem hwf' hel'
      (congrArg _ hins') (congrArg _ hins') fun h => absurd h (helem hel hid)
    exact hset.refile (hwf'.setElem hel' (congrArg _ hins')) name eref _
  | @put name eref el hel hid =>
    have hins' := el.putThreadToThreadMap_ins alloc.allocationID
    have hset := hledger.setElem hwf hel (congrArg _ hins') (congrArg _ hins')
      fun h => absurd h (helem hel hid)
    exact hset.refile (hwf.setElem hel (congrArg _ hins')) name eref _

end Releases

/-! ### Sessions given up -/

variable {i : String} {e : Nat} {g : Nat}

theorem len_returnThreads_le (el : InstanceElement) (threads : ThreadMap) (order : List String) :
    (returnThreads el threads order).threadMap.len ≤ el.threadMap.len + threads.len ∧
      (returnThreads el threads order).overIssued = el.overIssued := by
  rw [returnThreads_eq, ← length_returnOrder threads order]
  induction (returnOrder threads order) generalizing el with
  | nil => exact ⟨le_rfl, rfl⟩
  | cons x _ ih =>
    obtain ⟨hlen, hissued⟩ := ih (el.putThreadToThreadMap x)
    obtain ⟨hput, hissued'⟩ := el.len_put_le x
    rw [List.foldl_cons, List.length_cons]
    exact ⟨by omega, hissued.trans hissued'⟩

theorem Ledger.giveUp (hledger : Ledger cfg i e bcs out) (hwf : WellFormed cfg bcs)
    (hr : bcs.records.lookup ref = some r) (hel : bcs.elems.lookup r.insElem = some el)
    (hins' : el'.ins = el.ins) (hlen : el'.threadMap.len ≤ el.threadMap.len + r.availThdMap.len)
    (hissued : el'.overIssued = el.overIssued)
    (helems : ∀ e', bcs'.elems.lookup e' = (bcs.elems.insert r.insElem el').lookup e')
    (hrecords : bcs'.records = bcs.records.erase ref)
    (hmap : ∀ key ref', bcs'.sessionMap.lookup key = some ref' → bcs.sessionMap.lookup key = some ref')
    (hnext : bcs.nextRef ≤ bcs'.nextRef) : Ledger cfg i e bcs' out := by
  refine hledger.next_same hwf (.setElem hel (congrArg _ hins') (congrArg _ hins') helems
    (keeps_records_erase hrecords) hnext) (no_new_elems hwf (old_elems_insert hel helems)) ?_ ?_
  · intro el₀ hel₀
    have hsum := unused_erase (e := e) hr hrecords
    unfold SessionRecord.unusedOf at hsum
    rw [helems, lookup_insert_eq_ite]
    by_cases heq : e = r.insElem
    · rw [if_pos heq]
      rw [heq, hel] at hel₀
      cases hel₀
      exact ⟨el', rfl, congrArg _ hins', by omega⟩
    · rw [if_neg heq]
      exact ⟨el₀, hel₀, rfl, by omega⟩
  · intro ref₀ r₀ hlive
    obtain ⟨hr₀, hmap₀⟩ := hlive
    rw [hrecords] at hr₀
    exact hledger.records ref₀ r₀ ⟨lookup_of_erase hr₀, hmap _ _ hmap₀⟩

theorem Ledger.expires (hledger : Ledger cfg i e bcs out) (hwf : WellFormed cfg bcs)
    (hexpires : Expires cfg bcs g u order bcs') : Ledger cfg i e bcs' out := by
  cases hexpires with
  | cancelled hr =>
    exact hledger.setRecord hwf hr rfl rfl rfl le_rfl rfl rfl rfl (fun _ => le_rfl) fun _ h => { h with }
  | blocked => exact hledger.congr hwf rfl rfl rfl le_rfl
  | @expired r el el' hr hidle hel hel' =>
    have hreturned : el'.ins = el.ins ∧ el'.threadMap.len ≤ el.threadMap.len + r.allocThdMap.len ∧
        el'.overIssued = el.overIssued := by
      rw [hel']
      split
      · obtain ⟨hlen, hissued⟩ := len_returnThreads_le el r.allocThdMap order
        exact ⟨returnThreads_ins el r.allocThdMap order, hlen, hissued⟩
      · exact ⟨rfl, Nat.le_add_right _ _, rfl⟩
    obtain ⟨hins', hlen, hissued⟩ := hreturned
    have havail : r.availThdMap.len = r.allocThdMap.len := by
      unfold SessionRecord.idle at hidle
      rw [Bool.and_eq_true, decide_eq_true_eq, decide_eq_true_eq] at hidle
      exact hidle.2
    refine Ledger.refile ?_ ?_ u.insQue r.insElem el'
    · exact hledger.giveUp hwf hr hel hins' (by omega) hissued (fun _ => rfl) rfl
        (fun _ _ => lookup_of_erase) le_rfl
    · exact ((hwf.setElem hel (congrArg _ hins')).eraseRecord hr).setUnbinds fun _ _ =>
        WellFormed.lookup_unbinds_erase
  | stale => exact hledger

end Yuanrong.Concurrency
