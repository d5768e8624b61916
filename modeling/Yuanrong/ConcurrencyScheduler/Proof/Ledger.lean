import Yuanrong.Lib.Counting
import Yuanrong.ConcurrencyScheduler.Proof.ThreadIDs

/-!
# The ledger of an instance's threads

A thread of an instance is free, bound to a session and not in use, or held by an allocation. The
ledger keeps the holders, with what each is counted for: a thread bound to its session, one beyond
those, or one that an agent session made up and that is none of the instance's.
-/

namespace Yuanrong.Concurrency

open AList BasicConcurrencyScheduler

inductive Role
  | plain
  | used
  | overAcq
  | madeUp
deriving DecidableEq

structure Holder where
  alloc : InstanceAllocation
  role : Role
deriving DecidableEq

def Holder.Of (h : Holder) (ref : Nat) (threadID : String) : Prop :=
  h.alloc.sessionCtx = some ref ∧ h.alloc.allocationID = threadID

/-- What the threads that are handed out beyond a session's own are counted for. -/
def overRole (cfg : Config) : Role :=
  if cfg.enableAgentSession then .madeUp else .overAcq

theorem overRole_ne_used (cfg : Config) : overRole cfg ≠ .used := by
  unfold overRole
  split
  all_goals exact Role.noConfusion

structure RecordHeld (cfg : Config) (out : FinMap Nat Holder) (ref : Nat) (r : SessionRecord) : Prop where
  used : ∀ x, (r.allocThdMap.lookup x).isSome = true → r.availThdMap.lookup x = none →
    ∃ k h, out.lookup k = some h ∧ h.role = .used ∧ h.Of ref x
  overAcq : ∀ x, (r.overAcqThdMap.lookup x).isSome = true →
    ∃ k h, out.lookup k = some h ∧ h.role = overRole cfg ∧ h.Of ref x
  madeUp : ∀ k h, out.lookup k = some h → h.role = .madeUp → h.alloc.sessionCtx = some ref →
    (r.overAcqThdMap.lookup h.alloc.allocationID).isSome = true
  unique : ∀ k k' h h', out.lookup k = some h → out.lookup k' = some h' → h.role = .madeUp →
    h'.role = .madeUp → h.alloc.sessionCtx = some ref → h'.alloc.sessionCtx = some ref → k = k'

variable {ref : Nat} {r : SessionRecord}

theorem RecordHeld.of_lookup (hheld : RecordHeld cfg out ref r)
    (hkeep : ∀ k h x, out.lookup k = some h → h.Of ref x → out'.lookup k = some h)
    (hold : ∀ k h, out'.lookup k = some h → h.role = .madeUp → h.alloc.sessionCtx = some ref →
      out.lookup k = some h) :
    RecordHeld cfg out' ref r where
  used x hx hfree := by
    obtain ⟨k, h, hk, hrole, hof⟩ := hheld.used x hx hfree
    exact ⟨k, h, hkeep k h x hk hof, hrole, hof⟩
  overAcq x hx := by
    obtain ⟨k, h, hk, hrole, hof⟩ := hheld.overAcq x hx
    exact ⟨k, h, hkeep k h x hk hof, hrole, hof⟩
  madeUp k h hk hrole href := hheld.madeUp k h (hold k h hk hrole href) hrole href
  unique k k' h h' hk hk' hrole hrole' href href' :=
    hheld.unique k k' h h' (hold k h hk hrole href) (hold k' h' hk' hrole' href') hrole hrole' href href'

def contextOf (cfg : Config) (ins : Instance) : String :=
  if cfg.enableSessionCtx then ins.sessionCtxID.getD "" else ""

def Live (cfg : Config) (bcs : BasicConcurrencyScheduler) (ref : Nat) (r : SessionRecord) : Prop :=
  bcs.records.lookup ref = some r ∧ bcs.sessionMap.lookup (getRecordCacheKey cfg r) = some ref

def BasicConcurrencyScheduler.unused (bcs : BasicConcurrencyScheduler) (e : Nat) : ℤ :=
  bcs.records.total fun _ r => if r.insElem = e then (r.availThdMap.len : ℤ) else 0

def held (out : FinMap Nat Holder) : ℤ := out.count fun _ h => h.role ≠ .madeUp

/-- A holder of a thread of the instance `i`, whose element is at `e`. -/
structure HolderOk (cfg : Config) (i : String) (e : Nat) (bcs : BasicConcurrencyScheduler)
    (h : Holder) : Prop where
  ofInstance : h.alloc.ins.instanceID = i
  context : ∀ el, bcs.elems.lookup e = some el → contextOf cfg h.alloc.ins = contextOf cfg el.ins
  session : ∀ ref, h.alloc.sessionCtx = some ref → ref < bcs.nextRef ∧
    ∀ r, bcs.records.lookup ref = some r → h.alloc.sessionID = r.sessionID ∧ r.insElem = e
  anonymous : h.alloc.sessionID = "" → h.alloc.sessionCtx = none
  real : cfg.enableAgentSession = false ∨ h.alloc.sessionCtx = none → h.role ≠ .madeUp

/-- The ledger `out` of the instance `i`, whose element is at `e`. -/
structure Ledger (cfg : Config) (i : String) (e : Nat) (bcs : BasicConcurrencyScheduler)
    (out : FinMap Nat Holder) : Prop where
  elem : ∃ el, bcs.elems.lookup e = some el ∧ el.ins.instanceID = i ∧
    el.threadMap.len + bcs.unused e + held out ≤ el.ins.concurrentNum.toNat + el.overIssued
  sole : ∀ e' el', bcs.elems.lookup e' = some el' → el'.ins.instanceID = i → e' = e
  holders : ∀ k h, out.lookup k = some h → HolderOk cfg i e bcs h
  records : ∀ ref r, Live cfg bcs ref r → r.insElem = e → RecordHeld cfg out ref r

structure Keeps (cfg : Config) (bcs bcs' : BasicConcurrencyScheduler) : Prop where
  nextRef : bcs.nextRef ≤ bcs'.nextRef
  elems : ∀ e el', bcs'.elems.lookup e = some el' → e < bcs.nextRef →
    ∃ el, bcs.elems.lookup e = some el ∧ el'.ins.instanceID = el.ins.instanceID ∧
      contextOf cfg el'.ins = contextOf cfg el.ins
  records : ∀ ref r', bcs'.records.lookup ref = some r' → ref < bcs.nextRef →
    ∃ r, bcs.records.lookup ref = some r ∧ r'.sessionID = r.sessionID ∧ r'.insElem = r.insElem

def RecordsKept (bcs bcs' : BasicConcurrencyScheduler) : Prop :=
  ∀ ref r', bcs'.records.lookup ref = some r' → ref < bcs.nextRef →
    ∃ r, bcs.records.lookup ref = some r ∧ r'.sessionID = r.sessionID ∧ r'.insElem = r.insElem

namespace Keeps

variable {cfg : Config} {bcs bcs' : BasicConcurrencyScheduler}

theorem setElem (hel : bcs.elems.lookup ref = some el) (hid : el'.ins.instanceID = el.ins.instanceID)
    (hcontext : contextOf cfg el'.ins = contextOf cfg el.ins)
    (helems : ∀ e, bcs'.elems.lookup e = (bcs.elems.insert ref el').lookup e)
    (hrecords : RecordsKept bcs bcs') (hnext : bcs.nextRef ≤ bcs'.nextRef) : Keeps cfg bcs bcs' where
  nextRef := hnext
  elems := by
    intro e el₀ hel₀ _
    rw [helems] at hel₀
    rcases lookup_of_insert hel₀ with ⟨rfl, rfl⟩ | hold
    · exact ⟨el, hel, hid, hcontext⟩
    · exact ⟨el₀, hold, rfl, rfl⟩
  records := hrecords

theorem of_same (helems : bcs'.elems = bcs.elems)
    (hrecords : RecordsKept bcs bcs') (hnext : bcs.nextRef ≤ bcs'.nextRef) : Keeps cfg bcs bcs' where
  nextRef := hnext
  elems := by
    rw [helems]
    exact fun e el hel _ => ⟨el, hel, rfl, rfl⟩
  records := hrecords

end Keeps

variable {bcs bcs' : BasicConcurrencyScheduler}

theorem keeps_records_same (hrecords : bcs'.records = bcs.records) : RecordsKept bcs bcs' :=
  fun _ r' hr _ => ⟨r', hrecords ▸ hr, rfl, rfl⟩

theorem keeps_records_insert (hr : bcs.records.lookup ref = some r)
    (hrecords : bcs'.records = bcs.records.insert ref r') (hid : r'.sessionID = r.sessionID)
    (hins : r'.insElem = r.insElem) : RecordsKept bcs bcs' := by
  intro ref₀ r₀ hr₀ _
  rw [hrecords] at hr₀
  rcases lookup_of_insert hr₀ with ⟨rfl, rfl⟩ | hold
  · exact ⟨r, hr, hid, hins⟩
  · exact ⟨r₀, hold, rfl, rfl⟩

theorem keeps_records_erase (hrecords : bcs'.records = bcs.records.erase ref) : RecordsKept bcs bcs' := by
  intro ref₀ r₀ hr₀ _
  rw [hrecords] at hr₀
  exact ⟨r₀, lookup_of_erase hr₀, rfl, rfl⟩

variable {cfg : Config} {i : String} {e : Nat}

theorem HolderOk.keeps (hok : HolderOk cfg i e bcs h)
    (hkeeps : Keeps cfg bcs bcs') (he : e < bcs.nextRef) : HolderOk cfg i e bcs' h :=
  { hok with
    context := by
      intro el' hel'
      obtain ⟨el, hel, -, hcontext⟩ := hkeeps.elems e el' hel' he
      exact (hok.context el hel).trans hcontext.symm
    session := by
      intro ref href
      obtain ⟨hlt, hrecord⟩ := hok.session ref href
      refine ⟨hlt.trans_le hkeeps.nextRef, ?_⟩
      intro r' hr'
      obtain ⟨r, hr, hid, hins⟩ := hkeeps.records ref r' hr' hlt
      obtain ⟨hid₀, hins₀⟩ := hrecord r hr
      exact ⟨hid₀.trans hid.symm, hins.trans hins₀⟩ }

section Unused

variable {bcs : BasicConcurrencyScheduler} {e : Nat}

def SessionRecord.unusedOf (r : SessionRecord) (e : Nat) : ℤ :=
  if r.insElem = e then (r.availThdMap.len : ℤ) else 0

theorem unused_congr (hrecords : bcs'.records = bcs.records) : bcs'.unused e = bcs.unused e := by
  unfold unused
  rw [hrecords]

theorem unused_insert (hr : bcs.records.lookup ref = some r)
    (hrecords : bcs'.records = bcs.records.insert ref r') :
    bcs'.unused e + r.unusedOf e = bcs.unused e + r'.unusedOf e := by
  unfold unused
  rw [hrecords]
  exact total_insert_add bcs.records (fun _ r => if r.insElem = e then (r.availThdMap.len : ℤ) else 0) r' hr

theorem unused_insert_new (hr : bcs.records.lookup ref = none)
    (hrecords : bcs'.records = bcs.records.insert ref r) : bcs'.unused e = bcs.unused e + r.unusedOf e := by
  unfold unused
  rw [hrecords]
  exact total_insert_of_none bcs.records _ r hr

theorem unused_erase (hr : bcs.records.lookup ref = some r)
    (hrecords : bcs'.records = bcs.records.erase ref) :
    bcs'.unused e + r.unusedOf e = bcs.unused e := by
  unfold unused
  rw [hrecords]
  exact total_erase_add bcs.records (fun _ r => if r.insElem = e then (r.availThdMap.len : ℤ) else 0) hr

end Unused

variable {out : FinMap Nat Holder} {h : Holder}

theorem held_erase (hk : out.lookup k = some h) (hrole : h.role ≠ .madeUp) :
    held (out.erase k) + 1 = held out := by
  unfold held
  rw [count_erase, hk, Option.elim_some, if_pos hrole, sub_add_cancel]

theorem held_insert_real (hk : out.lookup k = some h) (hrole' : h'.role ≠ .madeUp) :
    held (out.insert k h') = held out + if h.role = .madeUp then 1 else 0 := by
  unfold held
  rw [count_insert, hk, Option.elim_some, if_pos hrole']
  by_cases hrole : h.role = .madeUp
  · rw [if_neg (not_not_intro hrole), if_pos hrole, sub_zero]
  · rw [if_pos hrole, if_neg hrole, sub_add_cancel, add_zero]

section Next

variable {cfg : Config} {i : String} {e : Nat} {bcs : BasicConcurrencyScheduler}
  {out : FinMap Nat Holder}

section

variable (hledger : Ledger cfg i e bcs out) (hwf : WellFormed cfg bcs)
include hledger hwf

theorem Ledger.elem_lt : e < bcs.nextRef := by
  obtain ⟨el, hel, -⟩ := hledger.elem
  exact hwf.elemRef e el hel

theorem Ledger.next (hkeeps : Keeps cfg bcs bcs')
    (hnew : ∀ e' el', bcs'.elems.lookup e' = some el' → bcs.nextRef ≤ e' → el'.ins.instanceID ≠ i)
    (hbalance : ∀ el, bcs.elems.lookup e = some el → ∃ el', bcs'.elems.lookup e = some el' ∧
      el'.ins.concurrentNum = el.ins.concurrentNum ∧
      el'.threadMap.len + bcs'.unused e + held out' + el.overIssued ≤
        el.threadMap.len + bcs.unused e + held out + el'.overIssued)
    (hholders : ∀ k h, out'.lookup k = some h → HolderOk cfg i e bcs' h)
    (hrecords : ∀ ref r, Live cfg bcs' ref r → r.insElem = e → RecordHeld cfg out' ref r) :
    Ledger cfg i e bcs' out' where
  elem := by
    obtain ⟨el, hel, hid, hle⟩ := hledger.elem
    obtain ⟨el', hel', hnum, hle'⟩ := hbalance el hel
    obtain ⟨el₀, hel₀, hid₀, -⟩ := hkeeps.elems e el' hel' (hledger.elem_lt hwf)
    rw [hel] at hel₀
    cases hel₀
    refine ⟨el', hel', hid₀.trans hid, ?_⟩
    omega
  sole := by
    intro e' el' hel' hid'
    by_cases hlt : e' < bcs.nextRef
    · obtain ⟨el, hel, hid, -⟩ := hkeeps.elems e' el' hel' hlt
      exact hledger.sole e' el hel (hid.symm.trans hid')
    · exact absurd hid' (hnew e' el' hel' (not_lt.mp hlt))
  holders := hholders
  records := hrecords

theorem Ledger.next_same (hkeeps : Keeps cfg bcs bcs')
    (hnew : ∀ e' el', bcs'.elems.lookup e' = some el' → bcs.nextRef ≤ e' → el'.ins.instanceID ≠ i)
    (hbalance : ∀ el, bcs.elems.lookup e = some el → ∃ el', bcs'.elems.lookup e = some el' ∧
      el'.ins.concurrentNum = el.ins.concurrentNum ∧ el'.threadMap.len + bcs'.unused e + el.overIssued ≤
        el.threadMap.len + bcs.unused e + el'.overIssued)
    (hrecords : ∀ ref r, Live cfg bcs' ref r → r.insElem = e → RecordHeld cfg out ref r) :
    Ledger cfg i e bcs' out := by
  refine hledger.next hwf hkeeps hnew ?_ ?_ hrecords
  · intro el hel
    obtain ⟨el', hel', hnum, hle⟩ := hbalance el hel
    exact ⟨el', hel', hnum, by omega⟩
  · exact fun k h hk => (hledger.holders k h hk).keeps hkeeps (hledger.elem_lt hwf)

end

theorem no_new_elems (hwf : WellFormed cfg bcs)
    (hold : ∀ e' el', bcs'.elems.lookup e' = some el' → ∃ el, bcs.elems.lookup e' = some el) (e' : Nat)
    (el' : InstanceElement) (hel' : bcs'.elems.lookup e' = some el') (hle : bcs.nextRef ≤ e') :
    el'.ins.instanceID ≠ i := by
  obtain ⟨el, hel⟩ := hold e' el' hel'
  exact absurd (hwf.elemRef e' el hel) (not_lt.mpr hle)

theorem old_elems_insert (hel : bcs.elems.lookup ref = some el)
    (helems : ∀ e, bcs'.elems.lookup e = (bcs.elems.insert ref el').lookup e) (e' : Nat)
    (el₀ : InstanceElement) (hel₀ : bcs'.elems.lookup e' = some el₀) :
    ∃ el, bcs.elems.lookup e' = some el := by
  rw [helems] at hel₀
  rcases lookup_of_insert hel₀ with ⟨rfl, -⟩ | hold
  · exact ⟨el, hel⟩
  · exact ⟨el₀, hold⟩

end Next

end Yuanrong.Concurrency
