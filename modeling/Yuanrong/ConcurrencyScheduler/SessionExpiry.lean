import Yuanrong.ConcurrencyScheduler.Proof.Tidy

/-!
# An idle session has its expiry pending

Each record has at most one goroutine that gives it up, and has one exactly while `expiring` is set.
The goroutine, the flag and the cancel token agree as long as nobody uses the session while a
cancellation is under way.
-/

namespace Yuanrong.Concurrency

open AList Option Bool SessionRecord BasicConcurrencyScheduler List

/-! ### The invariant -/

def UnbindPc.Fits : UnbindPc → SessionRecord → Prop
  | .selecting, r => r.idle = !r.expireCancelCh
  | .timerFired, r => r.idle = !r.expireCancelCh
  | .cancelled, r => r.expireCancelCh = false ∧ r.idle = false
  | .blocked, _ => False

structure Attended (bcs : BasicConcurrencyScheduler) : Prop where
  recorded : ∀ g u, bcs.unbinds.lookup g = some u →
    ∃ r, bcs.records.lookup u.record = some r ∧ r.expiring = true ∧ u.pc.Fits r
  unique : ∀ g g' u u', bcs.unbinds.lookup g = some u → bcs.unbinds.lookup g' = some u' →
    u.record = u'.record → g = g'
  watched : ∀ ref r, bcs.records.lookup ref = some r → r.expiring = true →
    ∃ g u, bcs.unbinds.lookup g = some u ∧ u.record = ref
  quiet : ∀ ref r, bcs.records.lookup ref = some r → r.expiring = false →
    r.expireCancelCh = false ∧ (r.released = true → r.idle = false)
  contained : ∀ ref r x, bcs.records.lookup ref = some r →
    (r.availThdMap.lookup x).isSome = true → (r.allocThdMap.lookup x).isSome = true

namespace SessionRecord

variable {r r' : SessionRecord}

def Contained (r : SessionRecord) : Prop :=
  ∀ x, (r.availThdMap.lookup x).isSome = true → (r.allocThdMap.lookup x).isSome = true

theorem avail_sub (hcontained : r.Contained) (x : String) (v : Unit) (hx : r.availThdMap.lookup x = some v) :
    ∃ w, r.allocThdMap.lookup x = some w :=
  isSome_iff_exists.mp (hcontained x (by rw [hx]; rfl))

theorem idle_iff : r.idle = true ↔ r.overAcqThdMap.len = 0 ∧ r.availThdMap.len = r.allocThdMap.len := by
  unfold idle
  rw [and_eq_true, decide_eq_true_eq, decide_eq_true_eq]

theorem idle_eq_false_iff : r.idle = false ↔
    r.overAcqThdMap.len ≠ 0 ∨ r.availThdMap.len ≠ r.allocThdMap.len := by
  rw [← not_eq_true, idle_iff, not_and_or]

section

variable (hcontained : r.Contained) (hidle : r.idle = true)
include hcontained hidle

theorem not_exhausted_of_idle (halloc : r.allocThdMap.len ≠ 0) : ¬ r.Exhausted := by
  obtain ⟨-, hlen⟩ := idle_iff.mp hidle
  rintro (hzero | ⟨x, hused, hfree⟩)
  · omega
  obtain ⟨v, hv⟩ := isSome_iff_exists.mp hused
  obtain ⟨w, hw⟩ := lookup_of_len_le (avail_sub hcontained) hlen.ge hv
  rw [hw] at hfree
  cases hfree

end

variable {designateThreadID threadID : String}

section

variable (htakes : r.Takes designateThreadID threadID r')
include htakes

section

variable (hcontained : r.Contained)
include hcontained

theorem Takes.idle : r'.idle = false := by
  have hle : r.availThdMap.len ≤ r.allocThdMap.len := len_le_of_lookup (avail_sub hcontained)
  obtain ⟨y, hy, ⟨-, rfl⟩ | ⟨-, -, hnew, rfl⟩⟩ := htakes
  · have hlen := len_erase_of_some hy
    refine idle_eq_false_iff.mpr (.inr ?_)
    dsimp only
    omega
  · have hlen := len_erase_of_some hy
    refine idle_eq_false_iff.mpr (.inr ?_)
    have hnone : (r.allocThdMap.erase y).lookup designateThreadID = none := by
      rw [lookup_erase_eq_ite, hnew, ite_self]
    have hgrow := len_insert_of_none () hnone
    have hshrink := r.allocThdMap.len_le_erase y
    dsimp only
    omega

theorem Takes.contained (x : String) (hx : (r'.availThdMap.lookup x).isSome = true) :
    (r'.allocThdMap.lookup x).isSome = true := by
  obtain ⟨y, hy, ⟨-, rfl⟩ | ⟨-, -, hnew, rfl⟩⟩ := htakes
  · obtain ⟨v, hv⟩ := isSome_iff_exists.mp hx
    exact hcontained x (by rw [lookup_of_erase hv]; rfl)
  rw [lookup_erase_eq_ite] at hx
  rw [lookup_insert_eq_ite, lookup_erase_eq_ite]
  split at hx
  · cases hx
  case isFalse hne =>
    split
    · rfl
    · exact hcontained x hx

end

theorem Takes.flags :
    r'.expiring = r.expiring ∧ r'.expireCancelCh = r.expireCancelCh ∧ r'.released = r.released ∧
      r'.sessionID = r.sessionID := by
  obtain ⟨y, hy, ⟨-, rfl⟩ | ⟨-, -, hnew, rfl⟩⟩ := htakes
  all_goals exact ⟨rfl, rfl, rfl, rfl⟩

end

end SessionRecord

variable {ref : Nat} {e : Event} {r : SessionRecord} {alloc : InstanceAllocation}

namespace Attended

variable {cfg : Config} {bcs bcs' : BasicConcurrencyScheduler}

theorem fits (hatt : Attended bcs) (hu : bcs.unbinds.lookup g = some u)
    (hr : bcs.records.lookup u.record = some r) : r.expiring = true ∧ u.pc.Fits r := by
  obtain ⟨r₀, hr₀, hfits⟩ := hatt.recorded g u hu
  rw [hr] at hr₀
  cases hr₀
  exact hfits

theorem congr (hatt : Attended bcs) (hrecords : ∀ ref, bcs'.records.lookup ref = bcs.records.lookup ref)
    (hunbinds : bcs'.unbinds = bcs.unbinds) : Attended bcs' where
  recorded := by
    rw [hunbinds]
    intro g u hu
    rw [hrecords]
    exact hatt.recorded g u hu
  unique := by
    rw [hunbinds]
    exact hatt.unique
  watched := by
    rw [hunbinds]
    intro ref r hr
    rw [hrecords] at hr
    exact hatt.watched ref r hr
  quiet := by
    intro ref r hr
    rw [hrecords] at hr
    exact hatt.quiet ref r hr
  contained := by
    intro ref r x hr
    rw [hrecords] at hr
    exact hatt.contained ref r x hr

theorem setRecord (hatt : Attended bcs)
    (hr : bcs.records.lookup ref = some r) (hexpiring : r'.expiring = r.expiring)
    (hfits : ∀ pc : UnbindPc, r.expiring = true → pc.Fits r → pc.Fits r')
    (hquiet : r.expiring = false → r'.expireCancelCh = false ∧ (r'.released = true → r'.idle = false))
    (hcontained : r'.Contained) : Attended (bcs.setRecord ref r') where
  recorded := by
    intro g u hu
    obtain ⟨r₀, hr₀, hexp₀, hfits₀⟩ := hatt.recorded g u hu
    by_cases heq : u.record = ref
    · subst heq
      obtain rfl : r₀ = r := Option.some.inj (hr₀.symm.trans hr)
      exact ⟨r', lookup_insert bcs.records, hexpiring.trans hexp₀, hfits u.pc hexp₀ hfits₀⟩
    · exact ⟨r₀, (lookup_insert_ne heq).trans hr₀, hexp₀, hfits₀⟩
  unique := hatt.unique
  watched := by
    exact forall_lookup_insert (fun hexp₀ => hatt.watched _ r hr (hexpiring.symm.trans hexp₀)) hatt.watched
  quiet := by
    exact forall_lookup_insert (fun hexp₀ => hquiet (hexpiring.symm.trans hexp₀)) hatt.quiet
  contained := by
    intro ref' r₀ x hr₀
    rcases lookup_of_insert hr₀ with ⟨rfl, rfl⟩ | hold
    · exact hcontained x
    · exact hatt.contained ref' r₀ x hold

theorem addRecord (hatt : Attended bcs) (hwf : WellFormed cfg bcs)
    (hrecords : bcs'.records = bcs.records.insert bcs.nextRef r) (hunbinds : bcs'.unbinds = bcs.unbinds)
    (hexpiring : r.expiring = false) (htoken : r.expireCancelCh = false)
    (hreleased : r.released = false) (hthreads : r.allocThdMap = r.availThdMap) : Attended bcs' where
  recorded := by
    rw [hunbinds, hrecords]
    intro g u hu
    obtain ⟨r₀, hr₀, hfits₀⟩ := hatt.recorded g u hu
    have hne : u.record ≠ bcs.nextRef := (hwf.recordRef _ _ hr₀).ne
    exact ⟨r₀, (lookup_insert_ne hne).trans hr₀, hfits₀⟩
  unique := by
    rw [hunbinds]
    exact hatt.unique
  watched := by
    rw [hunbinds, hrecords]
    exact forall_lookup_insert (fun hexp₀ => absurd (hexpiring.symm.trans hexp₀) false_ne_true) hatt.watched
  quiet := by
    rw [hrecords]
    exact forall_lookup_insert
      (fun hexp₀ => ⟨htoken, fun h => absurd (hreleased.symm.trans h) false_ne_true⟩) hatt.quiet
  contained := by
    rw [hrecords]
    intro ref r₀ x hr₀ hx
    rcases lookup_of_insert hr₀ with ⟨-, rfl⟩ | hold
    · rw [hthreads]
      exact hx
    · exact hatt.contained ref r₀ x hold hx

theorem startUnbindInstanceSession (hatt : Attended bcs) (hwf : WellFormed cfg bcs)
    (name : QueueName) (hr : bcs.records.lookup ref = some r)
    (hexpiring : r'.expiring = r.expiring) (htoken : r'.expireCancelCh = r.expireCancelCh)
    (hcalm : r.expiring = true → r.idle = true ∧ r'.idle = true) (hcontained : r'.Contained) :
    Attended (bcs.startUnbindInstanceSession name ref r') := by
  unfold BasicConcurrencyScheduler.startUnbindInstanceSession
  dsimp only
  have hidle' : { r' with released := true }.idle = r'.idle := rfl
  rw [hidle']
  split
  case isTrue hstart =>
    obtain ⟨hidle, hnot⟩ := and_eq_true_iff.mp hstart
    have hexp : r.expiring = false := by
      rw [← hexpiring]
      simpa using hnot
    have hfree := (hatt.quiet ref r hr hexp).1
    -- a goroutine of this record would have found it expiring
    have hnone : ∀ g u, bcs.unbinds.lookup g = some u → u.record ≠ ref := by
      rintro g u hu rfl
      exact absurd (hexp.symm.trans (hatt.fits hu hr).1) false_ne_true
    exact
      { recorded := by
          refine forall_lookup_insert ?_ fun g u hold => ?_
          · refine ⟨_, lookup_insert bcs.records, rfl, ?_⟩
            change r'.idle = !r'.expireCancelCh
            rw [hidle, htoken, hfree]
            rfl
          · obtain ⟨r₀, hr₀, hfits₀⟩ := hatt.recorded g u hold
            exact ⟨r₀, (lookup_insert_ne (hnone g u hold)).trans hr₀, hfits₀⟩
        unique := by
          intro g g' u u' hu hu' heq
          rcases lookup_of_insert hu with ⟨rfl, rfl⟩ | hold
          · rcases lookup_of_insert hu' with ⟨rfl, -⟩ | hold'
            · rfl
            · exact absurd heq.symm (hnone g' u' hold')
          · rcases lookup_of_insert hu' with ⟨rfl, rfl⟩ | hold'
            · exact absurd heq (hnone g u hold)
            · exact hatt.unique g g' u u' hold hold' heq
        watched := by
          intro ref' r₀ hr₀ hexp₀
          rcases lookup_of_insert hr₀ with ⟨rfl, -⟩ | hold
          · exact ⟨bcs.nextRef, _, lookup_insert bcs.unbinds, rfl⟩
          obtain ⟨g, u, hu, hrec⟩ := hatt.watched ref' r₀ hold hexp₀
          have hne : g ≠ bcs.nextRef := (hwf.unbindRef g u hu).ne
          exact ⟨g, u, (lookup_insert_ne hne).trans hu, hrec⟩
        quiet := by
          intro ref' r₀ hr₀ hexp₀
          rcases lookup_of_insert hr₀ with ⟨rfl, rfl⟩ | hold
          · cases hexp₀
          · exact hatt.quiet ref' r₀ hold hexp₀
        contained := by
          intro ref' r₀ x hr₀
          rcases lookup_of_insert hr₀ with ⟨rfl, rfl⟩ | hold
          · exact hcontained x
          · exact hatt.contained ref' r₀ x hold }
  case isFalse hstart =>
    refine hatt.setRecord hr hexpiring ?_ ?_ hcontained
    · intro pc hexp hfits
      obtain ⟨hidle, hidle'⟩ := hcalm hexp
      cases pc with
      | selecting | timerFired =>
        change r'.idle = !r'.expireCancelCh
        rw [hidle', htoken, ← hidle]
        exact hfits
      | cancelled => exact absurd (hidle.symm.trans hfits.2) (by decide)
      | blocked => exact hfits.elim
    · intro hexp
      refine ⟨htoken.trans (hatt.quiet ref r hr hexp).1, fun _ => ?_⟩
      rw [hexpiring, hexp] at hstart
      change r'.idle = false
      simpa using hstart

end Attended

/-! ### Acquire -/

/-- The session asked for can be used: if its expiry is pending, it is idle and no cancellation is
under way. -/
structure Ready (cfg : Config) (d : Demand) (bcs : BasicConcurrencyScheduler) : Prop where
  attended : Attended bcs
  session : ∀ ref r, bcs.sessionMap.lookup (d.cacheKey cfg) = some ref →
    bcs.records.lookup ref = some r → r.expiring = true → r.idle = true ∧ r.allocThdMap.len ≠ 0

section Acquire

variable {cfg : Config} {d : Demand} {bcs bcs' : BasicConcurrencyScheduler}

variable {r : SessionRecord}

section

variable (hready : Ready cfg d bcs) (hwf : WellFormed cfg bcs)
include hready hwf

theorem Ready.signalled (hkey : bcs.sessionMap.lookup (d.cacheKey cfg) = some ref)
    (hr : bcs.records.lookup ref = some r)
    (hreason : r.Exhausted ∨ bcs.elems.lookup r.insElem = none) : r.signalled = r := by
  have hexp : r.expiring = false := by
    cases hexp : r.expiring with
    | false => rfl
    | true =>
      obtain ⟨hidle, halloc⟩ := hready.session ref r hkey hr hexp
      rcases hreason with hexhausted | hnone
      · exact absurd hexhausted (not_exhausted_of_idle
          (fun x => hready.attended.contained ref r x hr) hidle halloc)
      obtain ⟨el, hel⟩ := hwf.bound ref r hr
      rw [hnone] at hel
      cases hel
  have htoken : (r.expireCancelCh || r.expiring) = r.expireCancelCh := by rw [hexp, Bool.or_false]
  unfold SessionRecord.signalled
  rw [htoken]

theorem Ready.prepares (hprep : Prepares cfg d bcs bcs') : Ready cfg d bcs' := by
  cases hprep with
  | refile =>
    refine ⟨hready.attended.congr (fun ref => ?_) (refile_unbinds _ _ _ _), ?_⟩
    · rw [refile_records]
    · rw [refile_records, refile_sessionMap]
      exact hready.session
  | lose => exact ⟨hready.attended.congr (fun _ => rfl) rfl, hready.session⟩
  | drop =>
    exact ⟨hready.attended.congr (fun _ => rfl) rfl,
      fun ref r hkey => hready.session ref r (lookup_of_erase hkey)⟩
  | bind =>
    refine ⟨hready.attended.addRecord hwf (bindTo_records _ _ _ _ _) (bindTo_unbinds _ _ _ _ _)
      rfl rfl rfl rfl, ?_⟩
    intro ref' r' hkey hr' hexp
    rw [bindTo_sessionMap] at hkey
    rw [bindTo_records] at hr'
    rcases lookup_of_insert hr' with ⟨-, rfl⟩ | hold
    · cases hexp
    rcases lookup_of_insert hkey with ⟨-, rfl⟩ | holdkey
    · exact absurd (hwf.recordRef _ _ hold) (Nat.lt_irrefl _)
    · exact hready.session ref' r' holdkey hold hexp
  | @signal ref r hkey hr hreason =>
    have hsame : ∀ ref', (bcs.setRecord ref r.signalled).records.lookup ref' = bcs.records.lookup ref' := by
      intro ref'
      rw [hready.signalled hwf hkey hr hreason]
      exact lookup_insert_self hr ref'
    refine ⟨hready.attended.congr hsame rfl, ?_⟩
    intro ref' r' hkey' hr'
    rw [hsame] at hr'
    exact hready.session ref' r' hkey' hr'

theorem Ready.reflTransGen_prepares
    (hprep : Prepared cfg d bcs bcs') : Ready cfg d bcs' := by
  induction hprep with
  | refl => exact hready
  | tail hrest hlast ih => exact ih.prepares (hwf.reflTransGen_prepares hrest) hlast

end

theorem signalled_contained (hatt : Attended bcs) (hr : bcs.records.lookup ref = some r)
    (x : String) (hx : (r.signalled.availThdMap.lookup x).isSome = true) :
    (r.signalled.allocThdMap.lookup x).isSome = true :=
  hatt.contained ref r x hr hx

theorem Attended.overAcquire (hatt : Attended bcs) (hr : bcs.records.lookup ref = some r)
    (hexp : r.expiring = false) (threadID : String) :
    Attended (bcs.setRecord ref { r with overAcqThdMap := r.overAcqThdMap.insert threadID () }) := by
  refine hatt.setRecord hr rfl ?_ ?_ fun x => hatt.contained ref r x hr
  · intro pc hexp'
    exact absurd (hexp.symm.trans hexp') false_ne_true
  intro _
  refine ⟨(hatt.quiet ref r hr hexp).1, fun _ => idle_eq_false_iff.mpr (.inl ?_)⟩
  exact Nat.succ_ne_zero _

/-- The token is sent exactly when the session goes from idle to busy under a pending expiry. -/
theorem Ready.obtains (hready : Ready cfg d bcs) (hobtains : Obtains cfg d bcs alloc bcs') :
    Attended bcs' := by
  have hatt := hready.attended
  have hbusy : ∀ {ref r}, bcs.sessionMap.lookup (d.cacheKey cfg) = some ref →
      bcs.records.lookup ref = some r → r.availThdMap.len = 0 → r.expiring = false := by
    intro ref r hkey hr havail
    cases hexp : r.expiring with
    | false => rfl
    | true =>
      obtain ⟨hidle, halloc⟩ := hready.session ref r hkey hr hexp
      have hlen := (idle_iff.mp hidle).2
      omega
  cases hobtains with
  | plain =>
    refine hatt.congr (fun ref => ?_) (refile_unbinds (bcs.setElem _ _) _ _ _)
    rw [refile_records]
    rfl
  | @session ref r r' _ _ hkey hr _ htakes =>
    obtain ⟨hexp', htoken', hrel', -⟩ := htakes.flags
    have hidle' := htakes.idle (signalled_contained hatt hr)
    refine hatt.setRecord hr hexp' ?_ ?_ (htakes.contained (signalled_contained hatt hr))
    · intro pc hexp hfits
      obtain ⟨hidle, -⟩ := hready.session ref r hkey hr hexp
      have htoken : r'.expireCancelCh = true := by
        rw [htoken']
        change (r.expireCancelCh || r.expiring) = true
        rw [hexp, Bool.or_true]
      cases pc with
      | selecting | timerFired =>
        change r'.idle = !r'.expireCancelCh
        rw [hidle', htoken]
        rfl
      | cancelled => exact absurd (hidle.symm.trans hfits.2) (by decide)
      | blocked => exact hfits.elim
    · intro hexp
      refine ⟨?_, fun _ => hidle'⟩
      rw [htoken']
      change (r.expireCancelCh || r.expiring) = false
      rw [hexp, Bool.or_false]
      exact (hatt.quiet ref r hr hexp).1
  | @overAcq name ref r el pick threadID hkey hr havail =>
    have htaken : Attended ((bcs.setElem r.insElem (el.taken pick)).refile name r.insElem
        (el.taken pick)) := by
      refine hatt.congr (fun ref => ?_) (refile_unbinds (bcs.setElem _ _) _ _ _)
      rw [refile_records]
      rfl
    refine htaken.overAcquire ?_ (hbusy hkey hr havail) threadID
    rw [refile_records]
    exact hr
  | @agent _ _ _ threadID hkey hr havail => exact hatt.overAcquire hr (hbusy hkey hr havail) threadID

end Acquire

/-! ### Release and expiry -/

section Release

variable {cfg : Config} {bcs bcs' : BasicConcurrencyScheduler} {alloc : InstanceAllocation}

theorem Attended.refile (hatt : Attended bcs) (name : QueueName) (ref : Nat) (el : InstanceElement) :
    Attended (bcs.refile name ref el) := by
  refine hatt.congr (fun ref' => ?_) (refile_unbinds _ _ _ _)
  rw [refile_records]

theorem Attended.setElem (hatt : Attended bcs) (ref : Nat) (el : InstanceElement) :
    Attended (bcs.setElem ref el) :=
  hatt.congr (fun _ => rfl) rfl

theorem Attended.releases (hatt : Attended bcs) (hwf : WellFormed cfg bcs)
    (hcalm : ∀ ref r, alloc.sessionID ≠ "" → bcs.sessionMap.lookup (alloc.releaseKey cfg) = some ref →
      bcs.records.lookup ref = some r → r.expiring = true → r.idle = true)
    (hreleases : Releases cfg bcs alloc bcs') : Attended bcs' := by
  -- a session with a thread beyond its own is not idle, so its expiry is not pending
  have hover : ∀ {ref r}, alloc.sessionID ≠ "" → bcs.sessionMap.lookup (alloc.releaseKey cfg) = some ref →
      bcs.records.lookup ref = some r →
      (r.overAcqThdMap.lookup alloc.allocationID).isSome = true → r.expiring = false := by
    intro ref r hsession hkey hr hx
    cases hexp : r.expiring with
    | false => rfl
    | true =>
      have hidle := hcalm ref r hsession hkey hr hexp
      have hzero := (idle_iff.mp hidle).1
      obtain ⟨v, hv⟩ := isSome_iff_exists.mp hx
      have hlen := len_erase_of_some hv
      omega
  cases hreleases with
  | nothing => exact hatt
  | @marked name eref el ref r _ _ hsession hkey hr _ halloc =>
    refine Attended.refile (hatt.startUnbindInstanceSession hwf name hr ?_ ?_ ?_ ?_) name eref el
    · rfl
    · rfl
    · intro hexp
      have hidle := hcalm ref r hsession hkey hr hexp
      obtain ⟨hover, hlen⟩ := idle_iff.mp hidle
      obtain ⟨v, hv⟩ := isSome_iff_exists.mp halloc
      obtain ⟨w, hw⟩ := lookup_of_len_le (avail_sub fun x => hatt.contained ref r x hr) hlen.ge hv
      exact ⟨hidle, idle_iff.mpr ⟨hover, (len_insert_of_some () hw).trans hlen⟩⟩
    · intro x hx
      rw [lookup_insert_eq_ite] at hx
      split at hx
      case isTrue heq =>
        rw [heq]
        exact halloc
      case isFalse => exact hatt.contained ref r x hr hx
  | @agent name eref el ref r _ _ hsession hkey hr hx =>
    have hexp := hover hsession hkey hr hx
    refine Attended.refile (hatt.startUnbindInstanceSession hwf name hr ?_ ?_ ?_ ?_) name eref el
    · rfl
    · rfl
    · intro hexp'
      exact absurd (hexp.symm.trans hexp') false_ne_true
    · exact fun x => hatt.contained ref r x hr
  | @overAcq name eref _ ref r _ _ hsession hkey hr hx =>
    have hexp := hover hsession hkey hr hx
    have hstart : Attended (bcs.startUnbindInstanceSession name ref
        { r with overAcqThdMap := r.overAcqThdMap.erase alloc.allocationID }) := by
      refine hatt.startUnbindInstanceSession hwf name hr ?_ ?_ ?_ ?_
      · rfl
      · rfl
      · intro hexp'
        exact absurd (hexp.symm.trans hexp') false_ne_true
      · exact fun x => hatt.contained ref r x hr
    exact (hstart.setElem eref _).refile name eref _
  | put name => exact (hatt.setElem _ _).refile name _ _

variable {u : Unbind} {g : Nat}

section

variable (hatt : Attended bcs) (hu : bcs.unbinds.lookup g = some u)
include hatt hu

theorem Attended.depart (hunbinds : bcs'.unbinds = bcs.unbinds.erase g)
    (hothers : ∀ ref, ref ≠ u.record → bcs'.records.lookup ref = bcs.records.lookup ref)
    (hown : ∀ r, bcs'.records.lookup u.record = some r → r.expiring = false ∧
      r.expireCancelCh = false ∧ r.idle = false ∧ r.Contained) : Attended bcs' where
  recorded := by
    rw [hunbinds]
    intro g' u' hu'
    have hold := lookup_of_erase hu'
    obtain ⟨r, hr, hfits⟩ := hatt.recorded g' u' hold
    have hne : u'.record ≠ u.record := fun heq => ne_of_lookup_erase hu' (hatt.unique g' g u' u hold hu heq)
    exact ⟨r, (hothers _ hne).trans hr, hfits⟩
  unique := by
    rw [hunbinds]
    exact fun g₁ g₂ u₁ u₂ h₁ h₂ => hatt.unique g₁ g₂ u₁ u₂ (lookup_of_erase h₁) (lookup_of_erase h₂)
  watched := by
    intro ref r hr hexp
    have hne : ref ≠ u.record := by
      rintro rfl
      exact false_ne_true ((hown r hr).1.symm.trans hexp)
    rw [hothers ref hne] at hr
    obtain ⟨g', u', hu', hrec⟩ := hatt.watched ref r hr hexp
    have hgoes : g' ≠ g := by
      rintro rfl
      rw [hu] at hu'
      cases hu'
      exact hne hrec.symm
    rw [hunbinds]
    exact ⟨g', u', (lookup_erase_ne hgoes).trans hu', hrec⟩
  quiet := by
    intro ref r hr hexp
    by_cases heq : ref = u.record
    · subst heq
      exact ⟨(hown r hr).2.1, fun _ => (hown r hr).2.2.1⟩
    · exact hatt.quiet ref r ((hothers ref heq).symm.trans hr) hexp
  contained := by
    intro ref r x hr
    by_cases heq : ref = u.record
    · subst heq
      exact (hown r hr).2.2.2 x
    · exact hatt.contained ref r x ((hothers ref heq).symm.trans hr)

theorem Attended.leave (hr : bcs.records.lookup u.record = some r)
    (hbusy : r.idle = false) : Attended
      { bcs.setRecord u.record { r with expireCancelCh := false, expiring := false } with
      unbinds := bcs.unbinds.erase g } := by
  refine hatt.depart hu rfl (fun _ hne => lookup_insert_ne hne) fun r' hr' => ?_
  change (bcs.records.insert u.record _).lookup u.record = some r' at hr'
  rw [lookup_insert] at hr'
  cases hr'
  exact ⟨rfl, rfl, hbusy, fun x => hatt.contained u.record r x hr⟩

theorem Attended.giveUp (hrecords : bcs'.records = bcs.records.erase u.record)
    (hunbinds : bcs'.unbinds = bcs.unbinds.erase g) : Attended bcs' := by
  refine hatt.depart hu hunbinds ?_ ?_
  · intro ref hne
    rw [hrecords, lookup_erase_ne hne]
  intro r hr
  rw [hrecords, lookup_erase] at hr
  cases hr

theorem Attended.move (hr : bcs.records.lookup u.record = some r) (hexpiring : r'.expiring = true)
    (hthreads : r'.availThdMap = r.availThdMap ∧ r'.allocThdMap = r.allocThdMap) (pc : UnbindPc)
    (hfits : pc.Fits r') :
    Attended { bcs.setRecord u.record r' with
      unbinds := bcs.unbinds.insert g { u with pc } } where
  recorded := by
    intro g' u' hu'
    rcases lookup_of_insert hu' with ⟨-, rfl⟩ | hold
    · exact ⟨r', lookup_insert bcs.records, hexpiring, hfits⟩
    by_cases heq : u'.record = u.record
    · have hgg := hatt.unique g' g u' u hold hu heq
      subst hgg
      rw [lookup_insert] at hu'
      cases hu'
      exact ⟨r', lookup_insert bcs.records, hexpiring, hfits⟩
    · obtain ⟨r₀, hr₀, hfits₀⟩ := hatt.recorded g' u' hold
      exact ⟨r₀, (lookup_insert_ne heq).trans hr₀, hfits₀⟩
  unique := by
    intro g₁ g₂ u₁ u₂ h₁ h₂ heq
    rcases lookup_of_insert h₁ with ⟨rfl, rfl⟩ | hold₁
    · rcases lookup_of_insert h₂ with ⟨rfl, rfl⟩ | hold₂
      · rfl
      · exact hatt.unique g₁ g₂ u u₂ hu hold₂ heq
    · rcases lookup_of_insert h₂ with ⟨rfl, rfl⟩ | hold₂
      · exact hatt.unique g₁ g₂ u₁ u hold₁ hu heq
      · exact hatt.unique g₁ g₂ u₁ u₂ hold₁ hold₂ heq
  watched := by
    intro ref r₀ hr₀ hexp₀
    by_cases heq : ref = u.record
    · exact ⟨g, _, lookup_insert bcs.unbinds, heq.symm⟩
    rcases lookup_of_insert hr₀ with ⟨rfl, -⟩ | hold
    · exact absurd rfl heq
    obtain ⟨g', u', hu', hrec⟩ := hatt.watched ref r₀ hold hexp₀
    have hne : g' ≠ g := by
      rintro rfl
      rw [hu] at hu'
      cases hu'
      exact heq hrec.symm
    exact ⟨g', u', (lookup_insert_ne hne).trans hu', hrec⟩
  quiet := by
    exact forall_lookup_insert (fun hexp₀ => absurd (hexp₀.symm.trans hexpiring) false_ne_true) hatt.quiet
  contained := by
    intro ref r₀ x hr₀
    rcases lookup_of_insert hr₀ with ⟨-, rfl⟩ | hold
    · rw [hthreads.1, hthreads.2]
      exact hatt.contained u.record r x hr
    · exact hatt.contained ref r₀ x hold

theorem Attended.expires (hpc : u.pc = .timerFired)
    (hexpires : Expires cfg bcs g u order bcs') : Attended bcs' := by
  cases hexpires with
  | cancelled hr hbusy => exact hatt.leave hu hr hbusy
  | blocked hr hbusy htoken =>
    have hfits := (hatt.fits hu hr).2
    rw [hpc] at hfits
    change _ = !_ at hfits
    rw [hbusy, htoken] at hfits
    cases hfits
  | expired => exact hatt.giveUp hu (refile_records _ _ _ _) (refile_unbinds _ _ _ _)
  | stale => exact hatt

end

end Release

/-! ### Runs -/

/-- A token is in the channel of the record, or has been taken and the flag is not cleared yet. -/
def BasicConcurrencyScheduler.cancelling (bcs : BasicConcurrencyScheduler) (ref : Nat)
    (r : SessionRecord) : Bool :=
  r.expireCancelCh ||
    bcs.unbinds.entries.any fun entry => entry.2.record = ref && entry.2.pc = .cancelled

/-- No session is used while its expiry is being cancelled, an acquire that cancels one is granted,
and session IDs are free of separators. -/
def calm (cfg : Config) (s : System) : Event → Bool
  | .resume tid choice =>
    match s.threads.lookup tid with
    | some (.acquire req _) =>
      ((s.bcs.getSession (req.demand.cacheKey cfg)).all fun entry =>
        !entry.2.expiring || (!s.bcs.cancelling entry.1 entry.2 && entry.2.allocThdMap.len ≠ 0)) &&
      (!choice.leaseFails || s.bcs.records.entries.all fun entry =>
        !entry.2.expiring || entry.2.sessionID ≠ req.instanceSession.sessionID)
    | _ => true
  | .release key =>
    (s.allocs.lookup key).all fun alloc =>
      (s.bcs.getSession (alloc.releaseKey cfg)).all fun entry =>
        alloc.sessionID = "" || !entry.2.expiring || !s.bcs.cancelling entry.1 entry.2
  | e => tidy cfg e

section Run

variable {cfg : Config} {s : System}

variable {bcs : BasicConcurrencyScheduler}

theorem Attended.idle_of_not_cancelling (hatt : Attended bcs) (hr : bcs.records.lookup ref = some r)
    (hexp : r.expiring = true) (hnot : bcs.cancelling ref r = false) : r.idle = true := by
  obtain ⟨htoken, hpcs⟩ := or_eq_false_iff.mp hnot
  obtain ⟨g, u, hu, rfl⟩ := hatt.watched ref r hr hexp
  have hfits := (hatt.fits hu hr).2
  cases hpc : u.pc with
  | selecting | timerFired =>
    rw [hpc] at hfits
    rw [hfits, htoken]
    rfl
  | cancelled =>
    have hmem := any_eq_false.mp hpcs _ (mem_entries_iff.mpr hu)
    simp [hpc] at hmem
  | blocked =>
    rw [hpc] at hfits
    exact hfits.elim

def Unexpiring (sessionID : String) (bcs : BasicConcurrencyScheduler) : Prop :=
  ∀ ref r, bcs.records.lookup ref = some r → r.sessionID = sessionID → r.expiring = false

section

variable {sessionID : String} (hun : Unexpiring sessionID bcs)
include hun

theorem Unexpiring.setRecord (hr : bcs.records.lookup ref = some r) (hid : r'.sessionID = r.sessionID)
    (hexpiring : r'.expiring = r.expiring) : Unexpiring sessionID (bcs.setRecord ref r') := by
  intro ref' r₀ hr₀ hid₀
  rcases lookup_of_insert hr₀ with ⟨-, rfl⟩ | hold
  · rw [hexpiring]
    exact hun ref r hr (hid.symm.trans hid₀)
  · exact hun ref' r₀ hold hid₀

theorem Unexpiring.setElem (ref : Nat) (el : InstanceElement) : Unexpiring sessionID (bcs.setElem ref el) :=
  hun

theorem Unexpiring.refile (name : QueueName) (ref : Nat) (el : InstanceElement) :
    Unexpiring sessionID (bcs.refile name ref el) := by
  unfold Unexpiring
  rw [refile_records]
  exact hun

end

section

variable {sessionID : String} {d : Demand} {bcs bcs' : BasicConcurrencyScheduler}

theorem Unexpiring.prepares (hun : Unexpiring sessionID bcs)
    (hprep : Prepared cfg d bcs bcs') : Unexpiring sessionID bcs' := by
  induction hprep with
  | refl => exact hun
  | tail _ hlast ih =>
    cases hlast with
    | refile name => exact ih.refile name _ _
    | lose => exact ih
    | drop => exact ih
    | bind =>
      intro ref' r hr hid
      rw [bindTo_records] at hr
      rcases lookup_of_insert hr with ⟨-, rfl⟩ | hold
      · rfl
      · exact ih ref' r hold hid
    | signal _ hr => exact ih.setRecord hr rfl rfl

theorem Unexpiring.obtains (hun : Unexpiring sessionID bcs)
    (hobtains : Obtains cfg d bcs alloc bcs') : Unexpiring sessionID bcs' := by
  cases hobtains with
  | plain name => exact (hun.setElem _ _).refile name _ _
  | session _ hr _ htakes =>
    obtain ⟨hexp, -, -, hid⟩ := htakes.flags
    exact hun.setRecord hr hid hexp
  | @overAcq name _ r el pick _ _ hr =>
    have htaken : Unexpiring sessionID ((bcs.setElem r.insElem (el.taken pick)).refile name
        r.insElem (el.taken pick)) :=
      (hun.setElem _ _).refile name _ _
    refine htaken.setRecord (r := r) ?_ rfl rfl
    rw [refile_records]
    exact hr
  | agent _ _ hr => exact hun.setRecord hr rfl rfl

end

theorem Obtains.sessionID (hobtains : Obtains cfg d bcs alloc bcs') :
    alloc.sessionID = "" ∨ alloc.sessionID = d.sessionID := by
  cases hobtains with
  | plain => exact .inl rfl
  | session | overAcq | agent => exact .inr rfl

section

variable {tid : Nat} {choice : Choice} {req : InstanceAcquireRequest} {resolved : Bool}

theorem ready_of_calm (hatt : Attended s.bcs) (hreq : s.threads.lookup tid = some (.acquire req resolved))
    (hok : calm cfg s (.resume tid choice) = true) : Ready cfg req.demand s.bcs := by
  refine ⟨hatt, ?_⟩
  intro ref r hkey hr hexp
  have hget : s.bcs.getSession (req.demand.cacheKey cfg) = some (ref, r) :=
    getSession_eq_some.mpr ⟨hkey, hr⟩
  unfold calm at hok
  dsimp only at hok
  rw [hreq] at hok
  have hsession := (and_eq_true_iff.mp hok).1
  rw [hget, all_some, hexp, Bool.not_true, Bool.false_or, Bool.and_eq_true, decide_eq_true_eq] at hsession
  exact ⟨hatt.idle_of_not_cancelling hr hexp (by simpa using hsession.1), hsession.2⟩

theorem unexpiring_of_calm (hreq : s.threads.lookup tid = some (.acquire req resolved))
    (hlease : choice.leaseFails = true) (hok : calm cfg s (.resume tid choice) = true) :
    Unexpiring req.demand.sessionID s.bcs := by
  intro ref r hr hid
  unfold calm at hok
  dsimp only at hok
  rw [hreq] at hok
  have hall := (and_eq_true_iff.mp hok).2
  rw [hlease, Bool.not_true, Bool.false_or] at hall
  have hentry := all_eq_true.mp hall _ (mem_entries_iff.mpr hr)
  rcases or_eq_true_iff.mp hentry with hexp | hne
  · simpa using hexp
  · exact absurd hid (of_decide_eq_true hne)

end

theorem Attended.effect (hatt : Attended s.bcs) (htidy : Tidy cfg s) (hok : calm cfg s e = true)
    (heffect : Effect cfg s e s') : Attended s'.bcs := by
  have hsame : ∀ {bcs}, SameSessions s.bcs bcs → Attended bcs := fun h =>
    hatt.congr (fun ref => by rw [h.records]) h.unbinds
  cases heffect with
  | begun | instanceUpdate | ringChange => exact hatt
  | @refused _ _ _ _ _ hreq hprep =>
    have hready := (ready_of_calm hatt hreq hok).reflTransGen_prepares htidy.wf hprep
    exact hready.attended.congr (fun _ => rfl) rfl
  | @granted _ _ _ _ _ _ _ hreq hprep hobtains =>
    have hready := (ready_of_calm hatt hreq hok).reflTransGen_prepares htidy.wf hprep
    exact (hready.obtains hobtains).congr (fun _ => rfl) rfl
  | @unleased _ _ _ _ _ bcs' _ alloc hreq hprep hobtains hlease hreleases =>
    have hready := (ready_of_calm hatt hreq hok).reflTransGen_prepares htidy.wf hprep
    have hid := htidy.pending_demand hreq
    have hwf := (htidy.wf.reflTransGen_prepares hprep).obtains hobtains
    have hnamed := (htidy.named.reflTransGen_prepares hid hprep).obtains hobtains
    have hun := ((unexpiring_of_calm hreq hlease hok).prepares hprep).obtains hobtains
    have hcalm : ∀ ref r, alloc.sessionID ≠ "" → bcs'.sessionMap.lookup (alloc.releaseKey cfg) = some ref →
        bcs'.records.lookup ref = some r → r.expiring = true → r.idle = true := by
      intro ref r hsession hkey hr hexp
      have hsid := hobtains.sessionID.resolve_left hsession
      obtain ⟨r₀, hr₀, hkey₀⟩ := hwf.keyed _ ref hkey
      rw [hr] at hr₀
      cases hr₀
      have hfree : cfg.tidyID alloc.sessionID = true := by
        rw [hsid]
        exact hid
      have hrid := (getSessionCacheKey_inj (hnamed ref r hr).2 hfree hkey₀).1
      exact absurd ((hun ref r hr (hrid.trans hsid)).symm.trans hexp) false_ne_true
    exact ((hready.obtains hobtains).releases hwf hcalm hreleases).congr (fun _ => rfl) rfl
  | bare hreq hprep hkey => exact absurd hkey (htidy.not_bare hreq hprep)
  | updated => exact hsame (.handleInstanceUpdate s.bcs _ _ _)
  | @released _ alloc bcs halloc hreleases =>
    refine hatt.releases htidy.wf ?_ hreleases
    intro ref r hsession hkey hr hexp
    have hget : s.bcs.getSession (alloc.releaseKey cfg) = some (ref, r) :=
      getSession_eq_some.mpr ⟨hkey, hr⟩
    unfold calm at hok
    dsimp only at hok
    rw [halloc, all_some, hget, all_some, decide_eq_false hsession, hexp] at hok
    exact hatt.idle_of_not_cancelling hr hexp (by simpa using hok)
  | @timer g u hu hpc =>
    obtain ⟨r, hr, hexp, hfits⟩ := hatt.recorded g u hu
    rw [hpc] at hfits
    have hmove := hatt.move hu hr hexp ⟨rfl, rfl⟩ .timerFired hfits
    exact hmove.congr (fun ref => (lookup_insert_self hr ref).symm) rfl
  | expired hu hpc hexpires => exact hatt.expires hu hpc hexpires
  | @cancelled g u r hu hpc hr htoken =>
    obtain ⟨hexp, hfits⟩ := hatt.fits hu hr
    rw [hpc] at hfits
    change r.idle = !r.expireCancelCh at hfits
    rw [htoken] at hfits
    refine hatt.move hu hr ?_ ?_ .cancelled ?_
    · exact hexp
    · exact ⟨rfl, rfl⟩
    · exact ⟨rfl, hfits⟩
  | @stored g u r hu hpc hr =>
    have hfits := (hatt.fits hu hr).2
    rw [hpc] at hfits
    have hleave := hatt.leave hu hr hfits.2
    have heq : { r with expireCancelCh := false, expiring := false } = { r with expiring := false } := by
      rw [← hfits.1]
    rw [heq] at hleave
    exact hleave
  | addInstance => exact hsame (.pushNew s.bcs _ _ _)
  | delInstance => exact hsame (.setQueue s.bcs _ _)
  | ownerUpdate => exact hsame (.handleFuncOwnerUpdate s.bcs _ _)

theorem attended_of_reach (hreach : (scheduler cfg).Reach (fun s e => calm cfg s e = true) s) :
    Attended s.bcs := by
  refine hreach.invariant (P := fun s => Attended s.bcs) ?_ ?_
  · intro s hinit
    refine ⟨?_, ?_, ?_, ?_, ?_⟩
    · rw [hinit.unbinds]
      simp
    · rw [hinit.unbinds]
      simp
    · rw [hinit.records]
      simp
    · rw [hinit.records]
      simp
    · rw [hinit.records]
      simp
  · intro s e s' l hprev hok hatt hstep
    have htidy : Tidy cfg s := Tidy.of_reach (fun _ e hok => by cases e <;> first | rfl | exact hok) hprev
    exact hatt.effect htidy hok (effect_of_step htidy.wf hstep)

end Run

/-- In such runs an idle session has a goroutine that gives it up, and none blocks with the lock. -/
theorem idle_session_expiry_pending (cfg : Config) (s : System)
    (hreach : (scheduler cfg).Reach (fun s e => calm cfg s e = true) s) :
    (∀ cacheKey ref r, s.bcs.sessionMap.lookup cacheKey = some ref →
      s.bcs.records.lookup ref = some r → r.availThdMap.len = r.allocThdMap.len →
      r.overAcqThdMap.len = 0 → r.released = true →
      ∃ g u, s.bcs.unbinds.lookup g = some u ∧ u.record = ref ∧
        (u.pc = .selecting ∧ r.expireCancelCh = false ∨ u.pc = .timerFired)) ∧
    s.deadlocked = false := by
  have hatt := attended_of_reach hreach
  constructor
  · intro cacheKey ref r _ hr hlen hover hreleased
    have hidle : r.idle = true := idle_iff.mpr ⟨hover, hlen⟩
    have hexp : r.expiring = true := by
      cases hexp : r.expiring with
      | true => rfl
      | false => exact absurd (hidle.symm.trans ((hatt.quiet ref r hr hexp).2 hreleased)) (by decide)
    obtain ⟨g, u, hu, rfl⟩ := hatt.watched ref r hr hexp
    have hfits := (hatt.fits hu hr).2
    refine ⟨g, u, hu, rfl, ?_⟩
    cases hpc : u.pc with
    | selecting =>
      rw [hpc] at hfits
      change r.idle = !r.expireCancelCh at hfits
      rw [hidle] at hfits
      exact .inl ⟨rfl, by simpa using hfits⟩
    | timerFired => exact .inr rfl
    | cancelled =>
      rw [hpc] at hfits
      exact absurd (hidle.symm.trans hfits.2) (by decide)
    | blocked =>
      rw [hpc] at hfits
      exact hfits.elim
  · unfold System.deadlocked
    rw [List.any_eq_false]
    intro entry hmem hpc
    obtain ⟨r, -, -, hfits⟩ := hatt.recorded entry.1 entry.2 (mem_entries_iff.mp hmem)
    rw [of_decide_eq_true hpc] at hfits
    exact hfits

def usedOnce : List Event :=
  [.addInstance (plainInstance "i" 2) "p", .acquire 1 (plainRequest "s" 1), .resume 1 {}, .release 2]

theorem idle_session_expiry_pending_released : ∃ s ref r,
    (scheduler plainConfig).Reach (fun s e => calm plainConfig s e = true) s ∧
      s.bcs.sessionMap.lookup "s" = some ref ∧ s.bcs.records.lookup ref = some r ∧
      ∃ g u, s.bcs.unbinds.lookup g = some u ∧ u.record = ref ∧
        (u.pc = .selecting ∧ r.expireCancelCh = false ∨ u.pc = .timerFired) := by
  obtain ⟨s, hreach, ref, hkey, r, hr, hlen, hover, hreleased⟩ :=
    reach_of_run plainConfig (calm plainConfig) true usedOnce
    (fun s => ∃ ref, s.bcs.sessionMap.lookup "s" = some ref ∧ ∃ r, s.bcs.records.lookup ref = some r ∧
      r.availThdMap.len = r.allocThdMap.len ∧ r.overAcqThdMap.len = 0 ∧ r.released) (by decide)
  exact ⟨s, ref, r, hreach, hkey, hr,
    (idle_session_expiry_pending plainConfig s hreach).1 "s" ref r hkey hr hlen hover hreleased⟩

/-- A session that is used again and given back before its goroutine has taken the token is left
without one. -/
theorem idle_session_without_goroutine : ∃ s ref r, (scheduler plainConfig).Reachable s ∧
    s.bcs.sessionMap.lookup "s" = some ref ∧ s.bcs.records.lookup ref = some r ∧
    r.availThdMap.len = r.allocThdMap.len ∧ r.overAcqThdMap.len = 0 ∧ r.released = true ∧
    ¬ ∃ g u, s.bcs.unbinds.lookup g = some u := by
  obtain ⟨s, hreach, hempty, ref, hkey, r, hr, hlen, hover, hreleased⟩ := reachable_of_run plainConfig true
    (usedOnce ++ [.acquire 1 (plainRequest "s" 1), .resume 1 {}, .release 4, .cancel 3, .store 3])
    (fun s => s.bcs.unbinds.entries.isEmpty ∧ ∃ ref, s.bcs.sessionMap.lookup "s" = some ref ∧
      ∃ r, s.bcs.records.lookup ref = some r ∧
        r.availThdMap.len = r.allocThdMap.len ∧ r.overAcqThdMap.len = 0 ∧ r.released) (by decide)
  refine ⟨s, ref, r, hreach, hkey, hr, hlen, hover, hreleased, ?_⟩
  rintro ⟨g, u, hu⟩
  have hmem := mem_entries_iff.mpr hu
  rw [isEmpty_iff.mp hempty] at hmem
  cases hmem

end Yuanrong.Concurrency
