import Yuanrong.ConcurrencyScheduler.Proof.SameInstances

/-!
# Conservation of an instance's threads

In every run in which an instance is added once and keeps its number of threads, its free threads,
those bound to sessions and those handed out are never more than it has.
-/

namespace Yuanrong.Concurrency

open AList Option BasicConcurrencyScheduler SameInstances List Bool Nat

def BasicConcurrencyScheduler.known (bcs : BasicConcurrencyScheduler) (instanceID : String) : Bool :=
  bcs.elems.entries.any fun entry => entry.2.ins.instanceID = instanceID

/-- The instance `i` is added once and keeps its threads, instances keep their context, a release
finds its session or none, and session IDs are free of separators. -/
def steady (cfg : Config) (i : String) (designated : Bool) (s : System) : Event → Bool
  | .acquire _ req => cfg.tidyID req.instanceSession.sessionID &&
      (designated || req.designateThreadID = "")
  | .release key => (s.allocs.lookup key).all (s.bcs.releasesHome cfg)
  | .addInstance ins _ => ins.instanceID ≠ i || !s.bcs.known i
  | .resume tid _ =>
    match s.threads.lookup tid with
    | some (.instanceUpdate insQue ins _) =>
      match s.bcs.getByID insQue ins.instanceID with
      | some (_, el) => contextOf cfg ins = contextOf cfg el.ins &&
          (ins.instanceID ≠ i || ins.concurrentNum = el.ins.concurrentNum)
      | none => ins.instanceID ≠ i || !s.bcs.known i
    | _ => true
  | _ => true

def System.plainThreads (s : System) (i : String) : ℤ :=
  s.allocs.count fun _ alloc => alloc.ins.instanceID = i ∧ alloc.sessionCtx = none

/-- The threads of the element at `e` that sessions have or gave out beyond them. -/
def BasicConcurrencyScheduler.sessionThreads (cfg : Config) (bcs : BasicConcurrencyScheduler)
    (e : Nat) : ℤ :=
  bcs.records.total fun ref r =>
    if r.insElem = e ∧ bcs.sessionMap.lookup (getRecordCacheKey cfg r) = some ref then
      (r.allocThdMap.len : ℤ) + if cfg.enableAgentSession then 0 else (r.overAcqThdMap.len : ℤ)
    else 0

variable {ref : Nat} {el : InstanceElement} {quiet : Prop} {bcs : BasicConcurrencyScheduler}

section Run

variable {cfg : Config} {i : String} {designated : Bool} {s : System} {e : Event}

theorem tidy_of_reach
    (hreach : (scheduler cfg).Reach (fun s e => steady cfg i designated s e = true) s) : Tidy cfg s :=
  Tidy.of_reach (fun _ e hok => by
    cases e with
    | acquire => exact (and_eq_true_iff.mp hok).1
    | _ => rfl) hreach

theorem not_known (hknown : bcs.known i = false)
    (hel : bcs.elems.lookup ref = some el) : el.ins.instanceID ≠ i := by
  unfold known at hknown
  rw [List.any_eq_false] at hknown
  simpa using hknown _ (mem_entries_iff.mpr hel)

/-! ### Instance events -/

theorem pushNew_cases (bcs : BasicConcurrencyScheduler) (name : QueueName) (ins : Instance)
    (threadIDPrefix : String) :
    bcs.pushNew name ins threadIDPrefix = bcs ∨
      (bcs.pushNew name ins threadIDPrefix).elems =
          bcs.elems.insert bcs.nextRef (newInstanceElement ins threadIDPrefix) ∧
        (bcs.pushNew name ins threadIDPrefix).nextRef = bcs.nextRef + 1 := by
  unfold pushNew
  dsimp only
  split
  · exact .inl rfl
  refine .inr ⟨?_, rfl⟩
  cases name
  · rfl
  · rfl

inductive Instances (cfg : Config) (i : String) (quiet : Prop) (bcs : BasicConcurrencyScheduler) :
    BasicConcurrencyScheduler → Prop
  | same {bcs' : BasicConcurrencyScheduler} (hsame : SameInstances cfg quiet bcs bcs') :
      Instances cfg i quiet bcs bcs'
  | added {bcs' : BasicConcurrencyScheduler} (ins : Instance) (threadIDPrefix : String)
      (hsessions : SameSessions bcs bcs')
      (helems : bcs'.elems = bcs.elems.insert bcs.nextRef (newInstanceElement ins threadIDPrefix))
      (hnext : bcs'.nextRef = bcs.nextRef + 1)
      (honce : ins.instanceID = i → bcs.known i = false) : Instances cfg i quiet bcs bcs'
  | changed (name : QueueName) {ref : Nat} {el : InstanceElement} (ins : Instance)
      (hel : bcs.elems.lookup ref = some el) (hid : ins.instanceID = el.ins.instanceID)
      (hcontext : contextOf cfg ins = contextOf cfg el.ins)
      (hnum : ins.instanceID = i → ins.concurrentNum = el.ins.concurrentNum) :
      Instances cfg i quiet bcs
        ((bcs.setElem ref { el with ins }).refile name ref { el with ins })

theorem instances_pushNew (name : QueueName) (ins : Instance)
    (threadIDPrefix : String) (honce : ins.instanceID = i → bcs.known i = false) :
    Instances cfg i quiet bcs (bcs.pushNew name ins threadIDPrefix) := by
  rcases pushNew_cases bcs name ins threadIDPrefix with heq | ⟨helems, hnext⟩
  · rw [heq]
    exact .same .refl
  · exact .added ins threadIDPrefix (.pushNew bcs name ins threadIDPrefix) helems hnext honce

theorem honce_of_or {ins : Instance} {known : Bool} (hok : (ins.instanceID ≠ i || !known) = true)
    (hid : ins.instanceID = i) : known = false := by
  simpa [hid] using hok

theorem instances_of_effect (htidy : Tidy cfg s) (hok : steady cfg i designated s e = true)
    (heffect : Effect cfg s e s') :
    Instances cfg i (∀ tid choice req resolved, e = .resume tid choice →
      s.threads.lookup tid = some (.acquire req resolved) → req.designateThreadID = "")
      s.bcs s'.bcs := by
  have hsame : ∀ {quiet : Prop} {bcs : BasicConcurrencyScheduler},
      bcs.elems = s.bcs.elems → bcs.records = s.bcs.records → Instances cfg i quiet s.bcs bcs :=
    fun helems hrecords => .same (.of_records (elems_same helems) fun _ _ h => hrecords ▸ h)
  have hquiet : ∀ {tid choice req resolved}, e = .resume tid choice →
      s.threads.lookup tid = some (.acquire req resolved) → ∀ {bcs bcs' : BasicConcurrencyScheduler},
      SameInstances cfg (req.designateThreadID = "") bcs bcs' →
      SameInstances cfg (∀ tid choice req resolved, e = .resume tid choice →
        s.threads.lookup tid = some (.acquire req resolved) → req.designateThreadID = "") bcs bcs' := by
    intro tid choice req resolved he hreq bcs bcs' h
    refine ⟨?_, h.records⟩
    intro ref el' hel'
    obtain ⟨el, hel, hins, hissued⟩ := h.elems ref el' hel'
    exact ⟨el, hel, hins, fun hquiet => hissued (hquiet tid choice req resolved he hreq)⟩
  have hanswered : ∀ {quiet : Prop} {bcs bcs' : BasicConcurrencyScheduler},
      SameInstances cfg quiet bcs bcs' → SameInstances cfg quiet bcs bcs'.answered :=
    fun h => { h with }
  cases heffect with
  | begun | instanceUpdate | ringChange => exact .same .refl
  | refused hreq hprep => exact .same (hanswered (hquiet rfl hreq (.reflTransGen_prepares hprep)))
  | granted hreq hprep hobtains =>
    exact .same (hanswered (hquiet rfl hreq ((reflTransGen_prepares hprep).trans (.obtains hobtains))))
  | unleased hreq hprep hobtains _ hreleases =>
    exact .same (hanswered (hquiet rfl hreq
      (((reflTransGen_prepares hprep).trans (.obtains hobtains)).trans (.releases hreleases))))
  | bare hreq hprep hkey => exact absurd hkey (htidy.not_bare hreq hprep)
  | @updated _ _ insQue ins threadIDPrefix hreq =>
    unfold steady at hok
    dsimp only at hok
    rw [hreq] at hok
    dsimp only at hok ⊢
    unfold handleInstanceUpdate
    split
    case h_1 hget =>
      rw [hget] at hok
      exact instances_pushNew insQue ins threadIDPrefix (honce_of_or hok)
    rename_i ref el hget
    rw [hget] at hok
    obtain ⟨hel, hid⟩ := htidy.wf.filed.getByID hget
    obtain ⟨hcontext, hnum⟩ := and_eq_true_iff.mp hok
    refine .changed insQue ins hel hid.symm (of_decide_eq_true hcontext) fun heq => ?_
    simpa [heq] using hnum
  | released _ hreleases => exact .same (.releases hreleases)
  | timer => exact hsame rfl rfl
  | expired _ _ hexpires => exact .same (.expires hexpires)
  | cancelled _ _ hr => exact .same (.setRecord hr (elems_same rfl) rfl rfl rfl)
  | stored _ _ hr => exact .same (.setRecord hr (elems_same rfl) rfl rfl rfl)
  | addInstance ins threadIDPrefix => exact instances_pushNew _ ins threadIDPrefix (honce_of_or hok)
  | delInstance => exact hsame (setQueue_elems _ _ _) (SameSessions.setQueue s.bcs _ _).records
  | ownerUpdate isFuncOwner =>
    exact hsame (handleFuncOwnerUpdate_elems _ _ _)
      (SameSessions.handleFuncOwnerUpdate s.bcs s.ring isFuncOwner).records

/-! ### Contexts, and threads beyond an instance's own -/

variable {bcs bcs' : BasicConcurrencyScheduler}

theorem Contexts.instances (hcontexts : Contexts cfg bcs) (hwf : WellFormed cfg bcs)
    (hinstances : Instances cfg i quiet bcs bcs') : Contexts cfg bcs' := by
  cases hinstances with
  | same hsame =>
    intro ref r' el' hr' hel'
    rcases hsame.records ref r' hr' with ⟨r, hr, hctx, hins⟩ | hnew
    · rw [hins] at hel'
      obtain ⟨el, hel, heq, -⟩ := hsame.elems _ el' hel'
      rw [hctx, heq]
      exact hcontexts ref r el hr hel
    · exact hnew el' hel'
  | added _ _ hsessions helems =>
    intro ref r el hr hel
    rw [hsessions.records] at hr
    obtain ⟨el₀, hel₀⟩ := hwf.bound ref r hr
    rw [helems, lookup_insert_ne (hwf.elemRef _ _ hel₀).ne] at hel
    exact hcontexts ref r el hr hel
  | @changed _ _ el _ hel _ hcontext =>
    intro ref₀ r el₀ hr hel₀
    rw [refile_records] at hr
    rw [refile_elems] at hel₀
    rcases lookup_of_insert hel₀ with ⟨heq, rfl⟩ | hold
    · rw [← heq] at hel
      exact (hcontexts ref₀ r el hr hel).trans hcontext.symm
    · exact hcontexts ref₀ r el₀ hr hold

structure Unissued (s : System) : Prop where
  elems : ∀ ref el, s.bcs.elems.lookup ref = some el → el.overIssued = 0
  pending : ∀ tid req resolved, s.threads.lookup tid = some (.acquire req resolved) →
    req.designateThreadID = ""

theorem pending_of_effect (htidy : Tidy cfg s) (heffect : Effect cfg s e s')
    (hreq : s'.threads.lookup tid = some (.acquire req resolved)) :
    (∃ tid' resolved', s.threads.lookup tid' = some (.acquire req resolved')) ∨
      ∃ tid' req', e = .acquire tid' req' ∧ req.demand = req'.demand := by
  cases heffect with
  | begun tid' req' =>
    rcases lookup_of_insert hreq with ⟨-, hbegin⟩ | hold
    · exact .inr ⟨tid', req', rfl, Tidy.demand_beginAcquire req' req resolved hbegin⟩
    · exact .inl ⟨tid, resolved, hold⟩
  | refused | granted | updated => exact .inl ⟨tid, resolved, lookup_of_erase hreq⟩
  | unleased => exact .inl ⟨tid, resolved, lookup_of_erase hreq⟩
  | bare hreq' hprep hkey => exact absurd hkey (htidy.not_bare hreq' hprep)
  | instanceUpdate =>
    rcases lookup_of_insert hreq with ⟨-, hpc⟩ | hold
    · cases hpc
    · exact .inl ⟨tid, resolved, hold⟩
  | _ => exact .inl ⟨tid, resolved, hreq⟩

theorem overIssued_newInstanceElement (ins : Instance) (threadIDPrefix : String) :
    (newInstanceElement ins threadIDPrefix).overIssued = 0 ∧
      (newInstanceElement ins threadIDPrefix).threadMap.len ≤ ins.concurrentNum.toNat := by
  refine ⟨foldlRecOn (motive := fun el : InstanceElement => el.overIssued = 0) _ _ rfl
    fun _ hel _ _ => hel, ?_⟩
  have hlen : ∀ (indices : List Nat) (el : InstanceElement), (indices.foldl (fun el _ =>
        { el with
          threadMap := el.threadMap.insert (el.threadID el.threadIndex) ()
          threadIndex := el.threadIndex + 1 }) el).threadMap.len ≤
        el.threadMap.len + indices.length := by
    intro indices
    induction indices with
    | nil => exact fun el => le_rfl
    | cons _ _ ih =>
      intro el
      have hone := el.threadMap.len_insert_le (el.threadID el.threadIndex) ()
      refine (ih _).trans ?_
      rw [length_cons]
      dsimp only
      omega
  refine (hlen _ _).trans ?_
  rw [length_range]
  exact (zero_add _).le

theorem unissued_instances (hissued : ∀ ref el, bcs.elems.lookup ref = some el → el.overIssued = 0)
    (hquiet : quiet) (hinstances : Instances cfg i quiet bcs bcs') (ref : Nat)
    (el : InstanceElement) (hel : bcs'.elems.lookup ref = some el) : el.overIssued = 0 := by
  cases hinstances with
  | same hsame =>
    obtain ⟨el₀, hel₀, -, heq⟩ := hsame.elems ref el hel
    rw [heq hquiet]
    exact hissued ref el₀ hel₀
  | added ins threadIDPrefix _ helems =>
    rw [helems] at hel
    rcases lookup_of_insert hel with ⟨-, rfl⟩ | hold
    · exact (overIssued_newInstanceElement ins threadIDPrefix).1
    · exact hissued ref el hold
  | @changed _ ref₀ el₀ _ hel₀ =>
    rw [refile_elems] at hel
    rcases lookup_of_insert hel with ⟨-, rfl⟩ | hold
    · exact hissued ref₀ el₀ hel₀
    · exact hissued ref el hold

theorem unissued_of_reach
    (hreach : (scheduler cfg).Reach (fun s e => steady cfg i false s e = true) s) : Unissued s := by
  refine hreach.invariant ?_ ?_
  · intro s hinit
    refine ⟨?_, ?_⟩
    · rw [hinit.elems]
      simp
    · rw [hinit.threads]
      simp
  · intro s e s' l hprev hok hunissued hstep
    have htidy := tidy_of_reach hprev
    have heffect := effect_of_step htidy.wf hstep
    refine ⟨?_, ?_⟩
    · exact unissued_instances hunissued.elems
        (fun tid _ req resolved _ => hunissued.pending tid req resolved)
        (instances_of_effect htidy hok heffect)
    · intro tid req resolved hreq
      rcases pending_of_effect htidy heffect hreq with ⟨tid', resolved', hold⟩ | ⟨tid', req', rfl, hdemand⟩
      · exact hunissued.pending tid' req resolved' hold
      have hnone := (Bool.and_eq_true_iff.mp hok).2
      rw [Bool.false_or, decide_eq_true_eq] at hnone
      exact (congrArg Demand.designateThreadID hdemand).trans hnone

end Run

/-! ### The ledger over runs -/

structure Covers (i : String) (s : System) (out : FinMap Nat Holder) : Prop where
  allocs : ∀ k a, s.allocs.lookup k = some a → a.ins.instanceID = i → ∃ h, out.lookup k = some h ∧
    h.alloc = a ∧ (a.agentOverAcq = false → h.role ≠ .madeUp)
  fresh : ∀ k h, out.lookup k = some h → k < s.bcs.nextRef

def Accounted (cfg : Config) (i : String) (s : System) : Prop :=
  ((∀ ref el, s.bcs.elems.lookup ref = some el → el.ins.instanceID ≠ i) ∧
      ∀ k a, s.allocs.lookup k = some a → a.ins.instanceID ≠ i) ∨
    ∃ e out, Ledger cfg i e s.bcs out ∧ Covers i s out

section Ledger

variable {cfg : Config} {i : String} {designated : Bool} {s : System} {e : Nat}
  {out : FinMap Nat Holder}
  {r : SessionRecord} {d : Demand}

theorem releasesHome_of_found (hkey : bcs.sessionMap.lookup (alloc.releaseKey cfg) = some ref)
    (hr : bcs.records.lookup ref = some r) (hel : bcs.elems.lookup r.insElem = some el)
    (hid : el.ins.instanceID = alloc.ins.instanceID) (hctx : alloc.sessionCtx = some ref) :
    bcs.releasesHome cfg alloc = true := by
  unfold releasesHome getSession
  rw [hkey, bind_some, hr, map_some, all_some, hel, any_some,
    decide_eq_true hid, decide_eq_true hctx, Bool.true_or, Bool.and_true, Bool.or_true]

theorem releasesHome_of_obtains (hwf : WellFormed cfg bcs) (hnamed : Named cfg bcs)
    (hcontexts : Contexts cfg bcs) (htidy : cfg.tidyID d.sessionID = true)
    (hobtains : Obtains cfg d bcs alloc bcs') : bcs'.releasesHome cfg alloc = true := by
  -- the key under which the thread comes back is the one under which its session was found
  have hkey' : ∀ {ref r el}, bcs.sessionMap.lookup (d.cacheKey cfg) = some ref →
      bcs.records.lookup ref = some r → bcs.elems.lookup r.insElem = some el →
      getSessionCacheKey cfg d.sessionID (contextOf cfg el.ins) = d.cacheKey cfg := by
    intro ref r el hkey hr hel
    obtain ⟨hlive, hid, -⟩ := live_of_demand hwf hnamed htidy hkey hr
    obtain ⟨r₀, hr₀, hkey₀⟩ := hwf.keyed _ ref hkey
    rw [hr] at hr₀
    cases hr₀
    rw [← hkey₀, getRecordCacheKey, hid, hcontexts ref r el hr hel]
  cases hobtains with
  | plain => rfl
  | @session _ r r' _ _ hkey hr hel htakes =>
    have hins : r'.insElem = r.insElem := by
      obtain ⟨y, -, ⟨-, rfl⟩ | ⟨-, -, -, rfl⟩⟩ := htakes
      · rfl
      · rfl
    refine releasesHome_of_found ?_ (lookup_insert _) ?_ rfl rfl
    · exact (congrArg bcs.sessionMap.lookup (hkey' hkey hr hel)).trans hkey
    · rw [hins]
      exact hel
  | @overAcq name _ r el pick threadID hkey hr _ _ hel =>
    have hwithin := el.taken_within pick
    refine releasesHome_of_found ?_ (lookup_insert _) ?_ (congrArg _ hwithin.ins) rfl
    · have hmap := refile_sessionMap (bcs.setElem r.insElem (el.taken pick)) name r.insElem (el.taken pick)
      exact (congrArg (fun m => AList.lookup _ m) hmap).trans
        ((congrArg bcs.sessionMap.lookup (hkey' hkey hr hel)).trans hkey)
    · have helems := refile_elems (bcs.setElem r.insElem (el.taken pick)) name r.insElem (el.taken pick)
      exact (congrArg (AList.lookup r.insElem) helems).trans (lookup_insert _)
  | @agent _ r _ threadID hkey hr _ _ _ hel =>
    exact releasesHome_of_found
      ((congrArg bcs.sessionMap.lookup (hkey' hkey hr hel)).trans hkey) (lookup_insert _)
      hel rfl rfl

theorem Covers.same (hcovers : Covers i s out) (hnext : s.bcs.nextRef ≤ s'.bcs.nextRef)
    (hallocs : ∀ k a, s'.allocs.lookup k = some a → s.allocs.lookup k = some a) : Covers i s' out where
  allocs := fun k a hk => hcovers.allocs k a (hallocs k a hk)
  fresh := fun k h hk => (hcovers.fresh k h hk).trans_le hnext

theorem Covers.obtained (hcovers : Covers i s out) (htidy : Tidy cfg s)
    (hobtained : Obtained i k₀ alloc out out') (hle : s.bcs.nextRef ≤ k₀)
    (hnext : s'.bcs.nextRef = k₀ + 1) (hallocs : s'.allocs = s.allocs.insert k₀ alloc) :
    Covers i s' out' where
  allocs k a hk hid := by
    rw [hallocs] at hk
    rcases lookup_of_insert hk with ⟨rfl, rfl⟩ | hold
    · exact hobtained.2 hid
    · rw [hobtained.1 k ((htidy.allocRef k a hold).trans_le hle).ne]
      exact hcovers.allocs k a hold hid
  fresh k h hk := by
    rw [hnext]
    by_cases heq : k = k₀
    · exact heq ▸ lt_succ_self k
    · rw [hobtained.1 k heq] at hk
      exact lt_succ_of_lt ((hcovers.fresh k h hk).trans_le hle)

theorem Covers.returns (hcovers : Covers i s out) (hreturns : Returns key out out')
    (hnext : s.bcs.nextRef ≤ s'.bcs.nextRef) (hallocs : ∀ k a, s'.allocs.lookup k = some a →
      k ≠ key ∧ s.allocs.lookup k = some a) : Covers i s' out' where
  allocs k a hk hid := by
    obtain ⟨hne, hold⟩ := hallocs k a hk
    obtain ⟨h, hheld, rfl, hreal⟩ := hcovers.allocs k a hold hid
    obtain ⟨h', hk', halloc, hreal'⟩ := hreturns.others k h hheld hne
    exact ⟨h', hk', halloc, fun hagent => hreal' (hreal hagent)⟩
  fresh k h hk := by
    obtain ⟨h', hk'⟩ := hreturns.within k h hk
    exact (hcovers.fresh k h' hk').trans_le hnext

theorem Ledger.releases (hledger : Ledger cfg i e bcs out) (hwf : WellFormed cfg bcs)
    (hcontexts : Contexts cfg bcs) (hheld : alloc.ins.instanceID = i → ∃ h, out.lookup k = some h ∧
      h.alloc = alloc ∧ (alloc.agentOverAcq = false → h.role ≠ .madeUp))
    (hhome : bcs.releasesHome cfg alloc = true) (hreleases : Releases cfg bcs alloc bcs') :
    ∃ out', Ledger cfg i e bcs' out' ∧ Returns k out out' := by
  by_cases hins : alloc.ins.instanceID = i
  · obtain ⟨h, hk, rfl, hreal⟩ := hheld hins
    exact hledger.releases_own hwf hk hcontexts hreal hhome hreleases
  · exact ⟨out, hledger.releases_other hwf hins hhome hreleases, .same k out⟩

theorem Ledger.added (hledger : Ledger cfg i e bcs out) (hwf : WellFormed cfg bcs) (ins : Instance)
    (threadIDPrefix : String) (hsessions : SameSessions bcs bcs')
    (helems : bcs'.elems = bcs.elems.insert bcs.nextRef (newInstanceElement ins threadIDPrefix))
    (hne : ins.instanceID ≠ i) : Ledger cfg i e bcs' out := by
  have hold : ∀ e', e' < bcs.nextRef → bcs'.elems.lookup e' = bcs.elems.lookup e' := by
    intro e' hlt
    rw [helems, lookup_insert_ne hlt.ne]
  have hkeeps : Keeps cfg bcs bcs' :=
    { nextRef := hsessions.nextRef, elems := fun e' el' hel' hlt => ⟨el', hold e' hlt ▸ hel', rfl, rfl⟩
      records := keeps_records_same hsessions.records }
  refine hledger.next_same hwf hkeeps ?_ ?_ ?_
  · intro e' el' hel' hle
    rw [helems] at hel'
    rcases lookup_of_insert hel' with ⟨-, rfl⟩ | hel'
    · rw [WellFormed.newInstanceElement_ins]
      exact hne
    · exact absurd (hwf.elemRef e' el' hel') (not_lt.mpr hle)
  · intro el hel
    exact ⟨el, (hold e (hwf.elemRef e el hel)).trans hel, rfl, by rw [unused_congr hsessions.records]⟩
  · intro ref r hlive
    unfold Live at hlive
    rw [hsessions.records, hsessions.sessionMap] at hlive
    exact hledger.records ref r hlive

theorem Ledger.granted (hledger : Ledger cfg i e s.bcs out) (hcovers : Covers i s out) (htidy : Tidy cfg s)
    (hid : cfg.tidyID d.sessionID = true) (hprep : Prepared cfg d s.bcs bcs)
    (hobtains : Obtains cfg d bcs alloc bcs') :
    ∃ out', Ledger cfg i e bcs' out' ∧ Obtained i bcs'.nextRef alloc out out' := by
  have hfresh : out.lookup bcs'.nextRef = none := by
    cases hlookup : out.lookup bcs'.nextRef with
    | none => rfl
    | some h =>
      have hlt := hcovers.fresh _ h hlookup
      have hle := nextRef_le_of_prepares hprep
      rw [hobtains.nextRef_eq] at hlt
      omega
  exact (hledger.reflTransGen_prepares htidy.wf hprep).obtains
    (htidy.wf.reflTransGen_prepares hprep) (htidy.named.reflTransGen_prepares hid hprep) hid hfresh
    hobtains

theorem Ledger.effect (hledger : Ledger cfg i e s.bcs out) (hcovers : Covers i s out) (htidy : Tidy cfg s)
    (hcontexts : Contexts cfg s.bcs) (hok : steady cfg i designated s ev = true)
    (heffect : Effect cfg s ev s') : ∃ out', Ledger cfg i e s'.bcs out' ∧ Covers i s' out' := by
  have hwf := htidy.wf
  obtain ⟨el₀, hel₀, helid, -⟩ := hledger.elem
  have hadded : ∀ (name : QueueName) (ins : Instance) (threadIDPrefix : String),
      (ins.instanceID = i → s.bcs.known i = false) →
      Ledger cfg i e (s.bcs.pushNew name ins threadIDPrefix) out := by
    intro name ins threadIDPrefix honce
    rcases pushNew_cases s.bcs name ins threadIDPrefix with heq | ⟨helems, hnext⟩
    · rw [heq]
      exact hledger
    · exact hledger.added hwf ins threadIDPrefix
        (.pushNew s.bcs name ins threadIDPrefix) helems fun hid => not_known (honce hid) hel₀ helid
  cases heffect with
  | begun | ringChange => exact ⟨out, hledger, hcovers.same le_rfl fun _ _ h => h⟩
  | @refused _ _ _ _ _ _ hprep =>
    refine ⟨out, ?_, hcovers.same ((nextRef_le_of_prepares hprep).trans (le_succ _)) fun _ _ h => h⟩
    exact (hledger.reflTransGen_prepares hwf hprep).congr (hwf.reflTransGen_prepares hprep) rfl rfl rfl
      (le_succ _)
  | @granted _ _ _ _ _ bcs' _ hreq hprep hobtains =>
    have hid := htidy.pending_demand hreq
    obtain ⟨out', hledger', hobtained⟩ := hledger.granted hcovers htidy hid hprep hobtains
    have hle := (nextRef_le_of_prepares hprep).trans hobtains.nextRef_eq.ge
    exact ⟨out', hledger'.congr ((hwf.reflTransGen_prepares hprep).obtains hobtains) rfl rfl rfl
      (le_succ _), hcovers.obtained htidy hobtained hle rfl rfl⟩
  | @unleased _ _ _ _ _ bcs' _ alloc hreq hprep hobtains _ hreleases =>
    -- the thread is handed out under the next key and comes back at once
    have hid := htidy.pending_demand hreq
    obtain ⟨out', hledger', hobtained⟩ := hledger.granted hcovers htidy hid hprep hobtains
    have hwf₁ := hwf.reflTransGen_prepares hprep
    have hwf' := hwf₁.obtains hobtains
    have hcontexts₁ := hcontexts.instances (i := i) hwf (.same (.reflTransGen_prepares hprep))
    have hcontexts' := hcontexts₁.instances (i := i) hwf₁ (.same (.obtains hobtains))
    have hhome := releasesHome_of_obtains hwf₁ (htidy.named.reflTransGen_prepares hid hprep)
      hcontexts₁ hid hobtains
    have hle := (nextRef_le_of_prepares hprep).trans hobtains.nextRef_eq.ge
    have hcovers' : Covers i { s with
        bcs := bcs'.answered
        allocs := s.allocs.insert bcs'.nextRef alloc } out' :=
      hcovers.obtained htidy hobtained hle rfl rfl
    obtain ⟨out'', hledger'', hreturns⟩ :=
      hledger'.releases hwf' hcontexts' hobtained.2 hhome hreleases
    refine ⟨out'', hledger''.congr (hwf'.releases hreleases) rfl rfl rfl (le_succ _),
      hcovers'.returns hreturns (succ_le_succ hreleases.nextRef_le) ?_⟩
    intro k a hk
    have hne := ((htidy.allocRef k a hk).trans_le hle).ne
    exact ⟨hne, (lookup_insert_ne hne).trans hk⟩
  | bare hreq hprep hkey => exact absurd hkey (htidy.not_bare hreq hprep)
  | @updated _ _ insQue ins threadIDPrefix hreq =>
    refine ⟨out, ?_, hcovers.same (SameSessions.handleInstanceUpdate s.bcs insQue ins
      threadIDPrefix).nextRef fun _ _ h => h⟩
    unfold steady at hok
    dsimp only at hok
    rw [hreq] at hok
    dsimp only at hok ⊢
    unfold handleInstanceUpdate
    split
    case h_1 hget =>
      rw [hget] at hok
      exact hadded insQue ins threadIDPrefix (honce_of_or hok)
    rename_i ref el hget
    rw [hget] at hok
    obtain ⟨hel, hid⟩ := hwf.filed.getByID hget
    obtain ⟨hcontext, hnum⟩ := and_eq_true_iff.mp hok
    have hset : Ledger cfg i e (s.bcs.setElem ref { el with ins }) out := by
      refine hledger.setElem hwf hel hid.symm (of_decide_eq_true hcontext) fun heq => ?_
      subst heq
      rw [hel] at hel₀
      cases hel₀
      exact ⟨by simpa [hid.symm.trans helid] using hnum, le_rfl⟩
    exact hset.refile (hwf.setElem hel hid.symm) insQue ref { el with ins }
  | @released key alloc bcs halloc hreleases =>
    have hhome : s.bcs.releasesHome cfg alloc = true := by
      unfold steady at hok
      dsimp only at hok
      rw [halloc] at hok
      exact hok
    obtain ⟨out', hledger', hreturns⟩ :=
      hledger.releases hwf hcontexts (hcovers.allocs key alloc halloc) hhome hreleases
    exact ⟨out', hledger', hcovers.returns hreturns hreleases.nextRef_le
      fun _ _ hk => ⟨ne_of_lookup_erase hk, lookup_of_erase hk⟩⟩
  | timer => exact ⟨out, hledger.congr hwf rfl rfl rfl le_rfl, hcovers.same le_rfl fun _ _ h => h⟩
  | expired _ _ hexpires =>
    exact ⟨out, hledger.expires hwf hexpires, hcovers.same hexpires.nextRef_eq.ge fun _ _ h => h⟩
  | cancelled hu hpc hr htoken | stored hu hpc hr =>
    refine ⟨out, ?_, hcovers.same le_rfl fun _ _ h => h⟩
    exact hledger.setRecord hwf hr rfl rfl rfl le_rfl rfl rfl rfl (fun _ => le_rfl) fun _ h => { h with }
  | addInstance ins threadIDPrefix =>
    exact ⟨out, hadded _ ins threadIDPrefix (honce_of_or hok),
      hcovers.same (SameSessions.pushNew s.bcs _ ins threadIDPrefix).nextRef fun _ _ h => h⟩
  | delInstance =>
    have hsame := SameSessions.setQueue s.bcs
    exact ⟨out, hledger.congr hwf (setQueue_elems _ _ _) (hsame _ _).records (hsame _ _).sessionMap
      (hsame _ _).nextRef, hcovers.same (hsame _ _).nextRef fun _ _ h => h⟩
  | instanceUpdate => exact ⟨out, hledger, hcovers.same le_rfl fun _ _ h => h⟩
  | ownerUpdate isFuncOwner =>
    have hsame : SameSessions s.bcs (s.bcs.handleFuncOwnerUpdate cfg s.ring isFuncOwner) :=
      .handleFuncOwnerUpdate s.bcs s.ring isFuncOwner
    exact ⟨out, hledger.congr hwf (handleFuncOwnerUpdate_elems _ _ _) hsame.records hsame.sessionMap
      hsame.nextRef, hcovers.same hsame.nextRef fun _ _ h => h⟩

theorem ins_of_obtains (hobtains : Obtains cfg d bcs alloc bcs') :
    ∃ ref el, bcs.elems.lookup ref = some el ∧ alloc.ins = el.ins := by
  cases hobtains with
  | plain _ _ _ hel | session _ _ hel | overAcq _ _ _ _ _ _ _ hel | agent _ _ _ _ _ _ hel =>
    exact ⟨_, _, hel, rfl⟩

theorem allocs_of_effect (htidy : Tidy cfg s) (heffect : Effect cfg s ev s')
    (habsent : ∀ ref el, s.bcs.elems.lookup ref = some el → el.ins.instanceID ≠ i)
    (hallocs : ∀ k a, s.allocs.lookup k = some a → a.ins.instanceID ≠ i) (k : Nat)
    (a : InstanceAllocation) (hk : s'.allocs.lookup k = some a) : a.ins.instanceID ≠ i := by
  cases heffect with
  | granted _ hprep hobtains =>
    rcases lookup_of_insert hk with ⟨-, rfl⟩ | hold
    · obtain ⟨ref, el, hel, hins⟩ := ins_of_obtains hobtains
      obtain ⟨el₀, hel₀, hins₀, -⟩ := (reflTransGen_prepares hprep).elems ref el hel
      rw [hins, hins₀]
      exact habsent ref el₀ hel₀
    · exact hallocs k a hold
  | bare hreq hprep hkey => exact absurd hkey (htidy.not_bare hreq hprep)
  | released => exact hallocs k a (lookup_of_erase hk)
  | _ => exact hallocs k a hk

theorem ledger_added (hwf : WellFormed cfg bcs) (ins : Instance) (threadIDPrefix : String)
    (hsessions : SameSessions bcs bcs')
    (helems : bcs'.elems = bcs.elems.insert bcs.nextRef (newInstanceElement ins threadIDPrefix))
    (habsent : ∀ ref el, bcs.elems.lookup ref = some el → el.ins.instanceID ≠ ins.instanceID) :
    Ledger cfg ins.instanceID bcs.nextRef bcs' ∅ := by
  have hunbound : ∀ ref r, bcs'.records.lookup ref = some r → r.insElem ≠ bcs.nextRef := by
    intro ref r hr
    rw [hsessions.records] at hr
    obtain ⟨el, hel⟩ := hwf.bound ref r hr
    exact (hwf.elemRef _ el hel).ne
  have hins := WellFormed.newInstanceElement_ins ins threadIDPrefix
  refine ⟨⟨newInstanceElement ins threadIDPrefix, ?_, congrArg _ hins, ?_⟩, ?_, ?_, ?_⟩
  · rw [helems, lookup_insert]
  · have hunused : bcs'.unused bcs.nextRef = 0 :=
      total_eq_zero fun ref r hr => if_neg (hunbound ref r hr)
    have hheld : held ∅ = 0 := rfl
    have hlen := (overIssued_newInstanceElement ins threadIDPrefix).2
    rw [hins, hunused, hheld]
    omega
  · intro e' el' hel' hid
    rw [helems] at hel'
    rcases lookup_of_insert hel' with ⟨heq, -⟩ | hold
    · exact heq
    · exact absurd hid (habsent e' el' hold)
  · intro k h hk
    exact absurd hk (by simp)
  · intro ref r hlive hinsElem
    exact absurd hinsElem (hunbound ref r hlive.1)

theorem absent_or_added (hwf : WellFormed cfg bcs)
    (habsent : ∀ ref el, bcs.elems.lookup ref = some el → el.ins.instanceID ≠ i)
    (hinstances : Instances cfg i quiet bcs bcs') :
    (∀ ref el, bcs'.elems.lookup ref = some el → el.ins.instanceID ≠ i) ∨
      ∃ e, Ledger cfg i e bcs' ∅ := by
  cases hinstances with
  | same hsame =>
    refine .inl fun ref el' hel' => ?_
    obtain ⟨el, hel, hins, -⟩ := hsame.elems ref el' hel'
    rw [hins]
    exact habsent ref el hel
  | added ins threadIDPrefix hsessions helems =>
    by_cases heq : ins.instanceID = i
    · subst heq
      exact .inr ⟨_, ledger_added hwf ins threadIDPrefix hsessions helems habsent⟩
    refine .inl fun ref el hel => ?_
    rw [helems] at hel
    rcases lookup_of_insert hel with ⟨-, rfl⟩ | hold
    · rw [WellFormed.newInstanceElement_ins]
      exact heq
    · exact habsent ref el hold
  | @changed _ ref el ins hel hid =>
    refine .inl fun ref₀ el₀ hel₀ => ?_
    rw [refile_elems] at hel₀
    rcases lookup_of_insert hel₀ with ⟨-, rfl⟩ | hold
    · rw [show ({ el with ins } : InstanceElement).ins = ins from rfl, hid]
      exact habsent ref el hel
    · exact habsent ref₀ el₀ hold

theorem Accounted.effect (hacc : Accounted cfg i s) (htidy : Tidy cfg s) (hcontexts : Contexts cfg s.bcs)
    (hok : steady cfg i designated s ev = true) (heffect : Effect cfg s ev s') : Accounted cfg i s' := by
  rcases hacc with ⟨habsent, hallocs⟩ | ⟨e, out, hledger, hcovers⟩
  · have hallocs' := allocs_of_effect htidy heffect habsent hallocs
    rcases absent_or_added htidy.wf habsent (instances_of_effect htidy hok heffect) with
      habsent' | ⟨e, hledger⟩
    · exact .inl ⟨habsent', hallocs'⟩
    refine .inr ⟨e, ∅, hledger, ?_, ?_⟩
    · exact fun k a hk hid => absurd hid (hallocs' k a hk)
    · exact fun k h hk => absurd hk (by simp)
  · obtain ⟨out', hledger', hcovers'⟩ := hledger.effect hcovers htidy hcontexts hok heffect
    exact .inr ⟨e, out', hledger', hcovers'⟩

/-! ### Reading the ledger -/

section

variable (hledger : Ledger cfg i e s.bcs out)
include hledger

theorem Ledger.session_le (hlive : Live cfg s.bcs ref r) (hins : r.insElem = e) :
    (r.allocThdMap.len : ℤ) + (if cfg.enableAgentSession then 0 else (r.overAcqThdMap.len : ℤ)) ≤
      r.availThdMap.len +
        out.count fun _ h => h.role ≠ .madeUp ∧ h.alloc.sessionCtx = some ref := by
  have hheld := hledger.records ref r hlive hins
  have hused := len_le_count (r.allocThdMap.filter fun x _ => (r.availThdMap.lookup x).isNone) out
    (fun _ h => h.role = .used ∧ h.alloc.sessionCtx = some ref) (fun h => h.alloc.allocationID) (by
      intro x hx
      obtain ⟨v, hv⟩ := isSome_iff_exists.mp hx
      rw [lookup_filter, filter_eq_some_iff] at hv
      obtain ⟨k, h, hk, hrole, hof⟩ := hheld.used x (isSome_iff_exists.mpr ⟨v, hv.1⟩)
        (isNone_iff_eq_none.mp hv.2)
      exact ⟨k, h, hk, ⟨hrole, hof.1⟩, hof.2⟩)
  have hsplit := r.allocThdMap.len_le_len_add_filter r.availThdMap
  have hover : (if cfg.enableAgentSession then 0 else (r.overAcqThdMap.len : ℤ)) ≤
      out.count fun _ h => h.role = .overAcq ∧ h.alloc.sessionCtx = some ref := by
    split
    · exact count_nonneg out _
    rename_i hagent
    refine len_le_count r.overAcqThdMap out _ (fun h => h.alloc.allocationID) ?_
    intro x hx
    obtain ⟨k, h, hk, hrole, hof⟩ := hheld.overAcq x hx
    rw [overRole, if_neg hagent] at hrole
    exact ⟨k, h, hk, ⟨hrole, hof.1⟩, hof.2⟩
  have hboth : (out.count fun _ h => h.role = .used ∧ h.alloc.sessionCtx = some ref) +
      (out.count fun _ h => h.role = .overAcq ∧ h.alloc.sessionCtx = some ref) ≤
      out.count fun _ h => h.role ≠ .madeUp ∧ h.alloc.sessionCtx = some ref := by
    refine count_add_le ?_ ?_ ?_
    · rintro k h ⟨hrole, href⟩
      exact ⟨by rw [hrole]; exact Role.noConfusion, href⟩
    · rintro k h ⟨hrole, href⟩
      exact ⟨by rw [hrole]; exact Role.noConfusion, href⟩
    rintro k h ⟨hrole, -⟩ ⟨hrole', -⟩
    rw [hrole] at hrole'
    cases hrole'
  omega

theorem Ledger.sessions_le : s.bcs.sessionThreads cfg e ≤ s.bcs.unused e +
      out.count fun _ h => h.role ≠ .madeUp ∧ h.alloc.sessionCtx.isSome = true := by
  have hsum : s.bcs.sessionThreads cfg e ≤ s.bcs.unused e + s.bcs.records.total fun ref _ =>
        out.count fun _ h => h.role ≠ .madeUp ∧ h.alloc.sessionCtx = some ref := by
    unfold sessionThreads unused
    rw [← total_add]
    refine total_mono fun ref r hr => ?_
    have hnonneg := count_nonneg out fun _ h => h.role ≠ .madeUp ∧ h.alloc.sessionCtx = some ref
    split
    case isTrue hlive =>
      rw [if_pos hlive.1]
      exact hledger.session_le ⟨hr, hlive.2⟩ hlive.1
    case isFalse =>
      split
      · omega
      · omega
  have howners := total_count_le s.bcs.records out (fun _ h => h.role ≠ .madeUp)
    fun h => h.alloc.sessionCtx
  omega

theorem Ledger.plain_le (hcovers : Covers i s out) :
    s.plainThreads i ≤ out.count fun _ h => h.role ≠ .madeUp ∧ h.alloc.sessionCtx = none := by
  refine count_le_count s.allocs out _ _ ?_
  rintro k a hk ⟨hid, hctx⟩
  obtain ⟨h, hk', rfl, -⟩ := hcovers.allocs k a hk hid
  exact ⟨h, hk', (hledger.holders k h hk').real (.inr hctx), hctx⟩

end

/-- The threads that are free, with sessions or handed out are no more than the instance has, but
for those designated when none was free. -/
theorem threads_conserved (cfg : Config) (i : String) (designated : Bool) (s : System)
    (hreach : (scheduler cfg).Reach (fun s e => steady cfg i designated s e = true) s) (e : Nat)
    (el : InstanceElement) (hel : s.bcs.elems.lookup e = some el) (hid : el.ins.instanceID = i) :
    el.threadMap.len + s.plainThreads i + s.bcs.sessionThreads cfg e ≤
      el.ins.concurrentNum.toNat + if designated then el.overIssued else 0 := by
  have hacc : Accounted cfg i s := by
    refine hreach.invariant ?_ ?_
    · intro s hinit
      refine .inl ⟨?_, ?_⟩
      · simp [hinit.elems]
      · simp [hinit.allocs]
    · intro s e s' l hprev hok hacc hstep
      have htidy := tidy_of_reach hprev
      have hcontexts : Contexts cfg s.bcs := by
        refine hprev.invariant (P := fun s => Contexts cfg s.bcs) ?_ ?_
        · intro s hinit ref r el hr
          rw [hinit.records] at hr
          exact absurd hr (by simp)
        · intro s e s' l hprev hok hcontexts hstep
          have htidy := tidy_of_reach hprev
          exact hcontexts.instances htidy.wf (instances_of_effect htidy hok (effect_of_step htidy.wf hstep))
      exact hacc.effect htidy hcontexts hok (effect_of_step htidy.wf hstep)
  rcases hacc with ⟨habsent, -⟩ | ⟨e₀, out, hledger, hcovers⟩
  · exact absurd hid (habsent e el hel)
  obtain rfl := hledger.sole e el hel hid
  obtain ⟨el₀, hel₀, -, hle⟩ := hledger.elem
  rw [hel] at hel₀
  cases hel₀
  have hplain := hledger.plain_le hcovers
  have hsessions := hledger.sessions_le
  have hheld : (out.count fun _ h => h.role ≠ .madeUp ∧ h.alloc.sessionCtx = none) +
      (out.count fun _ h => h.role ≠ .madeUp ∧ h.alloc.sessionCtx.isSome = true) ≤ held out := by
    refine count_add_le (fun _ _ h => h.1) (fun _ _ h => h.1) ?_
    rintro k h ⟨-, hnone⟩ ⟨-, hsome⟩
    rw [hnone] at hsome
    cases hsome
  have hissued : el.overIssued = if designated then el.overIssued else 0 := by
    cases designated with
    | false => exact (unissued_of_reach hreach).elems e el hel
    | true => rfl
  omega

end Ledger

theorem threads_conserved_both_used : ∃ s el,
    (scheduler plainConfig).Reach (fun s e => steady plainConfig "i" false s e = true) s ∧
      s.bcs.elems.lookup 0 = some el ∧ el.ins.instanceID = "i" ∧ s.plainThreads "i" = 1 ∧
      s.bcs.sessionThreads plainConfig 0 = 1 ∧
      el.threadMap.len + s.plainThreads "i" + s.bcs.sessionThreads plainConfig 0 ≤
        el.ins.concurrentNum.toNat + if false then el.overIssued else 0 := by
  obtain ⟨s, hreach, el, hel, hid, hplain, hsessions⟩ :=
    reach_of_run plainConfig (steady plainConfig "i" false) true
    [.addInstance (plainInstance "i" 2) "p", .acquire 0 (plainRequest "s" 1), .resume 0 {},
      .acquire 1 {}, .resume 1 {}]
    (fun s => ∃ el, s.bcs.elems.lookup 0 = some el ∧ el.ins.instanceID = "i" ∧
      s.plainThreads "i" = 1 ∧ s.bcs.sessionThreads plainConfig 0 = 1) (by decide)
  exact ⟨s, el, hreach, hel, hid, hplain, hsessions,
    threads_conserved plainConfig "i" false s hreach 0 el hel hid⟩

/-- A designated thread is issued while the only one is in use, which is later handed out, too. -/
theorem threads_issued_beyond : ∃ s el, (scheduler plainConfig).Reachable s ∧
    s.bcs.elems.lookup 0 = some el ∧ el.ins.instanceID = "i" ∧ el.ins.concurrentNum = 1 ∧
    el.ins.concurrentNum <
      el.threadMap.len + s.plainThreads "i" + s.bcs.sessionThreads plainConfig 0 := by
  obtain ⟨s, hreach, el, hel, hid, hnum, hlt⟩ := reachable_of_run plainConfig true
    [.addInstance (plainInstance "i" 1) "p", .acquire 0 {}, .resume 0 {},
      .acquire 1 { designateThreadID := "x" }, .resume 1 {}, .release 1, .acquire 2 {}, .resume 2 {}]
    (fun s => ∃ el, s.bcs.elems.lookup 0 = some el ∧ el.ins.instanceID = "i" ∧
      el.ins.concurrentNum = 1 ∧ el.ins.concurrentNum <
        el.threadMap.len + s.plainThreads "i" + s.bcs.sessionThreads plainConfig 0) (by decide)
  exact ⟨s, el, hreach, hel, hid, hnum, hlt⟩

end Yuanrong.Concurrency
