import Yuanrong.ConcurrencyScheduler.System

/-!
# What the sections of the concurrency scheduler can do

The one place where acquire and release are taken apart. An acquire prepares a state by dropping,
binding and signalling sessions, and then obtains a thread in one of four ways or fails; a release
gives a thread back to its session or to its instance, or nowhere.
-/

namespace Yuanrong.Concurrency

open AList Option BasicConcurrencyScheduler Prod InstanceQueue

/-! ### Elements -/

namespace InstanceElement

variable (el : InstanceElement)

/-- What taking a thread leaves of an element, with the count of threads issued beyond its own. -/
def taken (pick : Nat) : InstanceElement :=
  if el.threadMap.len = 0 then
    { (el.getThreadFromThreadMap pick).2 with
      overIssued := (el.getThreadFromThreadMap pick).2.overIssued + 1 }
  else
    (el.getThreadFromThreadMap pick).2

structure Within (el' el : InstanceElement) : Prop where
  ins : el'.ins = el.ins
  threadIndex : el'.threadIndex = el.threadIndex
  threadIDPrefix : el'.threadIDPrefix = el.threadIDPrefix
  threads : ∀ x, (el'.threadMap.lookup x).isSome = true → (el.threadMap.lookup x).isSome = true
  len : el'.threadMap.len ≤ el.threadMap.len
  overIssued : el.overIssued ≤ el'.overIssued

theorem Within.refl : el.Within el :=
  ⟨rfl, rfl, rfl, fun _ h => h, le_rfl, le_rfl⟩

theorem Within.trans {a b c : InstanceElement} (h : a.Within b) (h' : b.Within c) : a.Within c :=
  ⟨h.ins.trans h'.ins, h.threadIndex.trans h'.threadIndex,
    h.threadIDPrefix.trans h'.threadIDPrefix, fun x hx => h'.threads x (h.threads x hx),
    h.len.trans h'.len, h'.overIssued.trans h.overIssued⟩

theorem getThreadFromThreadMap_cases (pick : Nat) :
    (el.threadMap.len = 0 ∧ el.getThreadFromThreadMap pick = ("", el)) ∨
    ∃ x, el.threadMap.lookup x = some () ∧
      el.getThreadFromThreadMap pick = (x, { el with threadMap := el.threadMap.erase x }) := by
  unfold getThreadFromThreadMap
  cases hpick : el.threadMap.pick pick with
  | none => exact .inl ⟨pick_eq_none_iff.mp hpick, rfl⟩
  | some x =>
    obtain ⟨v, hv⟩ := lookup_of_pick hpick
    exact .inr ⟨x, hv, rfl⟩

theorem getThreadFromThreadMap_within (pick : Nat) : (el.getThreadFromThreadMap pick).2.Within el := by
  rcases el.getThreadFromThreadMap_cases pick with ⟨-, heq⟩ | ⟨x, -, heq⟩
  · rw [heq]
    exact Within.refl el
  rw [heq]
  refine ⟨rfl, rfl, rfl, ?_, el.threadMap.len_erase_le x, le_rfl⟩
  intro y hy
  obtain ⟨v, hv⟩ := isSome_iff_exists.mp hy
  rw [lookup_of_erase hv]
  rfl

theorem taken_within (pick : Nat) : (el.taken pick).Within el := by
  unfold taken
  have hwithin := el.getThreadFromThreadMap_within pick
  split
  · exact { hwithin with overIssued := hwithin.overIssued.trans (Nat.le_succ _) }
  · exact hwithin

theorem taken_balance (pick : Nat) : (el.taken pick).threadMap.len + 1 + el.overIssued =
      el.threadMap.len + (el.taken pick).overIssued := by
  unfold taken
  rcases el.getThreadFromThreadMap_cases pick with ⟨hzero, heq⟩ | ⟨x, hx, heq⟩
  · rw [if_pos hzero, heq]
    dsimp only
    omega
  · have hlen := len_erase_of_some hx
    rw [if_neg (by omega), heq]
    dsimp only
    omega

theorem taken_overIssued {pick : Nat} (hfree : el.threadMap.len ≠ 0) :
    (el.taken pick).overIssued = el.overIssued := by
  unfold taken
  rw [if_neg hfree]
  rcases el.getThreadFromThreadMap_cases pick with ⟨-, heq⟩ | ⟨x, -, heq⟩
  · rw [heq]
  · rw [heq]

end InstanceElement

section

variable (el : InstanceElement) (threads : ThreadMap) (n : Nat) (picks : List Nat) (hn : n ≤ el.threadMap.len)
include el threads n picks hn

theorem takeThreads_spec : (takeThreads el threads n picks).1.Within el ∧
      (takeThreads el threads n picks).1.overIssued = el.overIssued ∧
      (takeThreads el threads n picks).1.threadMap.len +
        (takeThreads el threads n picks).2.len ≤ el.threadMap.len + threads.len := by
  induction n generalizing el threads picks with
  | zero => exact ⟨InstanceElement.Within.refl el, rfl, le_rfl⟩
  | succ _ ih =>
    unfold takeThreads
    rcases el.getThreadFromThreadMap_cases (picks.headD 0) with ⟨hzero, -⟩ | ⟨x, hx, heq⟩
    · omega
    rw [heq]
    have hlen := len_erase_of_some hx
    have hwithin := el.getThreadFromThreadMap_within (picks.headD 0)
    rw [heq] at hwithin
    obtain ⟨hw, hover, hle⟩ := ih { el with threadMap := el.threadMap.erase x }
      (threads.insert x ()) picks.tail (by dsimp only; omega)
    refine ⟨hw.trans hwithin, hover, hle.trans ?_⟩
    have hins := threads.len_insert_le x ()
    dsimp only
    omega

theorem lookup_takeThreads (hdisj : ∀ x, (threads.lookup x).isSome = true → el.threadMap.lookup x = none)
    (hx : ((takeThreads el threads n picks).2.lookup x).isSome = true) :
    ((threads.lookup x).isSome = true ∨ (el.threadMap.lookup x).isSome = true) ∧
      (takeThreads el threads n picks).1.threadMap.lookup x = none := by
  induction n generalizing el threads picks with
  | zero => exact ⟨.inl hx, hdisj x hx⟩
  | succ _ ih =>
    unfold takeThreads at hx ⊢
    rcases el.getThreadFromThreadMap_cases (picks.headD 0) with ⟨hzero, -⟩ | ⟨y, hy, heq⟩
    · omega
    rw [heq] at hx ⊢
    have hlen := len_erase_of_some hy
    obtain ⟨hfrom, hgone⟩ := ih { el with threadMap := el.threadMap.erase y }
      (threads.insert y ()) picks.tail (by dsimp only; omega) (by
        intro z hz
        rw [lookup_erase_eq_ite]
        split
        · rfl
        case isFalse hne =>
          rw [lookup_insert_ne hne] at hz
          exact hdisj z hz) hx
    refine ⟨?_, hgone⟩
    rw [lookup_insert_eq_ite, lookup_erase_eq_ite] at hfrom
    split at hfrom
    case isTrue heqxy =>
      subst heqxy
      rw [hy]
      exact .inr rfl
    case isFalse => exact hfrom

end

/-! ### Records -/

namespace SessionRecord

def Takes (r : SessionRecord) (designateThreadID threadID : String) (r' : SessionRecord) : Prop :=
  ∃ y, r.availThdMap.lookup y = some () ∧
    ((threadID = y ∧ r' = { r with availThdMap := r.availThdMap.erase y }) ∨
      (threadID = designateThreadID ∧ designateThreadID ≠ "" ∧
        r.allocThdMap.lookup designateThreadID = none ∧ r' = { r with
          availThdMap := r.availThdMap.erase y
          allocThdMap := (r.allocThdMap.erase y).insert designateThreadID () }))

def signalled (r : SessionRecord) : SessionRecord :=
  { r with expireCancelCh := r.expireCancelCh || r.expiring }

def Exhausted (r : SessionRecord) : Prop :=
  r.availThdMap.len = 0 ∨
    ∃ x, (r.allocThdMap.lookup x).isSome = true ∧ (r.availThdMap.lookup x).isSome = false

theorem getThreadFromAvailThdMap_spec (r : SessionRecord) (pick : Nat) (havail : r.availThdMap.len ≠ 0) :
    ∃ y, r.availThdMap.lookup y = some () ∧
      r.getThreadFromAvailThdMap pick = (y, { r with availThdMap := r.availThdMap.erase y }) := by
  unfold getThreadFromAvailThdMap
  cases hpick : r.availThdMap.pick pick with
  | none => exact absurd (pick_eq_none_iff.mp hpick) havail
  | some y =>
    obtain ⟨v, hv⟩ := lookup_of_pick hpick
    exact ⟨y, hv, rfl⟩

variable {r : SessionRecord} {pick : Nat}

theorem takes_of_getOrReplace (havail : r.availThdMap.len ≠ 0)
    (hget : r.getOrReplaceDesignateThreadFromAvailThdMap designateThreadID pick = some (threadID, r')) :
    r.Takes designateThreadID threadID r' := by
  obtain ⟨y, hy, hpick⟩ := r.getThreadFromAvailThdMap_spec pick havail
  unfold getOrReplaceDesignateThreadFromAvailThdMap at hget
  rw [hpick] at hget
  split at hget
  · obtain ⟨rfl, rfl⟩ := Prod.mk.inj (some.inj hget)
    exact ⟨_, hy, .inl ⟨rfl, rfl⟩⟩
  rename_i hdesignate
  split at hget
  case isTrue hin =>
    obtain ⟨rfl, rfl⟩ := Prod.mk.inj (some.inj hget)
    obtain ⟨v, hv⟩ := isSome_iff_exists.mp hin
    exact ⟨_, hv, .inl ⟨rfl, rfl⟩⟩
  case isFalse =>
    split at hget
    · cases hget
    case isFalse hnew =>
      obtain ⟨rfl, rfl⟩ := Prod.mk.inj (some.inj hget)
      exact ⟨y, hy, .inr ⟨rfl, hdesignate, by simpa using hnew, rfl⟩⟩

theorem exhausted_of_getOrReplace
    (hget : r.getOrReplaceDesignateThreadFromAvailThdMap designateThreadID pick = none) : r.Exhausted := by
  unfold getOrReplaceDesignateThreadFromAvailThdMap at hget
  split at hget
  · cases hget
  split at hget
  · cases hget
  case isFalse hfree =>
    split at hget
    case isTrue hused => exact .inr ⟨designateThreadID, hused, by simpa using hfree⟩
    case isFalse => cases hget

end SessionRecord

/-! ### Acquire -/

namespace BasicConcurrencyScheduler

variable (bcs : BasicConcurrencyScheduler) (name : QueueName) (ref : Nat) (el : InstanceElement)

def refile : BasicConcurrencyScheduler := (bcs.updateObjByID name el.ins.instanceID ref el).1

@[simp]
theorem refile_elems : (bcs.refile name ref el).elems = bcs.elems := by
  cases name <;> rfl

@[simp]
theorem refile_records : (bcs.refile name ref el).records = bcs.records := by
  cases name <;> rfl

@[simp]
theorem refile_sessionMap : (bcs.refile name ref el).sessionMap = bcs.sessionMap := by
  cases name <;> rfl

@[simp]
theorem refile_unbinds : (bcs.refile name ref el).unbinds = bcs.unbinds := by
  cases name <;> rfl

@[simp]
theorem refile_nextRef : (bcs.refile name ref el).nextRef = bcs.nextRef := by
  cases name <;> rfl

end BasicConcurrencyScheduler

def newRecord (cfg : Config) (sessionID : String) (concurrency : Int) (ref : Nat)
    (el : InstanceElement) (threads : ThreadMap) : SessionRecord where
  availThdMap := threads
  allocThdMap := threads
  overAcqThdMap := ∅
  expiring := false
  concurrency
  sessionID
  sessionCtxID := if cfg.enableSessionCtx then el.ins.sessionCtxID.getD "" else ""
  expireCancelCh := false
  insElem := ref

def BasicConcurrencyScheduler.bindTo (cfg : Config) (bcs : BasicConcurrencyScheduler)
    (name : QueueName) (el : InstanceElement) (r : SessionRecord) : BasicConcurrencyScheduler :=
  { ((bcs.setElem r.insElem el).refile name r.insElem el).setRecord bcs.nextRef r with
    nextRef := bcs.nextRef + 1 }.addSession (getRecordCacheKey cfg r) bcs.nextRef

section BindTo

variable (cfg : Config) (bcs : BasicConcurrencyScheduler) (name : QueueName) (el : InstanceElement)
  (r : SessionRecord)

@[simp]
theorem bindTo_elems : (bcs.bindTo cfg name el r).elems = bcs.elems.insert r.insElem el := by
  cases name <;> rfl

@[simp]
theorem bindTo_records : (bcs.bindTo cfg name el r).records = bcs.records.insert bcs.nextRef r := by
  cases name <;> rfl

@[simp]
theorem bindTo_sessionMap : (bcs.bindTo cfg name el r).sessionMap =
    bcs.sessionMap.insert (getRecordCacheKey cfg r) bcs.nextRef := by
  cases name <;> rfl

@[simp]
theorem bindTo_unbinds : (bcs.bindTo cfg name el r).unbinds = bcs.unbinds := by
  cases name <;> rfl

end BindTo

structure Demand where
  sessionID : String
  sessionCtxID : String
  designateThreadID : String

def InstanceAcquireRequest.demand (req : InstanceAcquireRequest) : Demand where
  sessionID := req.instanceSession.sessionID
  sessionCtxID := req.sessionCtxID
  designateThreadID := req.designateThreadID

namespace Demand

variable (cfg : Config) (d : Demand)

def cacheKey : String := getSessionCacheKey cfg d.sessionID d.sessionCtxID

def bareKey : String := getSessionCacheKey cfg "" d.sessionCtxID

end Demand

inductive Prepares (cfg : Config) (d : Demand) :
    BasicConcurrencyScheduler → BasicConcurrencyScheduler → Prop
  | refile {bcs : BasicConcurrencyScheduler} (name : QueueName) {ref : Nat} {el : InstanceElement}
      (hel : bcs.elems.lookup ref = some el) : Prepares cfg d bcs (bcs.refile name ref el)
  | lose {bcs : BasicConcurrencyScheduler} {ref : Nat} {el el' : InstanceElement}
      (hel : bcs.elems.lookup ref = some el) (hwithin : el'.Within el)
      (hissued : d.designateThreadID = "" → el'.overIssued = el.overIssued) :
      Prepares cfg d bcs (bcs.setElem ref el')
  | drop {bcs : BasicConcurrencyScheduler} (cacheKey : String) :
      Prepares cfg d bcs (bcs.delSession cacheKey)
  | bind {bcs : BasicConcurrencyScheduler} (name : QueueName) {ref : Nat}
      {el el' : InstanceElement} {threads : ThreadMap} (concurrency : Int)
      (hsession : d.sessionID ≠ "")
      (hel : bcs.elems.lookup ref = some el) (hwithin : el'.Within el)
      (hover : el'.overIssued = el.overIssued)
      (hthreads : ∀ x, (threads.lookup x).isSome = true →
        (el.threadMap.lookup x).isSome = true ∧ el'.threadMap.lookup x = none)
      (hlen : el'.threadMap.len + threads.len ≤ el.threadMap.len) :
      Prepares cfg d bcs
        (bcs.bindTo cfg name el' (newRecord cfg d.sessionID concurrency ref el threads))
  | signal {bcs : BasicConcurrencyScheduler} {ref : Nat} {r : SessionRecord}
      (hkey : bcs.sessionMap.lookup (d.cacheKey cfg) = some ref)
      (hr : bcs.records.lookup ref = some r)
      (hreason : r.Exhausted ∨ bcs.elems.lookup r.insElem = none) :
      Prepares cfg d bcs (bcs.setRecord ref r.signalled)

abbrev Prepared (cfg : Config) (d : Demand) := Relation.ReflTransGen (Prepares cfg d)

inductive Obtains (cfg : Config) (d : Demand) :
    BasicConcurrencyScheduler → InstanceAllocation → BasicConcurrencyScheduler → Prop
  | plain {bcs : BasicConcurrencyScheduler} (name : QueueName) {ref : Nat} {el : InstanceElement}
      (pick : Nat) (threadID : String) (hel : bcs.elems.lookup ref = some el)
      (hfree : d.designateThreadID = "" → el.threadMap.len ≠ 0) :
      Obtains cfg d bcs { ins := el.ins, allocationID := threadID }
        ((bcs.setElem ref (el.taken pick)).refile name ref (el.taken pick))
  | session {bcs : BasicConcurrencyScheduler} {ref : Nat} {r r' : SessionRecord}
      {el : InstanceElement} {threadID : String}
      (hkey : bcs.sessionMap.lookup (d.cacheKey cfg) = some ref)
      (hr : bcs.records.lookup ref = some r)
      (hel : bcs.elems.lookup r.insElem = some el)
      (htakes : r.signalled.Takes d.designateThreadID threadID r') :
      Obtains cfg d bcs
        { ins := el.ins, allocationID := threadID, sessionID := d.sessionID, sessionCtx := some ref }
        (bcs.setRecord ref r')
  | overAcq {bcs : BasicConcurrencyScheduler} (name : QueueName) {ref : Nat} {r : SessionRecord}
      {el : InstanceElement} (pick : Nat) (threadID : String)
      (hkey : bcs.sessionMap.lookup (d.cacheKey cfg) = some ref)
      (hr : bcs.records.lookup ref = some r) (havail : r.availThdMap.len = 0)
      (hagent : cfg.enableAgentSession = false)
      (hel : bcs.elems.lookup r.insElem = some el)
      (hfree : d.designateThreadID = "" → el.threadMap.len ≠ 0) :
      Obtains cfg d bcs
        { ins := el.ins, allocationID := threadID, sessionID := d.sessionID, sessionCtx := some ref }
        (((bcs.setElem r.insElem (el.taken pick)).refile name r.insElem (el.taken pick)).setRecord ref
          { r with overAcqThdMap := r.overAcqThdMap.insert threadID () })
  | agent {bcs : BasicConcurrencyScheduler} {ref : Nat} {r : SessionRecord}
      {el : InstanceElement} (threadID : String)
      (hkey : bcs.sessionMap.lookup (d.cacheKey cfg) = some ref)
      (hr : bcs.records.lookup ref = some r) (havail : r.availThdMap.len = 0)
      (hagent : cfg.enableAgentSession = true) (hover : r.overAcqThdMap.len = 0)
      (hel : bcs.elems.lookup r.insElem = some el) :
      Obtains cfg d bcs
        { ins := el.ins, allocationID := threadID, sessionID := d.sessionID, sessionCtx := some ref,
          agentOverAcq := true }
        (bcs.setRecord ref { r with overAcqThdMap := r.overAcqThdMap.insert threadID () })

/-- All that an acquire does before its lease, but for a record under a bare key. -/
inductive Acquires (cfg : Config) (d : Demand) (bcs : BasicConcurrencyScheduler) :
    BasicConcurrencyScheduler × Except SchedulerError InstanceAllocation → Prop
  | failed {bcs' : BasicConcurrencyScheduler} {err : SchedulerError}
      (hprep : Prepared cfg d bcs bcs') :
      Acquires cfg d bcs (bcs', .error err)
  | obtained {bcs₁ bcs' : BasicConcurrencyScheduler} {alloc : InstanceAllocation}
      (hprep : Prepared cfg d bcs bcs₁)
      (hobtains : Obtains cfg d bcs₁ alloc bcs') :
      Acquires cfg d bcs (bcs', .ok alloc)
  | bare {bcs₁ : BasicConcurrencyScheduler}
      {result : BasicConcurrencyScheduler × Except SchedulerError InstanceAllocation}
      (hprep : Prepared cfg d bcs bcs₁)
      (hkey : (bcs₁.sessionMap.lookup (d.bareKey cfg)).isSome = true) : Acquires cfg d bcs result

variable {objID : String} {el : InstanceElement}

theorem Acquires.prepared (hprep : Prepared cfg d bcs bcs₁)
    (hacq : Acquires cfg d bcs₁ result) : Acquires cfg d bcs result := by
  cases hacq with
  | failed hrest => exact .failed (hprep.trans hrest)
  | obtained hrest hobtains => exact .obtained (hprep.trans hrest) hobtains
  | bare hrest hkey => exact .bare (hprep.trans hrest) hkey

section Acquire

variable {cfg : Config} {d : Demand} {bcs : BasicConcurrencyScheduler}

variable {ref : Nat}

theorem prepares_lose_refile (name : QueueName) (hel : bcs.elems.lookup ref = some el)
    (hwithin : el'.Within el) (hissued : d.designateThreadID = "" → el'.overIssued = el.overIssued) :
    Prepared cfg d bcs ((bcs.setElem ref el').refile name ref el') :=
  .tail (.single (.lose hel hwithin hissued)) (.refile name (lookup_insert bcs.elems))

theorem acquireInstanceThread_eq (hel : bcs.elems.lookup ref = some el) (designateThreadID : String)
    (name : QueueName) (pick : Nat) :
    bcs.acquireInstanceThread designateThreadID name ref pick =
      if el.threadMap.len = 0 ∧ designateThreadID = "" then
        (bcs, .error .noInsAvailable)
      else
        match (bcs.setElem ref (el.taken pick)).updateObjByID name (el.taken pick).ins.instanceID ref
          (el.taken pick) with
        | (bcs, some err) => (bcs, .error err)
        | (bcs, none) =>
          (bcs, .ok
            { ins := el.ins
              allocationID :=
                if designateThreadID ≠ "" then designateThreadID
                else (el.getThreadFromThreadMap pick).1 }) := by
  unfold acquireInstanceThread
  rw [hel, (el.taken_within pick).ins]
  rfl

variable (cfg bcs) in
theorem acquireInstanceThread_cases (req : InstanceAcquireRequest) (name : QueueName) (ref pick : Nat) :
    (∃ bcs' err, bcs.acquireInstanceThread req.designateThreadID name ref pick = (bcs', .error err) ∧
      Prepared cfg req.demand bcs bcs') ∨
    ∃ el threadID, bcs.elems.lookup ref = some el ∧
      (req.designateThreadID = "" → el.threadMap.len ≠ 0) ∧
      bcs.acquireInstanceThread req.designateThreadID name ref pick =
        ((bcs.setElem ref (el.taken pick)).refile name ref (el.taken pick),
          .ok { ins := el.ins, allocationID := threadID }) := by
  cases hel : bcs.elems.lookup ref with
  | none =>
    refine .inl ⟨bcs, .internal, ?_, .refl⟩
    unfold acquireInstanceThread
    rw [hel]
  | some el =>
    rw [acquireInstanceThread_eq hel]
    split
    · exact .inl ⟨bcs, _, rfl, .refl⟩
    rename_i hempty
    have hfree : req.designateThreadID = "" → el.threadMap.len ≠ 0 :=
      fun hnone hzero => hempty ⟨hzero, hnone⟩
    cases hupdate : (bcs.setElem ref (el.taken pick)).updateObjByID name
        (el.taken pick).ins.instanceID ref (el.taken pick) with
    | mk bcs' err =>
      have hrefile : (bcs.setElem ref (el.taken pick)).refile name ref (el.taken pick) = bcs' :=
        congrArg fst hupdate
      cases err with
      | some err =>
        refine .inl ⟨bcs', err, rfl, ?_⟩
        rw [← hrefile]
        exact prepares_lose_refile name hel (el.taken_within pick) fun hnone =>
          el.taken_overIssued (hfree hnone)
      | none =>
        refine .inr ⟨el, if req.designateThreadID ≠ "" then req.designateThreadID
          else (el.getThreadFromThreadMap pick).1, rfl, hfree, ?_⟩
        rw [hrefile]

theorem acquires_acquireInstanceThread (req : InstanceAcquireRequest) (hreq : req.demand = d)
    (name : QueueName) (ref pick : Nat) :
    Acquires cfg d bcs (bcs.acquireInstanceThread req.designateThreadID name ref pick) := by
  subst hreq
  rcases acquireInstanceThread_cases cfg bcs req name ref pick with
    ⟨bcs', err, heq, hprep⟩ | ⟨el, threadID, hel, hfree, heq⟩
  · rw [heq]
    exact .failed hprep
  · rw [heq]
    exact .obtained .refl (.plain name pick threadID hel hfree)

variable (cfg bcs) in
theorem bindThdWithSession_cases (name : QueueName) (ref : Nat) (session : InstanceSessionConfig)
    (picks : List Nat) (hid : session.sessionID = d.sessionID) (hsession : d.sessionID ≠ "") :
    (∃ bcs' err, bcs.bindThdWithSession cfg name ref session picks = (bcs', .error err) ∧
      Prepared cfg d bcs bcs') ∨
    ∃ bcs' record, bcs.bindThdWithSession cfg name ref session picks = (bcs', .ok record) ∧
      bcs'.sessionMap = bcs.sessionMap ∧
      ∃ r, bcs'.records.lookup record = some r ∧
        Prepares cfg d bcs (bcs'.addSession (getRecordCacheKey cfg r) record) := by
  unfold bindThdWithSession
  cases hel : bcs.elems.lookup ref with
  | none => exact .inl ⟨bcs, _, rfl, .refl⟩
  | some el =>
    dsimp only
    split
    · exact .inl ⟨bcs, _, rfl, .refl⟩
    generalize (if session.concurrency = -1 then el.ins.concurrentNum
      else session.concurrency) = concurrency
    split
    · exact .inl ⟨bcs, _, rfl, .refl⟩
    rename_i hle
    have hn : concurrency.toNat ≤ el.threadMap.len := by omega
    obtain ⟨hwithin, hover, hlen⟩ := takeThreads_spec el ∅ concurrency.toNat picks hn
    have hthreads := fun x => lookup_takeThreads el ∅ concurrency.toNat picks hn
      (fun y hy => absurd hy (by simp)) (x := x)
    generalize takeThreads el ∅ concurrency.toNat picks = taken at hwithin hover hlen hthreads ⊢
    rw [← hwithin.ins]
    cases hupdate : (bcs.setElem ref taken.1).updateObjByID name taken.1.ins.instanceID ref
        taken.1 with
    | mk bcs' err =>
      have hrefile : (bcs.setElem ref taken.1).refile name ref taken.1 = bcs' :=
        congrArg fst hupdate
      cases err with
      | some err =>
        refine .inl ⟨bcs', err, rfl, ?_⟩
        rw [← hrefile]
        exact prepares_lose_refile name hel hwithin fun _ => hover
      | none =>
        have hnextRef : bcs'.nextRef = bcs.nextRef := by
          rw [← hrefile]
          exact (bcs.setElem ref taken.1).refile_nextRef name ref taken.1
        have hsessionMap : bcs'.sessionMap = bcs.sessionMap := by
          rw [← hrefile]
          exact (bcs.setElem ref taken.1).refile_sessionMap name ref taken.1
        refine .inr ⟨_, _, rfl, hsessionMap, _, lookup_insert bcs'.records, ?_⟩
        rw [hnextRef, ← hrefile, hid, hwithin.ins]
        exact .bind name concurrency hsession hel hwithin hover
          (fun x hx => ⟨(hthreads x hx).1.resolve_left (by simp), (hthreads x hx).2⟩)
          (by simpa using hlen)

variable {r : SessionRecord}

theorem getSession_eq_some : bcs.getSession cacheKey = some (ref, r) ↔
      bcs.sessionMap.lookup cacheKey = some ref ∧ bcs.records.lookup ref = some r := by
  unfold getSession
  cases hmap : bcs.sessionMap.lookup cacheKey with
  | none => simp
  | some ref' =>
    cases hrecord : bcs.records.lookup ref' with
    | none =>
      simp only [bind_some, hrecord, map_none, reduceCtorEq, false_iff, not_and, some.injEq]
      rintro rfl hr
      cases hrecord.symm.trans hr
    | some =>
      simp only [bind_some, hrecord, map_some, some.injEq, Prod.mk.injEq]
      constructor
      · rintro ⟨rfl, rfl⟩
        exact ⟨rfl, hrecord⟩
      · rintro ⟨rfl, hr⟩
        exact ⟨rfl, some.inj (hrecord.symm.trans hr)⟩

theorem acquireSessionThread_of_getSession {pick ref : Nat}
    (hget : bcs.getSession (getSessionCacheKey cfg session.sessionID sessionCtxID) = some (ref, r)) :
    bcs.acquireSessionThread cfg designateThreadID session sessionCtxID pick =
      if r.availThdMap.len = 0 then
        (bcs.setRecord ref r.signalled, .error .noInsThdAvail)
      else
        match r.signalled.getOrReplaceDesignateThreadFromAvailThdMap designateThreadID pick,
          bcs.elems.lookup r.insElem with
        | some (threadID, r'), some el =>
          ((bcs.setRecord ref r.signalled).setRecord ref r', .ok
            { ins := el.ins, allocationID := threadID, sessionID := session.sessionID,
              sessionCtx := some ref })
        | _, _ => (bcs.setRecord ref r.signalled, .error .internal) := by
  unfold acquireSessionThread
  rw [hget]
  rfl

theorem acquireSessionThread_cases (req : InstanceAcquireRequest) (hreq : req.demand = d)
    (pick : Nat) (hresult : bcs.acquireSessionThread cfg req.designateThreadID req.instanceSession
      req.sessionCtxID pick = result) :
    (∃ ref r, bcs.sessionMap.lookup (d.cacheKey cfg) = some ref ∧
      bcs.records.lookup ref = some r ∧ r.availThdMap.len = 0 ∧
      result = (bcs.setRecord ref r.signalled, .error .noInsThdAvail)) ∨
    (∃ bcs' alloc, result = (bcs', .ok alloc) ∧ Obtains cfg d bcs alloc bcs') ∨
    ∃ bcs', result = (bcs', .error .internal) ∧
      Prepared cfg d bcs bcs' := by
  subst hreq
  cases hget : bcs.getSession (getSessionCacheKey cfg req.instanceSession.sessionID
      req.sessionCtxID) with
  | none =>
    unfold acquireSessionThread at hresult
    rw [hget] at hresult
    exact .inr (.inr ⟨bcs, hresult.symm, .refl⟩)
  | some entry =>
    obtain ⟨ref, r⟩ := entry
    obtain ⟨hmap, hr⟩ := getSession_eq_some.mp hget
    rw [← hresult, acquireSessionThread_of_getSession hget]
    split
    case isTrue hzero => exact .inl ⟨ref, r, hmap, hr, hzero, rfl⟩
    rename_i havail
    refine .inr ?_
    cases htake : r.signalled.getOrReplaceDesignateThreadFromAvailThdMap req.designateThreadID
        pick with
    | none =>
      have hexhausted : r.signalled.Exhausted := SessionRecord.exhausted_of_getOrReplace htake
      exact .inr ⟨_, rfl, .single (.signal hmap hr (.inl hexhausted))⟩
    | some taken =>
      obtain ⟨threadID, r'⟩ := taken
      cases hel : bcs.elems.lookup r.insElem with
      | none => exact .inr ⟨_, rfl, .single (.signal hmap hr (.inr hel))⟩
      | some =>
        have hset : (bcs.setRecord ref r.signalled).setRecord ref r' = bcs.setRecord ref r' := by
          simp only [setRecord, insert_insert]
        refine .inl ⟨_, _, rfl, ?_⟩
        rw [hset]
        exact .session hmap hr hel (SessionRecord.takes_of_getOrReplace havail htake)

theorem acquires_overAcq (name : QueueName) (req : InstanceAcquireRequest) (hreq : req.demand = d)
    (choice : Choice) (hkey : bcs.sessionMap.lookup (d.cacheKey cfg) = some ref)
    (hr : bcs.records.lookup ref = some r) (havail : r.availThdMap.len = 0) (hsession : d.sessionID ≠ "") :
    Acquires cfg d bcs (bcs.acquireInstanceWithOverAcqSession cfg name ref req choice) := by
  subst hreq
  have hagent : isAgentSession cfg req = cfg.enableAgentSession := by
    unfold isAgentSession
    rw [decide_eq_true (p := req.instanceSession.sessionID ≠ "") hsession, Bool.and_true]
  unfold acquireInstanceWithOverAcqSession
  rw [hr, hagent]
  dsimp only
  split
  case isTrue hagent =>
    split
    · exact .failed .refl
    case isFalse hlimit =>
      cases hel : bcs.elems.lookup r.insElem with
      | none => exact .failed .refl
      | some => exact .obtained .refl (.agent _ hkey hr havail hagent (by omega) hel)
  case isFalse hagent =>
    rcases acquireInstanceThread_cases cfg bcs req name r.insElem choice.pick with
      ⟨bcs', err, heq, hprep⟩ | ⟨el, threadID, hel, hfree, heq⟩
    · rw [heq]
      exact .failed hprep
    rw [heq]
    exact .obtained .refl
      (.overAcq name choice.pick threadID hkey hr havail (by simpa using hagent) hel hfree)

theorem acquires_acquireThreadOrOverAcquire (name : QueueName) (req : InstanceAcquireRequest)
    (hreq : req.demand = d) (overAcq : Option Nat) (choice : Choice)
    (hover : ∀ ref ref', bcs.sessionMap.lookup (d.cacheKey cfg) = some ref → overAcq = some ref' →
      ref' = ref) (hsession : d.sessionID ≠ "") :
    Acquires cfg d bcs (bcs.acquireThreadOrOverAcquire cfg name req overAcq choice) := by
  unfold acquireThreadOrOverAcquire
  rcases acquireSessionThread_cases req hreq choice.pick rfl with
    ⟨ref, r, hkey, hr, havail, heq⟩ | ⟨bcs', alloc, heq, hobtains⟩ | ⟨bcs', heq, hprep⟩
  · rw [heq]
    have hsignal : Prepared cfg d bcs (bcs.setRecord ref r.signalled) :=
      .single (.signal hkey hr (.inl (.inl havail)))
    cases overAcq with
    | none => exact .failed hsignal
    | some ref' =>
      obtain rfl := hover ref ref' hkey rfl
      exact Acquires.prepared hsignal (acquires_overAcq name req hreq choice hkey
        (lookup_insert bcs.records) havail hsession)
  · rw [heq]
    exact .obtained .refl hobtains
  · rw [heq]
    exact .failed hprep

theorem fst_of_getSession (ref ref' : Nat) (hkey : bcs.sessionMap.lookup cacheKey = some ref)
    (hget : (bcs.getSession cacheKey).map fst = some ref') : ref' = ref := by
  obtain ⟨⟨ref₁, r⟩, hentry, rfl⟩ := map_eq_some_iff.mp hget
  exact some.inj ((getSession_eq_some.mp hentry).1.symm.trans hkey)

variable (cfg d bcs) in
theorem isSessionExist_cases (name : QueueName) (req : InstanceAcquireRequest) :
    bcs.isSessionExist cfg name req = (bcs, true) ∨
      ∃ bcs', bcs.isSessionExist cfg name req = (bcs', false) ∧
        Prepared cfg d bcs bcs' := by
  unfold isSessionExist
  dsimp only
  split
  · exact .inr ⟨bcs, rfl, .refl⟩
  split
  · exact .inr ⟨_, rfl, .single (.drop _)⟩
  · exact .inl rfl

theorem acquires_acquireSessionInstance (name : QueueName) (req : InstanceAcquireRequest)
    (hreq : req.demand = d) (choice : Choice) (hsession : d.sessionID ≠ "") :
    Acquires cfg d bcs (bcs.acquireSessionInstance cfg name req choice) := by
  unfold acquireSessionInstance
  -- the agent rule changes the concurrency only
  have hreq' : (if isAgentSession cfg req then
      { req with instanceSession := { req.instanceSession with concurrency := 1 } }
      else req).demand = d := by
    split
    · exact hreq
    · exact hreq
  dsimp only
  generalize (if isAgentSession cfg req then
      { req with instanceSession := { req.instanceSession with concurrency := 1 } }
      else req) = req' at hreq' ⊢
  have hkey : getSessionCacheKey cfg req'.instanceSession.sessionID req'.sessionCtxID = d.cacheKey cfg := by
    rw [← hreq']
    rfl
  rw [hkey]
  split
  · exact .failed .refl
  rcases isSessionExist_cases cfg d bcs name req' with
    heq | ⟨bcs₁, heq, hprep⟩
  · rw [heq]
    exact acquires_acquireThreadOrOverAcquire name req' hreq' _ choice
      (fun ref ref' => fst_of_getSession ref ref') hsession
  · rw [heq]
    refine Acquires.prepared hprep ?_
    dsimp only
    split
    · exact .failed .refl
    rename_i ref _ _
    have hid : req'.instanceSession.sessionID = d.sessionID := by
      rw [← hreq']
      rfl
    rcases bindThdWithSession_cases cfg bcs₁ name ref req'.instanceSession choice.bindPicks hid hsession with
      ⟨bcs₂, err, hbind, hlost⟩ | ⟨bcs₂, record, hbind, -, r, hr, hbound⟩
    · rw [hbind]
      exact .failed hlost
    rw [hbind]
    dsimp only
    rw [hr]
    exact Acquires.prepared (.single hbound) (acquires_acquireThreadOrOverAcquire name req' hreq' _ choice
        (fun ref ref' => fst_of_getSession ref ref') hsession)

def Linked (bcs : BasicConcurrencyScheduler) : Prop :=
  ∀ cacheKey ref, bcs.sessionMap.lookup cacheKey = some ref →
    ∃ r, bcs.records.lookup ref = some r

/-- A request whose session has been taken out fails, unless there is a record under its bare
key. -/
theorem acquires_without_session (name : QueueName) (req : InstanceAcquireRequest)
    (hreq : req.demand = d) (overAcq : Option Nat) (choice : Choice) :
    Acquires cfg d bcs (bcs.acquireThreadOrOverAcquire cfg name
      { req with instanceSession := { req.instanceSession with sessionID := "" } } overAcq choice) := by
  cases hbare : bcs.sessionMap.lookup (d.bareKey cfg) with
  | some =>
    refine .bare .refl ?_
    rw [hbare]
    rfl
  | none =>
    have hget : bcs.getSession (getSessionCacheKey cfg "" req.sessionCtxID) = none := by
      unfold getSession
      have hnone : bcs.sessionMap.lookup (getSessionCacheKey cfg "" req.sessionCtxID) = none := by
        rw [← hreq] at hbare
        exact hbare
      rw [hnone]
      rfl
    unfold acquireThreadOrOverAcquire acquireSessionThread
    rw [hget]
    exact .failed .refl

theorem acquires_acquireDesignateInstance (name : QueueName) (req : InstanceAcquireRequest)
    (hreq : req.demand = d) (choice : Choice) (hlinked : Linked bcs) :
    let result := bcs.acquireDesignateInstance cfg name req choice
    Acquires cfg d bcs (result.1, result.2.2) ∧
      (result.2.1.instanceSession.sessionID ≠ "" → result.2.1 = req) := by
  have hkey : getSessionCacheKey cfg req.instanceSession.sessionID req.sessionCtxID = d.cacheKey cfg := by
    rw [← hreq]
    rfl
  have hid : req.instanceSession.sessionID = d.sessionID := by
    rw [← hreq]
    rfl
  unfold acquireDesignateInstance
  rw [hkey]
  dsimp only
  split
  · exact ⟨.failed .refl, fun _ => rfl⟩
  rename_i ref el _
  split
  · exact ⟨.failed .refl, fun _ => rfl⟩
  split
  case isTrue hsession =>
    rw [hid] at hsession
    split
    · exact ⟨.failed (.single (.drop _)), fun _ => rfl⟩
    split
    case h_1 record r hget =>
      split
      · refine ⟨acquires_without_session name req hreq (some record) choice, ?_⟩
        intro hne
        exact absurd rfl hne
      · refine ⟨?_, fun _ => rfl⟩
        refine acquires_acquireThreadOrOverAcquire name req hreq (some record) choice ?_ hsession
        rintro ref' _ hmap ⟨⟩
        exact some.inj ((getSession_eq_some.mp hget).1.symm.trans hmap)
    case h_2 hget =>
      rcases bindThdWithSession_cases cfg bcs name ref req.instanceSession choice.bindPicks hid hsession with
        ⟨bcs₂, err, hbind, hlost⟩ | ⟨bcs₂, record, hbind, hmap₂, r, hr, hbound⟩
      · rw [hbind]
        exact ⟨.failed hlost, fun _ => rfl⟩
      · rw [hbind]
        dsimp only
        rw [hr]
        refine ⟨Acquires.prepared (.single hbound) ?_, fun _ => rfl⟩
        refine acquires_acquireThreadOrOverAcquire name req hreq (some record) choice ?_ hsession
        rintro ref' _ hmap ⟨⟩
        rcases lookup_of_insert hmap with ⟨-, heq⟩ | hold
        · exact heq
        · rw [hmap₂] at hold
          obtain ⟨r', hr'⟩ := hlinked _ _ hold
          rw [getSession_eq_some.mpr ⟨hold, hr'⟩] at hget
          cases hget
  case isFalse =>
    split
    · exact ⟨.failed .refl, fun _ => rfl⟩
    · exact ⟨acquires_acquireInstanceThread req hreq name ref _, fun _ => rfl⟩

def BasicConcurrencyScheduler.acquireUnleased (cfg : Config) (bcs : BasicConcurrencyScheduler)
    (insQue : QueueName) (req : InstanceAcquireRequest) (choice : Choice) :
    BasicConcurrencyScheduler × Except SchedulerError InstanceAllocation :=
  if req.designateInstanceID ≠ "" then
    match bcs.acquireDesignateInstance cfg insQue req choice with
    | (bcs, req, .error .insNotExist) =>
      if req.instanceSession.sessionID ≠ "" then
        bcs.acquireSessionInstance cfg insQue { req with designateInstanceID := "" } choice
      else
        (bcs, .error .insNotExist)
    | (bcs, _, result) => (bcs, result)
  else if req.instanceSession.sessionID ≠ "" then
    bcs.acquireSessionInstance cfg insQue req choice
  else
    bcs.acquireDefaultInstance insQue req choice

section

variable (name : QueueName) (req : InstanceAcquireRequest)
include name req

theorem acquireInstanceInternal_def (choice : Choice) :
    bcs.acquireInstanceInternal cfg name req choice =
      match (bcs.acquireUnleased cfg name req choice).2 with
      | .error err => ((bcs.acquireUnleased cfg name req choice).1, .error err)
      | .ok alloc =>
        if choice.leaseFails then
          (((bcs.acquireUnleased cfg name req choice).1.releaseInstanceInternal cfg name alloc).1,
            .error .leaseNotCreated)
        else
          ((bcs.acquireUnleased cfg name req choice).1, .ok alloc) := rfl

theorem acquireInstanceInternal_eq (choice : Choice) : bcs.acquireInstanceInternal cfg name req choice =
      match bcs.acquireUnleased cfg name req choice with
      | (bcs, .error err) => (bcs, .error err)
      | (bcs, .ok alloc) =>
        if choice.leaseFails then
          ((bcs.releaseInstanceInternal cfg name alloc).1, .error .leaseNotCreated)
        else
          (bcs, .ok alloc) := by
  rw [acquireInstanceInternal_def]
  obtain ⟨bcs₁, err | alloc⟩ := bcs.acquireUnleased cfg name req choice
  · rfl
  · rfl

theorem acquires_acquireUnleased (hreq : req.demand = d) (choice : Choice) (hlinked : Linked bcs) :
    Acquires cfg d bcs (bcs.acquireUnleased cfg name req choice) := by
  have hid : req.instanceSession.sessionID = d.sessionID := by
    rw [← hreq]
    rfl
  unfold acquireUnleased
  split
  · obtain ⟨hacq, hsame⟩ := acquires_acquireDesignateInstance name req hreq choice hlinked
    split
    case h_1 bcs₁ req₁ heq =>
      rw [heq] at hacq hsame
      split
      case isTrue hsession =>
        obtain rfl := hsame hsession
        rw [hid] at hsession
        cases hacq with
        | failed hprep =>
          exact Acquires.prepared hprep
            (acquires_acquireSessionInstance name { req₁ with designateInstanceID := "" } hreq choice
              hsession)
        | bare hprep hkey => exact .bare hprep hkey
      · exact hacq
    case h_2 bcs₁ req₁ result _ heq =>
      rw [heq] at hacq
      exact hacq
  · split
    case isTrue hsession =>
      rw [hid] at hsession
      exact acquires_acquireSessionInstance name req hreq choice hsession
    case isFalse =>
      unfold acquireDefaultInstance
      split
      · exact .failed .refl
      · exact acquires_acquireInstanceThread req hreq name _ _

end

end Acquire

/-! ### Release -/

def InstanceAllocation.releaseKey (cfg : Config) (alloc : InstanceAllocation) : String :=
  getSessionCacheKey cfg alloc.sessionID
    (if cfg.enableSessionCtx then alloc.ins.sessionCtxID.getD "" else "")

/-- The queue holds the element under the ID in one of its three places. -/
def InstanceQueue.Holds (q : InstanceQueue) (objID : String) (ref : Nat) : Prop :=
  q.subHealthRecord.lookup objID = some ref ∨ q.evictingRecord.lookup objID = some ref ∨
    ∃ item, q.instanceQueue.lookup objID = some item ∧ item.elem = ref

theorem InstanceQueue.holds_of_getByID {q : InstanceQueue}
    (hget : q.getByID objID = some ref) : q.Holds objID ref := by
  unfold getByID at hget
  split at hget
  case h_1 hsub =>
    cases hget
    exact .inl hsub
  split at hget
  case h_1 hevicting =>
    cases hget
    exact .inr (.inl hevicting)
  case h_2 =>
    obtain ⟨item, hitem, rfl⟩ := map_eq_some_iff.mp hget
    exact .inr (.inr ⟨item, hitem, rfl⟩)

def Filed (bcs : BasicConcurrencyScheduler) : Prop :=
  ∀ name objID ref, (bcs.queue name).Holds objID ref →
    ∃ el, bcs.elems.lookup ref = some el ∧ el.ins.instanceID = objID

/-- A release gives the thread back, has it dropped by an agent session, or changes nothing. -/
inductive Releases (cfg : Config) (bcs : BasicConcurrencyScheduler) (alloc : InstanceAllocation) :
    BasicConcurrencyScheduler → Prop
  | nothing : Releases cfg bcs alloc bcs
  | marked (name : QueueName) {eref : Nat} {el : InstanceElement} {ref : Nat} {r : SessionRecord}
      (hel : bcs.elems.lookup eref = some el) (hid : el.ins.instanceID = alloc.ins.instanceID)
      (hsession : alloc.sessionID ≠ "")
      (hkey : bcs.sessionMap.lookup (alloc.releaseKey cfg) = some ref)
      (hr : bcs.records.lookup ref = some r)
      (hover : r.overAcqThdMap.lookup alloc.allocationID = none)
      (halloc : (r.allocThdMap.lookup alloc.allocationID).isSome = true) :
      Releases cfg bcs alloc
        ((bcs.startUnbindInstanceSession name ref
          { r with availThdMap := r.availThdMap.insert alloc.allocationID () }).refile name eref el)
  | agent (name : QueueName) {eref : Nat} {el : InstanceElement} {ref : Nat} {r : SessionRecord}
      (hel : bcs.elems.lookup eref = some el) (hid : el.ins.instanceID = alloc.ins.instanceID)
      (hsession : alloc.sessionID ≠ "")
      (hkey : bcs.sessionMap.lookup (alloc.releaseKey cfg) = some ref)
      (hr : bcs.records.lookup ref = some r)
      (hover : (r.overAcqThdMap.lookup alloc.allocationID).isSome = true)
      (hagent : cfg.enableAgentSession = true) :
      Releases cfg bcs alloc
        ((bcs.startUnbindInstanceSession name ref
          { r with overAcqThdMap := r.overAcqThdMap.erase alloc.allocationID }).refile name eref el)
  | overAcq (name : QueueName) {eref : Nat} {el : InstanceElement} {ref : Nat} {r : SessionRecord}
      (hel : bcs.elems.lookup eref = some el) (hid : el.ins.instanceID = alloc.ins.instanceID)
      (hsession : alloc.sessionID ≠ "")
      (hkey : bcs.sessionMap.lookup (alloc.releaseKey cfg) = some ref)
      (hr : bcs.records.lookup ref = some r)
      (hover : (r.overAcqThdMap.lookup alloc.allocationID).isSome = true)
      (hagent : cfg.enableAgentSession = false) :
      Releases cfg bcs alloc
        (((bcs.startUnbindInstanceSession name ref
            { r with overAcqThdMap := r.overAcqThdMap.erase alloc.allocationID }).setElem eref
            (el.putThreadToThreadMap alloc.allocationID)).refile name eref
          (el.putThreadToThreadMap alloc.allocationID))
  | put (name : QueueName) {eref : Nat} {el : InstanceElement}
      (hel : bcs.elems.lookup eref = some el) (hid : el.ins.instanceID = alloc.ins.instanceID)
      (hunknown : alloc.sessionID = "" ∨
        ∃ ref r, bcs.sessionMap.lookup (alloc.releaseKey cfg) = some ref ∧
          bcs.records.lookup ref = some r ∧ r.overAcqThdMap.lookup alloc.allocationID = none ∧
          r.allocThdMap.lookup alloc.allocationID = none) :
      Releases cfg bcs alloc
        ((bcs.setElem eref (el.putThreadToThreadMap alloc.allocationID)).refile name eref
          (el.putThreadToThreadMap alloc.allocationID))

variable {bcs : BasicConcurrencyScheduler}

@[simp]
theorem startUnbindInstanceSession_elems (name : QueueName) (ref : Nat) (r : SessionRecord) :
    (bcs.startUnbindInstanceSession name ref r).elems = bcs.elems := by
  unfold startUnbindInstanceSession
  dsimp only
  split
  · rfl
  · rfl

@[simp]
theorem startUnbindInstanceSession_sessionMap (name : QueueName) (ref : Nat) (r : SessionRecord) :
    (bcs.startUnbindInstanceSession name ref r).sessionMap = bcs.sessionMap := by
  unfold startUnbindInstanceSession
  dsimp only
  split
  · rfl
  · rfl

theorem InstanceElement.putThreadToThreadMap_ins (el : InstanceElement) (threadID : String) :
    (el.putThreadToThreadMap threadID).ins = el.ins := by
  unfold InstanceElement.putThreadToThreadMap
  split
  · rfl
  split
  · rfl
  · rfl

theorem Filed.getByID (hfiled : Filed bcs) (hget : bcs.getByID name objID = some (ref, el)) :
    bcs.elems.lookup ref = some el ∧ el.ins.instanceID = objID := by
  obtain ⟨ref', hqueue, hmap⟩ := bind_eq_some_iff.mp hget
  obtain ⟨el', hel, ⟨⟩⟩ := map_eq_some_iff.mp hmap
  obtain ⟨el', hel', hid⟩ := hfiled name _ ref (holds_of_getByID hqueue)
  obtain rfl : el = el' := some.inj (hel.symm.trans hel')
  exact ⟨hel, hid⟩

/-- A session record that knows the thread takes it back, and otherwise the instance does. -/
theorem releaseInstanceThreadWithSession_cases (name : QueueName) (alloc : InstanceAllocation)
    {result : BasicConcurrencyScheduler × Option SchedulerError}
    (hresult : bcs.releaseInstanceThreadWithSession cfg name alloc = result) :
    result = (bcs, some .internal) ∨
    ∃ ref r, bcs.sessionMap.lookup (alloc.releaseKey cfg) = some ref ∧
      bcs.records.lookup ref = some r ∧
      (((r.overAcqThdMap.lookup alloc.allocationID).isSome = true ∧
        result = (bcs.startUnbindInstanceSession name ref
            { r with overAcqThdMap := r.overAcqThdMap.erase alloc.allocationID },
          if cfg.enableAgentSession then none else some .insThdNotExist)) ∨
      (r.overAcqThdMap.lookup alloc.allocationID = none ∧
        (r.allocThdMap.lookup alloc.allocationID).isSome = true ∧
        result = (bcs.startUnbindInstanceSession name ref
            { r with availThdMap := r.availThdMap.insert alloc.allocationID () }, none)) ∨
      (r.overAcqThdMap.lookup alloc.allocationID = none ∧
        r.allocThdMap.lookup alloc.allocationID = none ∧ result = (bcs, some .insThdNotExist))) := by
  subst hresult
  unfold releaseInstanceThreadWithSession
  dsimp only
  split
  · exact .inl rfl
  rename_i ref r hget
  obtain ⟨hkey, hr⟩ := getSession_eq_some.mp hget
  refine .inr ⟨ref, r, hkey, hr, ?_⟩
  split
  case isTrue hover => exact .inl ⟨hover, rfl⟩
  rename_i hover
  refine .inr ?_
  replace hover : r.overAcqThdMap.lookup alloc.allocationID = none := by simpa using hover
  unfold SessionRecord.markThreadAsAvailable
  cases hlookup : r.allocThdMap.lookup alloc.allocationID with
  | none => exact .inr ⟨hover, rfl, rfl⟩
  | some => exact .inl ⟨hover, rfl, rfl⟩

theorem releases_releaseInstanceInternal (name : QueueName) (alloc : InstanceAllocation)
    (hfiled : Filed bcs) :
    Releases cfg bcs alloc (bcs.releaseInstanceInternal cfg name alloc).1 := by
  unfold releaseInstanceInternal
  split
  · exact .nothing
  rename_i eref el hget
  obtain ⟨hel, hid⟩ := hfiled.getByID hget
  have hput := el.putThreadToThreadMap_ins alloc.allocationID
  by_cases hsession : alloc.sessionID ≠ ""
  · rw [if_pos hsession]
    rcases releaseInstanceThreadWithSession_cases name alloc rfl with
      heq | ⟨ref, r, hkey, hr, ⟨hover, heq⟩ | ⟨hover, halloc, heq⟩ | ⟨hover, halloc, heq⟩⟩
    · rw [heq]
      exact .nothing
    · rw [heq]
      cases hagent : cfg.enableAgentSession with
      | true =>
        rw [← hid]
        exact .agent name hel hid hsession hkey hr hover hagent
      | false =>
        rw [← hid, ← hput]
        exact .overAcq name hel hid hsession hkey hr hover hagent
    · rw [heq]
      rw [← hid]
      exact .marked name hel hid hsession hkey hr hover halloc
    · rw [heq]
      rw [← hid, ← hput]
      exact .put name hel hid (.inr ⟨ref, r, hkey, hr, hover, halloc⟩)
  · rw [if_neg hsession]
    rw [← hid, ← hput]
    exact .put name hel hid (.inl (by simpa using hsession))

end Yuanrong.Concurrency
