import Mathlib.Data.List.Dedup
import Yuanrong.ConcurrencyScheduler.Proof.Tidy

/-!
# Thread IDs

An element mints the IDs of its threads from a counter and never gives an ID out twice. A thread
that comes back is known by its ID only to the session or the allocation that had it: the element
replaces it with a new one.
-/

namespace Yuanrong.Concurrency

open AList List BasicConcurrencyScheduler Option InstanceElement

namespace InstanceElement

variable {el el' : InstanceElement}

theorem threadID_injective (el : InstanceElement) : Function.Injective el.threadID := by
  intro m n heq
  unfold threadID at heq
  generalize el.ins.instanceID ++ "-thread" ++ el.threadIDPrefix ++ "-" = stem at heq
  have hchars := congrArg String.toList heq
  rw [String.toList_append, String.toList_append, append_cancel_left_eq] at hchars
  exact Int.ofNat.inj (GoString.itoa_injective (String.toList_inj.mp hchars))

def Minted (el : InstanceElement) : Prop :=
  ∀ x, (el.threadMap.lookup x).isSome = true → ∃ n < el.threadIndex, x = el.threadID n

def Gone (el : InstanceElement) (x : String) : Prop :=
  el.threadMap.lookup x = none ∧ ∀ n, el.threadIndex ≤ n → x ≠ el.threadID n

theorem Within.threadID (hwithin : el'.Within el) : el'.threadID = el.threadID := by
  unfold InstanceElement.threadID
  rw [hwithin.ins, hwithin.threadIDPrefix]

theorem Minted.within (hminted : el.Minted) (hwithin : el'.Within el) : el'.Minted := by
  intro x hx
  rw [hwithin.threadIndex, hwithin.threadID]
  exact hminted x (hwithin.threads x hx)

variable {x : String}

theorem Gone.within (hgone : el.Gone x) (hwithin : el'.Within el) : el'.Gone x := by
  refine ⟨?_, ?_⟩
  · cases hlookup : el'.threadMap.lookup x with
    | none => rfl
    | some =>
      have hx := hwithin.threads x (by rw [hlookup]; rfl)
      rw [hgone.1] at hx
      cases hx
  · rw [hwithin.threadIndex, hwithin.threadID]
    exact hgone.2

theorem Minted.gone (hminted : el.Minted) (hwithin : el'.Within el)
    (hx : (el.threadMap.lookup x).isSome = true) (htaken : el'.threadMap.lookup x = none) : el'.Gone x := by
  refine ⟨htaken, ?_⟩
  intro n hn heq
  obtain ⟨m, hm, rfl⟩ := hminted x hx
  rw [hwithin.threadID] at heq
  have hmn := el.threadID_injective heq
  rw [hwithin.threadIndex] at hn
  omega

theorem putThreadToThreadMap_cases (el : InstanceElement) (threadID : String) :
    (el.putThreadToThreadMap threadID = el ∧
      ((el.threadMap.lookup threadID).isSome = true ∨ el.ins.concurrentNum ≤ el.threadMap.len)) ∨
    (el.putThreadToThreadMap threadID = { el with
        threadMap := el.threadMap.insert (el.threadID el.threadIndex) ()
        threadIndex := el.threadIndex + 1 }) := by
  unfold putThreadToThreadMap
  split
  case isTrue hfree => exact .inl ⟨rfl, .inl hfree⟩
  split
  case isTrue hfull => exact .inl ⟨rfl, .inr hfull⟩
  case isFalse => exact .inr rfl

theorem Minted.mint (hminted : el.Minted) : InstanceElement.Minted { el with
      threadMap := el.threadMap.insert (el.threadID el.threadIndex) ()
      threadIndex := el.threadIndex + 1 } := by
  intro x hx
  rw [lookup_insert_eq_ite] at hx
  split at hx
  case isTrue heq => exact ⟨el.threadIndex, Nat.lt_succ_self _, heq⟩
  case isFalse =>
    obtain ⟨n, hn, rfl⟩ := hminted x hx
    exact ⟨n, Nat.lt_succ_of_lt hn, rfl⟩

theorem Gone.mint (hgone : el.Gone x) : InstanceElement.Gone { el with
      threadMap := el.threadMap.insert (el.threadID el.threadIndex) ()
      threadIndex := el.threadIndex + 1 } x := by
  refine ⟨?_, fun n hn => hgone.2 n (Nat.le_of_succ_le hn)⟩
  rw [lookup_insert_ne (hgone.2 el.threadIndex le_rfl)]
  exact hgone.1

theorem Minted.put (hminted : el.Minted) (threadID : String) : (el.putThreadToThreadMap threadID).Minted := by
  rcases el.putThreadToThreadMap_cases threadID with ⟨heq, -⟩ | heq
  · rw [heq]
    exact hminted
  · rw [heq]
    exact hminted.mint

theorem Gone.put (hgone : el.Gone x) (threadID : String) : (el.putThreadToThreadMap threadID).Gone x := by
  rcases el.putThreadToThreadMap_cases threadID with ⟨heq, -⟩ | heq
  · rw [heq]
    exact hgone
  · rw [heq]
    exact hgone.mint

theorem len_foldl_put (ids : List String) (el : InstanceElement) (hminted : el.Minted)
    (hgone : ∀ x ∈ ids, el.Gone x) :
    (ids.foldl putThreadToThreadMap el).threadMap.len = el.threadMap.len + ids.length ∨
      el.ins.concurrentNum ≤ (ids.foldl putThreadToThreadMap el).threadMap.len := by
  induction ids generalizing el with
  | nil => exact .inl rfl
  | cons x _ ih =>
    rw [foldl_cons]
    have hrest := ih (el.putThreadToThreadMap x) (hminted.put x) fun y hy =>
      (hgone y (mem_cons_of_mem x hy)).put x
    rw [el.putThreadToThreadMap_ins x] at hrest
    rcases el.putThreadToThreadMap_cases x with ⟨heq, hfree | hfull⟩ | heq
    · rw [(hgone x mem_cons_self).1] at hfree
      cases hfree
    · refine .inr ?_
      rcases hrest with hlen | hle
      · rw [hlen, heq]
        omega
      · exact hle
    · rcases hrest with hlen | hle
      · refine .inl ?_
        have hnew : el.threadMap.lookup (el.threadID el.threadIndex) = none := by
          cases hlookup : el.threadMap.lookup (el.threadID el.threadIndex) with
          | none => rfl
          | some =>
            obtain ⟨n, hn, hid⟩ := hminted _ (by rw [hlookup]; rfl)
            have hmn := el.threadID_injective hid
            omega
        rw [hlen, heq]
        have hone := len_insert_of_none () hnew
        rw [length_cons, hone]
        omega
      · exact .inr hle

end InstanceElement

def returnOrder (threads : ThreadMap) (order : List String) : List String :=
  (order.dedup.filter fun threadID => (threads.lookup threadID).isSome) ++
    threads.keys.filter fun threadID => threadID ∉ order

theorem returnThreads_eq (el : InstanceElement) (threads : ThreadMap) (order : List String) :
    returnThreads el threads order =
      (returnOrder threads order).foldl putThreadToThreadMap el := rfl

variable {threads : ThreadMap}

theorem mem_returnOrder : x ∈ returnOrder threads order ↔ (threads.lookup x).isSome = true := by
  unfold returnOrder
  rw [mem_append, mem_filter, mem_filter, mem_dedup, mem_keys_iff, isSome_iff_exists, decide_eq_true_eq]
  by_cases hx : x ∈ order
  · simp [hx]
  · simp [hx]

theorem nodup_returnOrder (threads : ThreadMap) (order : List String) :
    (returnOrder threads order).Nodup := by
  refine List.Nodup.append ((nodup_dedup order).filter _) (threads.keys_nodup.filter _) ?_
  intro x hx hx'
  have hin := mem_dedup.mp (mem_filter.mp hx).1
  exact absurd hin (of_decide_eq_true (mem_filter.mp hx').2)

theorem length_returnOrder (threads : ThreadMap) (order : List String) :
    (returnOrder threads order).length = threads.len := by
  have hperm : (returnOrder threads order).Perm threads.keys := by
    rw [perm_ext_iff_of_nodup (nodup_returnOrder threads order) threads.keys_nodup]
    intro x
    rw [mem_returnOrder, mem_keys_iff, isSome_iff_exists]
  rw [hperm.length_eq, keys_length]

variable {el : InstanceElement}

theorem InstanceElement.Minted.returnThreads (hminted : el.Minted)
    (threads : ThreadMap) (order : List String) :
    (returnThreads el threads order).Minted := by
  rw [returnThreads_eq]
  generalize returnOrder threads order = ids
  induction ids generalizing el with
  | nil => exact hminted
  | cons x _ ih => exact ih (hminted.put x)

theorem InstanceElement.Gone.returnThreads (hgone : el.Gone x) (threads : ThreadMap) (order : List String) :
    (returnThreads el threads order).Gone x := by
  rw [returnThreads_eq]
  generalize returnOrder threads order = ids
  induction ids generalizing el with
  | nil => exact hgone
  | cons y _ ih => exact ih (hgone.put y)

theorem minted_newInstanceElement (ins : Instance) (threadIDPrefix : String) :
    (newInstanceElement ins threadIDPrefix).Minted :=
  List.foldlRecOn (motive := InstanceElement.Minted) _ _ nofun fun _ hel _ _ => hel.mint

structure ThreadsMinted (bcs : BasicConcurrencyScheduler) : Prop where
  minted : ∀ ref el, bcs.elems.lookup ref = some el → el.Minted
  gone : ∀ ref r el x, bcs.records.lookup ref = some r → bcs.elems.lookup r.insElem = some el →
    (r.allocThdMap.lookup x).isSome = true → el.Gone x

namespace ThreadsMinted

variable {cfg : Config} {bcs bcs' : BasicConcurrencyScheduler} {d : Demand}

variable {ref : Nat} {r : SessionRecord}

section

variable (hthreads : ThreadsMinted bcs)
include hthreads

theorem setElem (hel : bcs.elems.lookup ref = some el) (hminted : el'.Minted)
    (hgone : ∀ x, el.Gone x → el'.Gone x) : ThreadsMinted (bcs.setElem ref el') where
  minted := by
    exact forall_lookup_insert hminted hthreads.minted
  gone := by
    intro ref' r el₀ x hr hel₀ hx
    rcases lookup_of_insert hel₀ with ⟨heq, rfl⟩ | hold
    · exact hgone x (hthreads.gone ref' r el x hr (heq ▸ hel) hx)
    · exact hthreads.gone ref' r el₀ x hr hold hx

theorem refile (name : QueueName) (ref : Nat) (el : InstanceElement) :
    ThreadsMinted (bcs.refile name ref el) where
  minted := by
    rw [refile_elems]
    exact hthreads.minted
  gone := by
    rw [refile_elems, refile_records]
    exact hthreads.gone

theorem setRecord (hr : bcs.records.lookup ref = some r) (helems : bcs'.elems = bcs.elems)
    (hrecords : bcs'.records = bcs.records.insert ref r') (hins : r'.insElem = r.insElem)
    (halloc : ∀ x, (r'.allocThdMap.lookup x).isSome = true →
      (r.allocThdMap.lookup x).isSome = true ∨ ∀ el, bcs.elems.lookup r.insElem = some el → el.Gone x) :
    ThreadsMinted bcs' where
  minted := by
    rw [helems]
    exact hthreads.minted
  gone := by
    rw [helems, hrecords]
    intro ref' r₀ el x hr₀ hel hx
    rcases lookup_of_insert hr₀ with ⟨-, rfl⟩ | hold
    · rw [hins] at hel
      rcases halloc x hx with hold | hgone
      · exact hthreads.gone ref r el x hr hel hold
      · exact hgone el hel
    · exact hthreads.gone ref' r₀ el x hold hel hx

theorem of_records (helems : bcs'.elems = bcs.elems)
    (hrecords : ∀ ref r, bcs'.records.lookup ref = some r → bcs.records.lookup ref = some r) :
    ThreadsMinted bcs' where
  minted := by
    rw [helems]
    exact hthreads.minted
  gone := by
    rw [helems]
    exact fun ref r el x hr => hthreads.gone ref r el x (hrecords ref r hr)

end

/-- A designated thread is none that an instance has free or has yet to mint. -/
def Designates (d : Demand) (bcs : BasicConcurrencyScheduler) : Prop :=
  d.designateThreadID ≠ "" → ∀ ref el, bcs.elems.lookup ref = some el → el.Gone d.designateThreadID

theorem designates_setElem (hdes : Designates d bcs) (hel : bcs.elems.lookup ref = some el)
    (hwithin : el'.Within el) : Designates d (bcs.setElem ref el') := by
  intro hne ref' el₀ hel₀
  rcases lookup_of_insert hel₀ with ⟨-, rfl⟩ | hold
  · exact (hdes hne ref el hel).within hwithin
  · exact hdes hne ref' el₀ hold

section

variable (hthreads : ThreadsMinted bcs)
include hthreads

theorem prepares (hdes : Designates d bcs)
    (hprep : Prepares cfg d bcs bcs') : ThreadsMinted bcs' ∧ Designates d bcs' := by
  cases hprep with
  | refile name => exact ⟨hthreads.refile name _ _, by rwa [Designates, refile_elems]⟩
  | lose hel hwithin =>
    exact ⟨hthreads.setElem hel ((hthreads.minted _ _ hel).within hwithin) fun x h =>
      h.within hwithin, designates_setElem hdes hel hwithin⟩
  | drop => exact ⟨hthreads.of_records rfl fun _ _ h => h, hdes⟩
  | @bind _ ref el _ _ _ _ hel hwithin _ hthreads' =>
    have hset := hthreads.setElem hel ((hthreads.minted _ _ hel).within hwithin) fun x h => h.within hwithin
    refine ⟨⟨?_, ?_⟩, ?_⟩
    · rw [bindTo_elems]
      exact hset.minted
    · rw [bindTo_elems, bindTo_records]
      intro ref' r el₀ x hr hel₀ hx
      rcases lookup_of_insert hr with ⟨-, rfl⟩ | hold
      · rw [lookup_insert] at hel₀
        cases hel₀
        obtain ⟨hfree, htaken⟩ := hthreads' x hx
        exact (hthreads.minted ref el hel).gone hwithin hfree htaken
      · exact hset.gone ref' r el₀ x hold hel₀ hx
    · unfold Designates
      rw [bindTo_elems]
      exact designates_setElem hdes hel hwithin
  | @signal _ _ _ hr => exact ⟨hthreads.setRecord hr rfl rfl rfl fun x hx => .inl hx, hdes⟩

theorem reflTransGen_prepares (hdes : Designates d bcs)
    (hprep : Prepared cfg d bcs bcs') : ThreadsMinted bcs' ∧ Designates d bcs' := by
  induction hprep with
  | refl => exact ⟨hthreads, hdes⟩
  | tail _ hlast ih => exact ih.1.prepares ih.2 hlast

section

variable {el : InstanceElement} (name : QueueName) (hel : bcs.elems.lookup ref = some el)
include name hel

theorem taken (pick : Nat) :
    ThreadsMinted ((bcs.setElem ref (el.taken pick)).refile name ref (el.taken pick)) :=
  (hthreads.setElem hel ((hthreads.minted _ _ hel).within (el.taken_within pick)) fun _ h =>
    h.within (el.taken_within pick)).refile name _ _

theorem put (threadID : String) :
    ThreadsMinted ((bcs.setElem ref (el.putThreadToThreadMap threadID)).refile name ref
      (el.putThreadToThreadMap threadID)) :=
  (hthreads.setElem hel ((hthreads.minted _ _ hel).put threadID) fun _ h => h.put threadID).refile
    name _ _

end

theorem obtains (hdes : Designates d bcs) (hobtains : Obtains cfg d bcs alloc bcs') : ThreadsMinted bcs' := by
  cases hobtains with
  | plain name pick _ hel => exact hthreads.taken name hel pick
  | @session _ r _ el _ _ hr hel htakes =>
    obtain ⟨y, -, ⟨-, rfl⟩ | ⟨-, hne, -, rfl⟩⟩ := htakes
    · exact hthreads.setRecord hr rfl rfl rfl fun x hx => .inl hx
    refine hthreads.setRecord hr rfl rfl rfl ?_
    intro x hx
    rw [lookup_insert_eq_ite] at hx
    split at hx
    case isTrue heq =>
      subst heq
      exact .inr fun el hel => hdes hne _ el hel
    case isFalse =>
      obtain ⟨v, hv⟩ := isSome_iff_exists.mp hx
      refine .inl ?_
      rw [show r.allocThdMap.lookup x = some v from lookup_of_erase hv]
      rfl
  | @overAcq name _ r _ pick _ _ hr _ _ hel =>
    refine (hthreads.taken name hel pick).setRecord (r := r) ?_ rfl rfl rfl fun x hx => .inl hx
    rw [refile_records]
    exact hr
  | agent _ _ hr => exact hthreads.setRecord hr rfl rfl rfl fun x hx => .inl hx

theorem startUnbindInstanceSession (name : QueueName) (hr : bcs.records.lookup ref = some r)
    (hins : r'.insElem = r.insElem) (halloc : r'.allocThdMap = r.allocThdMap) :
    ThreadsMinted (bcs.startUnbindInstanceSession name ref r') := by
  have hsame : ∀ x, (r'.allocThdMap.lookup x).isSome = true → (r.allocThdMap.lookup x).isSome = true := by
    rw [halloc]
    exact fun x hx => hx
  unfold BasicConcurrencyScheduler.startUnbindInstanceSession
  dsimp only
  split
  all_goals exact hthreads.setRecord hr rfl rfl hins fun x hx => .inl (hsame x hx)

theorem releases (hreleases : Releases cfg bcs alloc bcs') : ThreadsMinted bcs' := by
  cases hreleases with
  | nothing => exact hthreads
  | marked name hel hid hsession hkey hr hover halloc
  | agent name _ _ _ _ hr =>
    refine ThreadsMinted.refile (hthreads.startUnbindInstanceSession name hr ?_ ?_) name _ _
    · rfl
    · rfl
  | overAcq name hel _ _ _ hr =>
    refine ThreadsMinted.put (hthreads.startUnbindInstanceSession name hr ?_ ?_) name ?_ _
    · rfl
    · rfl
    · rw [startUnbindInstanceSession_elems]
      exact hel
  | put name hel => exact hthreads.put name hel _

theorem expires (hexpires : Expires cfg bcs g u order bcs') : ThreadsMinted bcs' := by
  cases hexpires with
  | cancelled hr => exact hthreads.setRecord hr rfl rfl rfl fun x hx => .inl hx
  | blocked => exact hthreads.of_records rfl fun _ _ h => h
  | @expired r _ el' _ _ hel hel' =>
    have hset : ThreadsMinted (bcs.setElem r.insElem el') := by
      refine hthreads.setElem hel ?_ ?_
      · rw [hel']
        split
        · exact (hthreads.minted _ _ hel).returnThreads _ _
        · exact hthreads.minted _ _ hel
      · intro x hx
        rw [hel']
        split
        · exact hx.returnThreads _ _
        · exact hx
    refine ThreadsMinted.refile (hset.of_records ?_ ?_) _ _ _
    · rfl
    · exact fun _ _ h => lookup_of_erase h
  | stale => exact hthreads

theorem pushNew (hwf : WellFormed cfg bcs) (name : QueueName) (ins : Instance) (threadIDPrefix : String) :
    ThreadsMinted (bcs.pushNew name ins threadIDPrefix) := by
  have hnew : ThreadsMinted (bcs.setElem bcs.nextRef (newInstanceElement ins threadIDPrefix)) := by
    refine ⟨?_, ?_⟩
    · exact forall_lookup_insert (minted_newInstanceElement ins threadIDPrefix) hthreads.minted
    intro ref r el x hr hel hx
    obtain ⟨el₀, hel₀⟩ := hwf.bound ref r hr
    have hne : r.insElem ≠ bcs.nextRef := (hwf.elemRef _ _ hel₀).ne
    have hold : bcs.elems.lookup r.insElem = some el := (lookup_insert_ne hne).symm.trans hel
    exact hthreads.gone ref r el x hr hold hx
  unfold BasicConcurrencyScheduler.pushNew
  dsimp only
  split
  · exact hthreads
  · cases name
    all_goals exact hnew.of_records rfl fun _ _ h => h

theorem handleInstanceUpdate (hwf : WellFormed cfg bcs) (name : QueueName) (ins : Instance)
    (threadIDPrefix : String) : ThreadsMinted (bcs.handleInstanceUpdate name ins threadIDPrefix) := by
  unfold BasicConcurrencyScheduler.handleInstanceUpdate
  split
  · exact hthreads.pushNew hwf name ins threadIDPrefix
  rename_i ref el hget
  obtain ⟨hel, hid⟩ := hwf.filed.getByID hget
  have hthreadID : threadID { el with ins } = el.threadID := by
    unfold threadID
    rw [hid]
  have hset : ThreadsMinted (bcs.setElem ref { el with ins }) := by
    refine hthreads.setElem hel ?_ ?_
    · intro x hx
      rw [hthreadID]
      exact hthreads.minted ref el hel x hx
    · intro x hx
      refine ⟨hx.1, ?_⟩
      rw [hthreadID]
      exact hx.2
  exact hset.refile name ref { el with ins }

theorem handleFuncOwnerUpdate (ring : List String)
    (isFuncOwner : Bool) : ThreadsMinted (bcs.handleFuncOwnerUpdate cfg ring isFuncOwner) := by
  refine hthreads.of_records (handleFuncOwnerUpdate_elems bcs ring isFuncOwner) ?_
  rw [(SameSessions.handleFuncOwnerUpdate bcs ring isFuncOwner).records]
  exact fun _ _ h => h

end

theorem effect (hthreads : ThreadsMinted s.bcs) (htidy : Tidy cfg s)
    (hdes : ∀ tid choice req resolved, e = .resume tid choice →
      s.threads.lookup tid = some (.acquire req resolved) → Designates req.demand s.bcs)
    (heffect : Effect cfg s e s') : ThreadsMinted s'.bcs := by
  cases heffect with
  | begun | instanceUpdate | ringChange => exact hthreads
  | @refused tid choice req resolved _ hreq hprep =>
    have hdes' := hdes tid choice req resolved rfl hreq
    exact (hthreads.reflTransGen_prepares hdes' hprep).1.of_records rfl fun _ _ h => h
  | @granted tid choice req resolved _ _ _ hreq hprep hobtains =>
    have hdes' := hdes tid choice req resolved rfl hreq
    obtain ⟨hthreads₁, hdes₁⟩ := hthreads.reflTransGen_prepares hdes' hprep
    exact (hthreads₁.obtains hdes₁ hobtains).of_records rfl fun _ _ h => h
  | @unleased tid choice req resolved _ _ _ _ hreq hprep hobtains _ hreleases =>
    have hdes' := hdes tid choice req resolved rfl hreq
    obtain ⟨hthreads₁, hdes₁⟩ := hthreads.reflTransGen_prepares hdes' hprep
    exact ((hthreads₁.obtains hdes₁ hobtains).releases hreleases).of_records rfl fun _ _ h => h
  | bare hreq hprep hkey => exact absurd hkey (htidy.not_bare hreq hprep)
  | updated => exact hthreads.handleInstanceUpdate htidy.wf _ _ _
  | released _ hreleases => exact hthreads.releases hreleases
  | timer => exact hthreads.of_records rfl fun _ _ h => h
  | expired _ _ hexpires => exact hthreads.expires hexpires
  | cancelled _ _ hr => exact hthreads.setRecord hr rfl rfl rfl fun x hx => .inl hx
  | stored _ _ hr => exact hthreads.setRecord hr rfl rfl rfl fun x hx => .inl hx
  | addInstance => exact hthreads.pushNew htidy.wf _ _ _
  | delInstance ins =>
    exact hthreads.of_records (setQueue_elems _ _ _)
      fun ref r h => (SameSessions.setQueue s.bcs _ _).records ▸ h
  | ownerUpdate isFuncOwner => exact hthreads.handleFuncOwnerUpdate s.ring isFuncOwner

end ThreadsMinted

end Yuanrong.Concurrency
