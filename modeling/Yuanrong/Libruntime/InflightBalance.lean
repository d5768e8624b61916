import Yuanrong.Libruntime.InflightCount

/-!
# The count of an instance and its unanswered requests

The count of every instance is the number of its unanswered requests, unless a request is cancelled
while an attempt of it is unanswered, or a notify comes so late that its sequence number has come
round. The answer after a cancel finds nobody to lower the count.
-/

namespace Yuanrong.Libruntime.Inflight

open AList Option Prod Int

variable {ρ : Type} [DecidableEq ρ] {cfg : Config ρ} {s s' : State ρ} {key : ρ × String}
  {requestId : String} {infos : FinMap (ρ × String) InstanceInfo} {available used : List (ρ × String)}
  {requestMap : FinMap String (Request ρ)} {unanswered : FinMap (String × Nat) (ρ × String)}
  {usedRequests : List String} {attempt : String × Nat}

def outstanding (unanswered : FinMap (String × Nat) (ρ × String)) (key : ρ × String) : Int :=
  unanswered.count fun _ key' => key' = key

structure Counts (cfg : Config ρ) (infos : FinMap (ρ × String) InstanceInfo)
    (available : List (ρ × String)) (unanswered : FinMap (String × Nat) (ρ × String))
    (used : List (ρ × String)) : Prop where
  count : ∀ key info, infos.lookup key = some info → info.unfinishReqNum = outstanding unanswered key
  le : ∀ key info, infos.lookup key = some info → info.unfinishReqNum ≤ cfg.concurrency key.1
  room : ∀ key ∈ available, ∃ info, infos.lookup key = some info ∧
    info.unfinishReqNum < cfg.concurrency key.1
  known : ∀ key info, infos.lookup key = some info → key ∈ used
  sent : ∀ attempt key, unanswered.lookup attempt = some key → key ∈ used

theorem Counts.delete (h : Counts cfg infos available unanswered used) (key : ρ × String) :
    Counts cfg (infos.erase key) (available.filter (· ≠ key)) unanswered used where
  count key' info hinfo := h.count key' info (lookup_of_erase hinfo)
  le key' info hinfo := h.le key' info (lookup_of_erase hinfo)
  room key' hmem := by
    obtain ⟨hmem, hne⟩ := List.mem_filter.mp hmem
    rw [lookup_erase_ne (of_decide_eq_true hne)]
    exact h.room key' hmem
  known key' info hinfo := h.known key' info (lookup_of_erase hinfo)
  sent := h.sent

theorem Counts.put (h : Counts cfg infos available unanswered used) {info : InstanceInfo}
    (hcount : info.unfinishReqNum = outstanding unanswered' key)
    (hle : info.unfinishReqNum ≤ cfg.concurrency key.1)
    (hother : ∀ key', key' ≠ key → outstanding unanswered' key' = outstanding unanswered key')
    (havailable : ∀ key' ∈ available', (key' = key → info.unfinishReqNum < cfg.concurrency key.1) ∧
      (key' ≠ key → key' ∈ available)) (hused : ∀ key' ∈ used, key' ∈ used') (hkey : key ∈ used')
    (hsent : ∀ attempt key', unanswered'.lookup attempt = some key' → key' ∈ used') :
    Counts cfg (infos.insert key info) available' unanswered' used' := by
  have hcases {key' : ρ × String} {info' : InstanceInfo}
      (hinfo' : (infos.insert key info).lookup key' = some info') :
      (key' = key ∧ info' = info) ∨ (key' ≠ key ∧ infos.lookup key' = some info') := by
    rw [lookup_insert_eq_ite] at hinfo'
    split at hinfo'
    · next heq => exact .inl ⟨heq, (some.inj hinfo').symm⟩
    · next hne => exact .inr ⟨hne, hinfo'⟩
  refine ⟨?_, ?_, ?_, ?_, hsent⟩
  · intro key' info' hinfo'
    rcases hcases hinfo' with ⟨rfl, rfl⟩ | ⟨hne, hinfo'⟩
    · exact hcount
    · rw [hother key' hne]
      exact h.count key' info' hinfo'
  · intro key' info' hinfo'
    rcases hcases hinfo' with ⟨rfl, rfl⟩ | ⟨-, hinfo'⟩
    · exact hle
    · exact h.le key' info' hinfo'
  · intro key' hmem
    obtain ⟨hself, hold⟩ := havailable key' hmem
    rw [lookup_insert_eq_ite]
    by_cases heq : key' = key
    · rw [if_pos heq]
      exact ⟨info, rfl, heq ▸ hself heq⟩
    · rw [if_neg heq]
      exact h.room key' (hold heq)
  · intro key' info' hinfo'
    rcases hcases hinfo' with ⟨rfl, -⟩ | ⟨-, hinfo'⟩
    · exact hkey
    · exact hused key' (h.known key' info' hinfo')

theorem outstanding_erase (hlookup : unanswered.lookup attempt = some key)
    (key' : ρ × String) : outstanding (unanswered.erase attempt) key' =
      outstanding unanswered key' - if key = key' then 1 else 0 := by
  unfold outstanding
  rw [count_erase, hlookup, elim_some]

theorem outstanding_insert (hlookup : unanswered.lookup attempt = none)
    (key key' : ρ × String) : outstanding (unanswered.insert attempt key) key' =
      outstanding unanswered key' + if key = key' then 1 else 0 := by
  unfold outstanding
  rw [count_insert, hlookup, elim_none, sub_zero]

variable {attempt : Nat}

theorem Counts.decrease (h : Counts cfg s.instanceInfos s.avaliableInstanceInfos s.unanswered s.usedInstances)
    (hlookup : s.unanswered.lookup (requestId, attempt) = some key) (normal : Bool) :
    ∃ instanceInfos avaliableInstanceInfos,
      decreaseUnfinishReqNum cfg (answer s requestId attempt) key normal =
        { answer s requestId attempt with instanceInfos, avaliableInstanceInfos } ∧
      Counts cfg instanceInfos avaliableInstanceInfos (answer s requestId attempt).unanswered
        s.usedInstances := by
  have hother : ∀ key', key' ≠ key → outstanding (s.unanswered.erase (requestId, attempt)) key' =
      outstanding s.unanswered key' := by
    intro key' hne
    rw [outstanding_erase hlookup, if_neg hne.symm, sub_zero]
  have hsent : ∀ sent key', (s.unanswered.erase (requestId, attempt)).lookup sent = some key' →
      key' ∈ s.usedInstances := fun sent key' hsent => h.sent sent key' (lookup_of_erase hsent)
  unfold decreaseUnfinishReqNum
  cases hinfo : (answer s requestId attempt).instanceInfos.lookup key with
  | none =>
    refine ⟨s.instanceInfos, s.avaliableInstanceInfos, rfl, fun key' info hinfo' => ?_, h.le,
      h.room, h.known, hsent⟩
    have hne : key' ≠ key := by
      rintro rfl
      exact absurd (hinfo.symm.trans hinfo') (by simp)
    rw [h.count key' info hinfo']
    exact (hother key' hne).symm
  | some info =>
    have hcount := h.count key info hinfo
    have hle := h.le key info hinfo
    have hput {available' : List (ρ × String)}
        (hsub : ∀ key' ∈ available', key' ≠ key → key' ∈ s.avaliableInstanceInfos) :
        Counts cfg (s.instanceInfos.insert key { info with unfinishReqNum := info.unfinishReqNum - 1 })
          available' (s.unanswered.erase (requestId, attempt)) s.usedInstances := by
      refine h.put ?_ ?_ hother (fun key' hmem => ⟨fun _ => ?_, hsub key' hmem⟩) (fun _ hmem => hmem)
        (h.known key info hinfo) hsent
      · rw [outstanding_erase hlookup, if_pos rfl, hcount]
      all_goals
        simp only
        omega
    simp only
    split
    · exact ⟨_, _, rfl, hput fun key' hmem hne => (List.mem_cons.mp hmem).resolve_left hne⟩
    · exact ⟨_, _, rfl, hput fun key' hmem _ => hmem⟩

/-- What is unanswered is the current attempt of each request in the manager that is not queued. -/
structure Attempts (requestMap : FinMap String (Request ρ))
    (unanswered : FinMap (String × Nat) (ρ × String)) (usedRequests : List String) : Prop where
  unanswered_iff : ∀ requestId attempt key, unanswered.lookup (requestId, attempt) = some key ↔
    ∃ request, requestMap.lookup requestId = some request ∧ request.queued = false ∧
      request.attempt = attempt ∧ (request.resource, request.invokeInstanceId) = key
  used : ∀ requestId request, requestMap.lookup requestId = some request → requestId ∈ usedRequests

omit [DecidableEq ρ] in
theorem Attempts.set (h : Attempts requestMap unanswered usedRequests)
    (hlookup : ∀ q, requestMap'.lookup q = if q = requestId then new else requestMap.lookup q)
    (hself : ∀ attempt key, unanswered'.lookup (requestId, attempt) = some key ↔
      ∃ request, new = some request ∧ request.queued = false ∧ request.attempt = attempt ∧
        (request.resource, request.invokeInstanceId) = key)
    (hother : ∀ q attempt, q ≠ requestId → unanswered'.lookup (q, attempt) = unanswered.lookup (q, attempt))
    (hused : ∀ q ∈ usedRequests, q ∈ usedRequests')
    (hnew : ∀ request, new = some request → requestId ∈ usedRequests') :
    Attempts requestMap' unanswered' usedRequests' := by
  constructor
  · intro q attempt key
    rw [hlookup]
    by_cases heq : q = requestId
    · rw [if_pos heq, heq]
      exact hself attempt key
    · rw [if_neg heq, hother q attempt heq]
      exact h.unanswered_iff q attempt key
  · intro q request hq
    rw [hlookup] at hq
    split at hq
    · next heq => exact heq ▸ hnew request hq
    · exact hused q (h.used q request hq)

omit [DecidableEq ρ] in
theorem Attempts.quiet (h : Attempts requestMap unanswered usedRequests)
    (hlookup : ∀ q, requestMap'.lookup q = if q = requestId then new else requestMap.lookup q)
    (hqueued : ∀ request, new = some request → request.queued = true ∧ requestId ∈ usedRequests')
    (hnone : ∀ attempt, unanswered'.lookup (requestId, attempt) = none)
    (hother : ∀ q attempt, q ≠ requestId → unanswered'.lookup (q, attempt) = unanswered.lookup (q, attempt))
    (hused : ∀ q ∈ usedRequests, q ∈ usedRequests') : Attempts requestMap' unanswered' usedRequests' := by
  refine h.set hlookup (fun attempt key => ?_) hother hused fun request hnew => (hqueued request hnew).2
  rw [hnone attempt]
  constructor
  · nofun
  rintro ⟨request, hnew, hsent, -⟩
  rw [(hqueued request hnew).1] at hsent
  cases hsent

omit [DecidableEq ρ] in
theorem Attempts.eq_none (h : Attempts requestMap unanswered usedRequests)
    (hnot : ∀ request, requestMap.lookup requestId = some request → request.queued = false →
      request.attempt ≠ attempt) : unanswered.lookup (requestId, attempt) = none := by
  refine eq_none_iff_forall_ne_some.mpr fun key hlookup => ?_
  obtain ⟨request, hrequest, hsent, hattempt, -⟩ := (h.unanswered_iff _ _ _).mp hlookup
  exact hnot request hrequest hsent hattempt

omit [DecidableEq ρ] in
theorem Attempts.none_of_queued (h : Attempts requestMap unanswered usedRequests)
    (hqueued : ∀ request, requestMap.lookup requestId = some request → request.queued = true)
    (attempt : Nat) : unanswered.lookup (requestId, attempt) = none := by
  refine h.eq_none fun request hrequest hsent _ => ?_
  rw [hqueued request hrequest] at hsent
  cases hsent

/-- No request is cancelled while unanswered, and current numbers are of current attempts. -/
def calm (cfg : Config ρ) (s : State ρ) : Event ρ → Bool
  | .cancelStatelessRequest requestId isForce =>
    match s.requestMap.lookup requestId with
    | none => true
    | some request =>
      cancelIgnored cfg request isForce || s.unanswered.entries.all (·.1.1 ≠ requestId)
  | .notify requestId attempt _ =>
    match s.requestMap.lookup requestId with
    | none => true
    | some request => attempt = request.attempt || seqOf attempt ≠ seqOf request.attempt
  | _ => true

structure Balanced (cfg : Config ρ) (s : State ρ) : Prop where
  counts : Counts cfg s.instanceInfos s.avaliableInstanceInfos s.unanswered s.usedInstances
  attempts : Attempts s.requestMap s.unanswered s.usedRequests

section

variable (h : Balanced cfg s)
include h

theorem Balanced.addInstance (hnew : key ∉ s.usedInstances) (oneShot : Bool) : Balanced cfg { s with
      instanceInfos := s.instanceInfos.insert key { unfinishReqNum := 0, oneShot }
      avaliableInstanceInfos := key :: s.avaliableInstanceInfos
      usedInstances := key :: s.usedInstances } := by
  have hzero : outstanding s.unanswered key = 0 :=
    count_eq_zero fun attempt key' hlookup heq => hnew (heq ▸ h.counts.sent attempt key' hlookup)
  have hpos := cfg.one_le key.1
  refine ⟨h.counts.put hzero.symm (natCast_nonneg _) (fun _ _ => rfl) (fun key' hmem => ⟨fun _ => ?_, ?_⟩)
    (fun _ hmem => List.mem_cons_of_mem _ hmem) List.mem_cons_self ?_, h.attempts⟩
  · simp only
    omega
  · exact fun hne => (List.mem_cons.mp hmem).resolve_left hne
  · exact fun attempt key' hlookup => List.mem_cons_of_mem _ (h.counts.sent attempt key' hlookup)

theorem Balanced.schedule
    (hstep : step cfg s (.scheduleRequest requestId instanceId) = some s') : Balanced cfg s' := by
  simp only [step] at hstep
  split at hstep
  case h_1 =>
    cases hstep
    exact h
  rename_i request hrequest
  obtain ⟨⟨hqueued, havailable⟩, hstep⟩ := ite_none_right_eq_some.mp hstep
  obtain ⟨info, hinfo, hlt⟩ := h.counts.room _ havailable
  simp only [hinfo, some.injEq] at hstep
  have hused := h.counts.known _ info hinfo
  have hnone : ∀ attempt, s.unanswered.lookup (requestId, attempt) = none := by
    refine h.attempts.none_of_queued fun request' hrequest' => ?_
    rw [hrequest] at hrequest'
    cases hrequest'
    exact hqueued
  rw [← hstep]
  constructor
  · refine h.counts.put ?_ ?_ ?_ ?_ (fun _ hmem => hmem) hused ?_
    · rw [outstanding_insert (hnone _), if_pos rfl, h.counts.count _ info hinfo]
    · simp only at hlt ⊢
      omega
    · intro key' hne
      rw [outstanding_insert (hnone _), if_neg hne.symm, add_zero]
    · intro key' hmem
      split at hmem
      · obtain ⟨hmem, hne⟩ := List.mem_filter.mp hmem
        exact ⟨fun heq => absurd heq (of_decide_eq_true hne), fun _ => hmem⟩
      · next hroom => exact ⟨fun _ => not_le.mp hroom, fun _ => hmem⟩
    · exact forall_lookup_insert hused h.counts.sent
  · refine h.attempts.set (fun q => lookup_insert_eq_ite _ _ _ _) ?_ ?_ (fun _ hq => hq)
      fun _ _ => h.attempts.used _ request hrequest
    · intro attempt key
      rw [lookup_insert_eq_ite]
      by_cases heq : attempt = request.attempt
      · rw [if_pos (by rw [heq])]
        simp [heq]
      · rw [if_neg fun h => heq (congrArg snd h), hnone attempt]
        simp [Ne.symm heq]
    · intro q attempt hne
      rw [lookup_insert_ne fun h => hne (congrArg fst h)]

theorem Balanced.current (hrequest : s.requestMap.lookup requestId = some request)
    (hsent : request.queued = false) (outcome : Outcome) :
    Balanced cfg (finishNotify (decreaseUnfinishReqNum cfg (answer s requestId request.attempt)
      (request.resource, request.invokeInstanceId) outcome.normal) requestId request outcome) := by
  have hlookup := (h.attempts.unanswered_iff requestId _ _).mpr ⟨request, hrequest, hsent, rfl, rfl⟩
  obtain ⟨infos, available, heq, hcounts⟩ := h.counts.decrease hlookup outcome.normal
  have hnone (attempt : Nat) :
      (s.unanswered.erase (requestId, request.attempt)).lookup (requestId, attempt) = none := by
    rw [lookup_erase_eq_ite]
    split
    · rfl
    next hne =>
      refine h.attempts.eq_none fun request' hrequest' _ hattempt => hne ?_
      rw [hrequest] at hrequest'
      cases hrequest'
      rw [hattempt]
  have hother (q : String) (attempt : Nat) (hne : q ≠ requestId) :
      (s.unanswered.erase (requestId, request.attempt)).lookup (q, attempt) =
        s.unanswered.lookup (q, attempt) := by
    rw [lookup_erase_ne fun h => hne (congrArg fst h)]
  -- Whatever becomes of the instance, the request leaves the manager or is queued again.
  have hremoved : Attempts (s.requestMap.erase requestId)
      (s.unanswered.erase (requestId, request.attempt)) s.usedRequests :=
    h.attempts.quiet (fun q => lookup_erase_eq_ite _ _ _) (fun _ hnew => by cases hnew) hnone hother
      fun _ hq => hq
  have hretried : Attempts (s.requestMap.insert requestId
      { request with attempt := request.attempt + 1, queued := true })
      (s.unanswered.erase (requestId, request.attempt)) s.usedRequests := by
    refine h.attempts.quiet (fun q => lookup_insert_eq_ite _ _ _ _) (fun _ hnew => ?_) hnone hother
      fun _ hq => hq
    cases hnew
    exact ⟨rfl, h.attempts.used _ request hrequest⟩
  rw [heq]
  cases outcome with
  | success => exact ⟨hcounts, hremoved⟩
  | fail normal retry =>
    have hdeleted := hcounts.delete (request.resource, request.invokeInstanceId)
    cases normal <;> cases retry
    · exact ⟨hdeleted, hremoved⟩
    · exact ⟨hdeleted, hretried⟩
    · exact ⟨hcounts, hremoved⟩
    · exact ⟨hcounts, hretried⟩

theorem Balanced.answer_eq_self
    (hnot : ∀ request, s.requestMap.lookup requestId = some request → request.attempt ≠ attempt) :
    answer s requestId attempt = s := by
  unfold answer
  rw [erase_of_none (h.attempts.eq_none fun request hrequest _ => hnot request hrequest)]

theorem Balanced.notify (hcalm : calm cfg s (.notify requestId attempt outcome) = true)
    (hstep : step cfg s (.notify requestId attempt outcome) = some s') : Balanced cfg s' := by
  obtain ⟨hsent, hstep⟩ := ite_none_right_eq_some.mp hstep
  simp only [some.injEq] at hstep
  have hsame : (answer s requestId attempt).requestMap = s.requestMap := rfl
  unfold handleInvokeNotify at hstep
  rw [hsame] at hstep
  unfold State.wasSent at hsent
  simp only [calm] at hcalm
  cases hrequest : s.requestMap.lookup requestId with
  | none =>
    rw [hrequest] at hstep
    rw [← hstep, h.answer_eq_self fun request hrequest' => by
      rw [hrequest] at hrequest'
      cases hrequest']
    exact h
  | some request =>
    simp only [hrequest] at hcalm hstep hsent
    split at hstep
    · rename_i hstale
      rw [← hstep, h.answer_eq_self fun request' hrequest' heq => hstale (by
        rw [hrequest] at hrequest'
        cases hrequest'
        rw [heq])]
      exact h
    · rename_i hseq
      obtain rfl : attempt = request.attempt := by simpa [not_not.mp hseq] using hcalm
      rw [← hstep]
      exact h.current hrequest (by simpa using hsent) outcome

theorem Balanced.remove (hnone : ∀ attempt, s.unanswered.lookup (requestId, attempt) = none) :
    Balanced cfg { s with requestMap := s.requestMap.erase requestId } :=
  ⟨h.counts, h.attempts.quiet (fun q => lookup_erase_eq_ite _ _ _) (fun _ hnew => by cases hnew)
    hnone (fun _ _ _ => rfl) fun _ hq => hq⟩

theorem Balanced.step (hcalm : calm cfg s e = true) (hstep : step cfg s e = some s') : Balanced cfg s' := by
  cases e with
  | addInstance _ _ oneShot =>
    obtain ⟨hnew, ⟨⟩⟩ := ite_none_left_eq_some.mp hstep
    exact h.addInstance hnew oneShot
  | pushRequest =>
    obtain ⟨hnew, ⟨⟩⟩ := ite_none_left_eq_some.mp hstep
    refine ⟨h.counts, h.attempts.quiet (fun q => lookup_insert_eq_ite _ _ _ _) (fun _ heq => ?_)
      (h.attempts.none_of_queued fun request hrequest => ?_) (fun _ _ _ => rfl)
      fun q hq => List.mem_cons_of_mem _ hq⟩
    · cases heq
      exact ⟨rfl, List.mem_cons_self⟩
    · exact absurd (h.attempts.used _ request hrequest) hnew
  | scheduleRequest => exact h.schedule hstep
  | notify => exact h.notify hcalm hstep
  | cancelStatelessRequest requestId =>
    simp only [Inflight.step] at hstep
    simp only [calm] at hcalm
    split at hstep
    case h_1 =>
      cases hstep
      exact h
    rename_i _ hrequest
    simp only [hrequest] at hcalm
    split at hstep
    · cases hstep
      exact h
    next hnot =>
      cases hstep
      have hall := (Bool.or_eq_true _ _ ▸ hcalm).resolve_left hnot
      refine h.remove fun attempt => eq_none_iff_forall_ne_some.mpr fun key hlookup => ?_
      have hne := List.all_eq_true.mp hall _ (mem_entries_iff.mpr hlookup)
      exact absurd rfl (of_decide_eq_true hne)
  | drain requestId =>
    simp only [Inflight.step] at hstep
    split at hstep
    case h_1 =>
      cases hstep
      exact h
    rename_i _ hrequest
    obtain ⟨hqueued, rfl⟩ := ite_some_none_eq_some.mp hstep
    refine h.remove (h.attempts.none_of_queued fun request' hrequest' => ?_)
    rw [hrequest] at hrequest'
    cases hrequest'
    exact hqueued
  | scaleDown =>
    simp only [Inflight.step] at hstep
    split at hstep
    · cases hstep
      exact h
    split at hstep
    · cases hstep
      exact h
    · cases hstep
      exact ⟨h.counts.delete _, h.attempts⟩
  | delIns =>
    cases hstep
    exact ⟨h.counts.delete _, h.attempts⟩

end

theorem balanced_of_reach (hreach : (system cfg).Reach (fun s e => calm cfg s e = true) s) :
    Balanced cfg s := by
  refine hreach.invariant ?_ ?_
  · rintro s rfl
    refine ⟨⟨nofun, nofun, nofun, nofun, fun _ _ h => by cases h⟩, fun _ _ _ => ⟨nofun, ?_⟩, nofun⟩
    rintro ⟨_, h, -⟩
    cases h
  · intro s e s' l _ hcalm h hstep
    obtain ⟨s₁, hs₁, ⟨⟩⟩ := map_eq_some_iff.mp hstep
    exact h.step hcalm hs₁

/-- In every calm run the count is that of the unanswered requests, within the concurrency, and an
idle instance is taken down. -/
theorem unfinishReqNum_exact (cfg : Config ρ) {s : State ρ}
    (hreach : (system cfg).Reach (fun s e => calm cfg s e = true) s) :
    (∀ resource id info, s.instanceInfos.lookup (resource, id) = some info →
      info.unfinishReqNum = outstanding s.unanswered (resource, id) ∧
      0 ≤ info.unfinishReqNum ∧ info.unfinishReqNum ≤ cfg.concurrency resource ∧
      ((resource, id) ∈ s.avaliableInstanceInfos → info.unfinishReqNum < cfg.concurrency resource)) ∧
    ∀ resource id, outstanding s.unanswered (resource, id) = 0 →
      ∃ s', step cfg s (.scaleDown resource id) = some s' ∧
        s'.instanceInfos.lookup (resource, id) = none := by
  have hcounts := (balanced_of_reach hreach).counts
  constructor
  · intro resource id info hinfo
    have hcount := hcounts.count _ info hinfo
    have hnonneg : 0 ≤ outstanding s.unanswered (resource, id) := count_nonneg _ _
    refine ⟨hcount, by omega, hcounts.le _ info hinfo, fun hmem => ?_⟩
    obtain ⟨info', hinfo', hlt⟩ := hcounts.room _ hmem
    rw [hinfo] at hinfo'
    cases hinfo'
    exact hlt
  · intro resource id hzero
    simp only [step]
    cases hinfo : s.instanceInfos.lookup (resource, id) with
    | none => exact ⟨s, rfl, hinfo⟩
    | some info =>
      have hcount := hcounts.count _ info hinfo
      refine ⟨_, if_neg (by omega), ?_⟩
      exact lookup_erase _ _

def single : Config Unit := { concurrency := fun _ => 1, one_le := fun _ => Nat.le_refl 1 }

def oneRequestSent : List (Event Unit) :=
  [.addInstance () "i" false, .pushRequest "q" (), .scheduleRequest "q" "i"]

theorem unfinishReqNum_exact_retried :
    ∃ s : State Unit, ∃ info, s.instanceInfos.lookup ((), "i") = some info ∧
      info.unfinishReqNum = outstanding s.unanswered ((), "i") := by
  -- A failure that is tried again, with the first notify once more, which is stale by then.
  obtain ⟨s, hreach, hlive⟩ := StepSystem.reach_of_run (system single) (calm single) rfl
    (oneRequestSent ++ [.notify "q" 0 (.fail true true), .scheduleRequest "q" "i", .notify "q" 0 .success])
    (fun s => (s.instanceInfos.lookup ((), "i")).isSome) (by decide +kernel)
  obtain ⟨info, hinfo⟩ := isSome_iff_exists.mp hlive
  exact ⟨s, info, hinfo, ((unfinishReqNum_exact single hreach).1 () "i" info hinfo).1⟩

/-- A request is cancelled after it was sent: the instance is never taken down. -/
theorem cancelled_request_keeps_count :
    ∃ s : State Unit, (system single).Reachable s ∧ outstanding s.unanswered ((), "i") = 0 ∧
      (s.instanceInfos.lookup ((), "i")).map InstanceInfo.unfinishReqNum = some 1 ∧
      s.avaliableInstanceInfos = [] ∧
      (step single s (.scaleDown () "i")).map (fun s => (s.instanceInfos.lookup ((), "i")).isSome) =
        some true :=
  StepSystem.reachable_of_run (system single) rfl
    (oneRequestSent ++ [.cancelStatelessRequest "q" false, .notify "q" 0 .success]) _ (by decide +kernel)

end Yuanrong.Libruntime.Inflight
