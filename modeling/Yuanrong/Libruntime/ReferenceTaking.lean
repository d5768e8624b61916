import Yuanrong.Libruntime.ReferenceBalance

/-!
# Taking references as a whole

Runs of calls that take local references and references in the data system, on lists of ids that may
overlap. A call takes the data system's references of the ids that nobody has taken or is about to
take, and waits for the others, without seeing how they end.
-/

namespace Yuanrong.Libruntime

open AList List IncreCall Function Prod

def IncreCall.waits (c : IncreCall) : List Nat :=
  match c.phase with
  | .increase _ waits => waits
  | .mark _ _ waits => waits
  | .wait waits => waits

namespace ReferenceStore

variable {s s' : ReferenceStore} {id : String} {r k : Nat} {todo : List (String × Nat)}
  {ids : List String} {waits : List Nat}

/-- Only references are taken, the data system makes every increment, and no wait ends by its
timeout. -/
def undisturbed (_ : ReferenceStore) : Event → Bool
  | .increGlobalReference _ toDataSystem => toDataSystem
  | .increaseObjRef _ => true
  | .increase _ ok => ok
  | .advance _ timeout => !timeout
  | _ => false

/-- The occurrences of an id in the lists of the calls that have returned OK or are under way. -/
def occurrences (s : ReferenceStore) (id : String) : Nat :=
  ((s.returned.filter (·.2)).map (·.1.count id)).sum + s.calls.total fun _ c => c.ids.count id

def Held (s : ReferenceStore) (id : String) : Prop :=
  ∃ r, s.storeMap.lookup id = some r ∧ s.dsRefs r = 1

def Covered (s : ReferenceStore) (refs waits : List Nat) (id : String) : Prop :=
  ∃ r, s.storeMap.lookup id = some r ∧ (s.dsRefs r = 1 ∨ r ∈ refs ∨ r ∈ waits)

structure Touches (s s' : ReferenceStore) (ids : List String) (todo : List (String × Nat))
    (waits : List Nat) : Prop where
  lookup : ∀ id r, s.storeMap.lookup id = some r → s'.storeMap.lookup id = some r
  new : ∀ id r, s'.storeMap.lookup id = some r → s.storeMap.lookup id = some r ∨ id ∈ ids
  notified : ∀ r, (s'.details r).notified = true → (s.details r).notified = true
  held : ∀ id, s'.held id = s.held id + ids.count id
  covered : ∀ id ∈ ids, Covered s' (todo.map Prod.snd) waits id

theorem notified_emplace (h : ((s.emplace id).details r).notified = true) :
    (s.details r).notified = true := by
  unfold emplace at h
  split at h
  case isTrue => exact h
  change (update s.details s.nextRef {} r).notified = true at h
  by_cases heq : r = s.nextRef
  · rw [heq, update_self] at h
    cases h
  · rwa [update_of_ne heq] at h

theorem Balanced.touches_touch (h : Balanced s []) (id : String) :
    Touches s (s.touch true true id).1 [id] (s.touch true true id).2.1 (s.touch true true id).2.2 := by
  obtain ⟨r, hr⟩ := exists_lookup_emplace s id
  have hfits := (h.emplace id).fits id r hr
  rw [touch_eq hr]
  refine ⟨fun id' r' hlookup => lookup_emplace_of_some hlookup, ?_, ?_, ?_, ?_⟩
  · intro id' r' hlookup
    change (s.emplace id).storeMap.lookup id' = some r' at hlookup
    rw [lookup_emplace] at hlookup
    split at hlookup
    case isTrue hid => exact .inr (mem_singleton.mpr hid.2)
    case isFalse => exact .inl hlookup
  · intro r' hnotified
    change (update (s.emplace id).details r _ r').notified = true at hnotified
    by_cases heq : r' = r
    · subst heq
      rw [update_self] at hnotified
      exact notified_emplace hnotified
    · rw [update_of_ne heq] at hnotified
      exact notified_emplace hnotified
  · intro id'
    show update s.held id (s.held id + 1) id' = _
    by_cases heq : id' = id
    · simp [heq]
    · simp [heq, Ne.symm heq]
  · intro id' hid'
    rw [mem_singleton.mp hid']
    refine ⟨r, hr, ?_⟩
    cases hstate : ((s.emplace id).details r).increInDataSystem with
    | notIncrease => exact .inr (.inl (by simp))
    | increasing => exact .inr (.inr (by simp))
    | increase => exact .inl (hfits.increase hstate)

theorem Balanced.touches_touchAll (h : Balanced s []) (hmarked : Marked s todo) (ids : List String) :
    Touches s (ReferenceStore.touchAll true true ids s).1 ids (ReferenceStore.touchAll true true ids s).2.1
      (ReferenceStore.touchAll true true ids s).2.2 := by
  induction ids generalizing s todo with
  | nil => exact ⟨fun _ _ hl => hl, fun _ _ hl => .inl hl, fun _ hn => hn, fun _ => rfl, nofun⟩
  | cons id rest ih =>
    obtain ⟨h₁, hmarked₁⟩ := h.touch hmarked true true id
    have hfirst := h.touches_touch id
    have hlast := ih h₁ hmarked₁
    refine ⟨fun id' r hl => hlast.lookup id' r (hfirst.lookup id' r hl), ?_,
      fun r hn => hfirst.notified r (hlast.notified r hn), ?_, ?_⟩
    · intro id' r hl
      rcases hlast.new id' r hl with hmid | hmem
      · rcases hfirst.new id' r hmid with hold | hid
        · exact .inl hold
        · exact .inr (mem_singleton.mp hid ▸ mem_cons_self)
      · exact .inr (mem_cons_of_mem _ hmem)
    · intro id'
      show (ReferenceStore.touchAll true true rest (s.touch true true id).1).1.held id' = _
      rw [hlast.held id', hfirst.held id']
      simp only [count_cons, count_nil]
      omega
    · intro id' hmem
      show Covered (ReferenceStore.touchAll true true rest (s.touch true true id).1).1
        (((s.touch true true id).2.1 ++ _).map snd) ((s.touch true true id).2.2 ++ _) id'
      rw [map_append]
      rcases mem_cons.mp hmem with rfl | hrest
      · obtain ⟨r, hlookup, hcase⟩ := hfirst.covered id' mem_cons_self
        refine ⟨r, hlast.lookup id' r hlookup, ?_⟩
        rw [(sameCalls_touchAll true true rest).dsRefs]
        exact hcase.imp_right (Or.imp (mem_append_left _) (mem_append_left _))
      · obtain ⟨r, hlookup, hcase⟩ := hlast.covered id' hrest
        exact ⟨r, hlookup, hcase.imp_right (Or.imp (mem_append_right _) (mem_append_right _))⟩

structure Whole (s : ReferenceStore) : Prop where
  count : ∀ id, s.held id = s.occurrences id
  notified : ∀ r, (s.details r).notified = true → s.dsRefs r = 1
  covered : ∀ k c, s.calls.lookup k = some c → ∀ id ∈ c.ids, Covered s c.refs c.waits id
  counting : ∀ k c, s.calls.lookup k = some c → c.counts = true
  answered : ∀ k c, s.calls.lookup k = some c → ∀ todo waits, c.phase ≠ .mark false todo waits
  returned : ∀ call ∈ s.returned, call.2 = true → ∀ id ∈ call.1, Held s id
  present : ∀ id r, s.storeMap.lookup id = some r → 1 ≤ s.held id
  idle : s.toDecrease = ∅

theorem waits_afterTouch {counts marks : Bool} :
    (⟨ids, counts, marks, afterTouch todo waits⟩ : IncreCall).waits = waits := by
  unfold IncreCall.waits afterTouch
  by_cases hnil : todo = []
  · simp [hnil]
  · simp [hnil]

theorem Covered.mono {refs refs' waits' : List Nat} (h : Covered s refs waits id)
    (hlookup : ∀ id r, s.storeMap.lookup id = some r → s'.storeMap.lookup id = some r)
    (hheld : ∀ r, s.dsRefs r = 1 → s'.dsRefs r = 1) (hrefs : ∀ r ∈ refs, r ∈ refs' ∨ s'.dsRefs r = 1)
    (hwaits : ∀ r ∈ waits, r ∈ waits' ∨ s'.dsRefs r = 1) : Covered s' refs' waits' id := by
  obtain ⟨r, hr, hcase⟩ := h
  refine ⟨r, hlookup id r hr, ?_⟩
  rcases hcase with hone | hmem | hmem
  · exact .inl (hheld r hone)
  · exact (hrefs r hmem).elim (fun hin => .inr (.inl hin)) .inl
  · exact (hwaits r hmem).elim (fun hin => .inr (.inr hin)) .inl

variable {c : IncreCall} {phase : IncrePhase} {e : Event}

theorem occurrences_endCall (hcall : s.calls.lookup k = some c)
    (hcounts : c.counts = true) (id : String) : (s.endCall k c true).occurrences id = s.occurrences id := by
  have htotal := total_erase_add s.calls (fun _ c => c.ids.count id) hcall
  unfold occurrences endCall
  have hlast : (([(c.ids, true)].filter (·.2)).map (·.1.count id)).sum = c.ids.count id := by simp
  rw [if_pos hcounts, filter_append, map_append, sum_append, hlast, add_assoc, add_comm (c.ids.count id)]
  exact congrArg _ htotal

theorem Whole.startCall (h : Whole s) (hbalanced : Balanced s []) (marks : Bool) (ids : List String) :
    Whole (s.startCall true marks true ids) := by
  have htouches := hbalanced.touches_touchAll marked_nil ids
  obtain ⟨hcalls, hbatches, -, hrefs, hreturned⟩ := sameCalls_touchAll true true ids
  have hnone : s.calls.lookup s.nextCall = none :=
    Option.eq_none_iff_forall_ne_some.mpr fun c hlookup => Nat.lt_irrefl _ (hbalanced.callKeys _ c hlookup)
  have hheld : ∀ r, s.dsRefs r = 1 → (touchAll true true ids s).1.dsRefs r = 1 := fun r hone => by
    rw [hrefs]
    exact hone
  refine ⟨?_, ?_, ?_, ?_, ?_, ?_, ?_, hbatches.trans h.idle⟩
  · intro id
    have hmore : (s.startCall true marks true ids).occurrences id = s.occurrences id + ids.count id := by
      unfold occurrences
      show ((((touchAll true true ids s).1.returned.filter (·.2)).map (·.1.count id)).sum +
        (s.calls.insert s.nextCall _).total fun _ c => c.ids.count id) = _
      rw [hreturned, total_insert_of_none _ _ _ hnone, add_assoc]
    rw [hmore, ← h.count id]
    exact htouches.held id
  · intro r hnotified
    exact hheld r (h.notified r (htouches.notified r hnotified))
  · refine forall_lookup_insert ?_ fun k c hold => ?_
    · intro id hmem
      rw [(collected_afterTouch rfl).1, waits_afterTouch]
      exact htouches.covered id hmem
    · exact fun id hmem => (h.covered k c hold id hmem).mono htouches.lookup hheld
        (fun _ hr => .inl hr) fun _ hr => .inl hr
  · refine forall_lookup_insert ?_ fun k c hold => ?_
    · rfl
    · exact h.counting k c hold
  · intro k c hcall todo waits
    rcases lookup_of_insert hcall with ⟨-, rfl⟩ | hold
    · unfold afterTouch
      split
      · nofun
      · nofun
    · exact h.answered k c hold todo waits
  · intro call hmem hok id hid
    change call ∈ (touchAll true true ids s).1.returned at hmem
    rw [hreturned] at hmem
    obtain ⟨r, hlookup, hone⟩ := h.returned call hmem hok id hid
    exact ⟨r, htouches.lookup id r hlookup, hheld r hone⟩
  · intro id r hlookup
    show 1 ≤ (touchAll true true ids s).1.held id
    rw [htouches.held id]
    rcases htouches.new id r hlookup with hold | hmem
    · exact (h.present id r hold).trans (Nat.le_add_right _ _)
    · exact Nat.le_add_left_of_le (count_pos_iff.mpr hmem)

theorem Whole.goOn (h : Whole s) (hcall : s.calls.lookup k = some c) {details : Nat → RefDetail}
    {balance : String → Int} {dsRefs : Nat → Int} (hheld : ∀ r, s.dsRefs r = 1 → dsRefs r = 1)
    (hnotified : ∀ r, (details r).notified = true → dsRefs r = 1)
    (hanswered : ∀ todo waits, phase ≠ .mark false todo waits)
    (hrefs : ∀ r ∈ c.refs, r ∈ ({ c with phase } : IncreCall).refs ∨ dsRefs r = 1)
    (hwaits : ∀ r ∈ c.waits, r ∈ ({ c with phase } : IncreCall).waits ∨ dsRefs r = 1) :
    Whole { s with details, balance, dsRefs, calls := s.calls.insert k { c with phase } } := by
  refine ⟨?_, hnotified, ?_, forall_lookup_insert (h.counting k c hcall) h.counting,
    forall_lookup_insert hanswered h.answered, ?_, h.present, h.idle⟩
  · intro id
    have hcount := h.count id
    have htotal := total_insert_add s.calls (fun _ c => c.ids.count id) { c with phase } hcall
    unfold occurrences at hcount ⊢
    simp only at htotal ⊢
    omega
  · exact forall_lookup_insert
      (fun id hid => (h.covered k c hcall id hid).mono (fun _ _ hl => hl) hheld hrefs hwaits)
      fun k' c' hold id hid => (h.covered k' c' hold id hid).mono (fun _ _ hl => hl) hheld
        (fun _ hr => .inl hr) fun _ hr => .inl hr
  · intro call hmem hok id hid
    obtain ⟨r, hl, hone⟩ := h.returned call hmem hok id hid
    exact ⟨r, hl, hheld r hone⟩

theorem Whole.answer (h : Whole s) (hbalanced : Balanced s [])
    (hcall : s.calls.lookup k = some c) (hphase : c.phase = .increase todo waits) :
    Whole ((s.increased todo).setPhase k c (.mark true (todo.map snd) waits)) := by
  obtain ⟨hrefs, -, htaken⟩ := collected_increase hphase
  have hw := hbalanced.working k c hcall
  have hheld : ∀ r, s.dsRefs r = 1 → s.dsRefs r + (todo.countP (·.2 = r) : Int) = 1 := by
    intro r hone
    have hnot : todo.countP (·.2 = r) = 0 := by
      rw [countP_eq_zero]
      intro p hp heq
      have hzero := hw.counted p.2 (hrefs ▸ mem_map_of_mem hp)
      rw [htaken, of_decide_eq_true heq, hone] at hzero
      cases hzero
    rw [hone, hnot]
    rfl
  refine h.goOn hcall hheld (fun r hn => hheld r (h.notified r hn)) nofun ?_ ?_
  · exact fun r hr => .inl (hrefs ▸ hr)
  intro r hr
  simp only [IncreCall.waits, hphase] at hr
  exact .inl hr

theorem Whole.advance (h : Whole s) (hbalanced : Balanced s [])
    (hcall : s.calls.lookup k = some c) (hadvance : s.advance k c false = some s') : Whole s' := by
  unfold ReferenceStore.advance at hadvance
  split at hadvance
  case h_1 => cases hadvance
  case h_2 ok r rest waits hphase =>
    cases hadvance
    have hok : ok = true := by
      cases ok with
      | true => rfl
      | false => exact absurd hphase (h.answered k c hcall _ _)
    subst hok
    have hrefs : c.refs = r :: rest := by simp [refs, hphase]
    have hone : s.dsRefs r = 1 := by
      rw [(hbalanced.working k c hcall).counted r (hrefs ▸ mem_cons_self)]
      simp [taken, hphase]
    refine h.goOn hcall (fun _ hr => hr) ?_ (fun _ _ h => by cases h) ?_ ?_
    · intro r' hn
      change (update s.details r _ r').notified = true at hn
      by_cases heq : r' = r
      · exact heq ▸ hone
      · rw [update_of_ne heq] at hn
        exact h.notified r' hn
    · intro r' hr'
      rw [hrefs] at hr'
      rcases mem_cons.mp hr' with rfl | hrest
      · exact .inr hone
      · exact .inl hrest
    · intro r' hr'
      simp only [IncreCall.waits, hphase] at hr'
      exact .inl hr'
  case h_3 waits hphase =>
    cases hadvance
    refine h.goOn hcall (fun _ hr => hr) h.notified (fun _ _ h => by cases h) ?_ ?_
    · intro r hr
      simp [refs, hphase] at hr
    intro r hr
    simp only [IncreCall.waits, hphase] at hr
    exact .inl hr
  case h_4 hphase => exact absurd hphase (h.answered k c hcall _ _)
  case h_5 r rest hphase =>
    obtain ⟨hnotified, rfl⟩ := Option.ite_some_none_eq_some.mp hadvance
    have hone : s.dsRefs r = 1 := h.notified r (hnotified.resolve_right Bool.false_ne_true)
    refine h.goOn hcall (fun _ hr => hr) h.notified (fun _ _ h => by cases h) ?_ ?_
    · intro r' hr'
      simp [refs, hphase] at hr'
    intro r' hr'
    simp only [waits, hphase] at hr'
    rcases mem_cons.mp hr' with rfl | hrest
    · exact .inr hone
    · exact .inl hrest
  case h_6 hphase =>
    cases hadvance
    have hcounts := h.counting k c hcall
    refine ⟨?_, h.notified, ?_, ?_, ?_, ?_, h.present, h.idle⟩
    · intro id
      rw [occurrences_endCall hcall hcounts id]
      exact h.count id
    · exact fun k' c' hcall' => h.covered k' c' (lookup_of_erase hcall')
    · exact fun k' c' hcall' => h.counting k' c' (lookup_of_erase hcall')
    · exact fun k' c' hcall' => h.answered k' c' (lookup_of_erase hcall')
    · intro call hmem hok id hid
      simp only [endCall, hcounts, if_true] at hmem
      rcases mem_append.mp hmem with hold | hnew
      · exact h.returned call hold hok id hid
      rw [mem_singleton.mp hnew] at hid
      obtain ⟨r, hlookup, hcase⟩ := h.covered k c hcall id hid
      simp only [refs, waits, hphase, not_mem_nil, or_false] at hcase
      exact ⟨r, hlookup, hcase⟩

theorem Whole.step (h : Whole s) (hbalanced : Balanced s []) (hok : s.undisturbed e = true)
    (hstep : s.next e = some s') : Whole s' := by
  cases e with
  | increGlobalReference ids =>
    subst hok
    cases hstep
    exact h.startCall hbalanced true ids
  | increaseObjRef ids =>
    simp only [next] at hstep
    split at hstep
    · cases hstep
      exact h.startCall hbalanced false ids
    cases hstep
    refine { h with count := ?_, returned := ?_ }
    · intro id
      rw [h.count id]
      simp [occurrences]
    · refine forall_mem_append.mpr ⟨h.returned, forall_mem_singleton.mpr fun hreturned => ?_⟩
      cases hreturned
  | increase =>
    subst hok
    simp only [next] at hstep
    split at hstep
    case h_2 => cases hstep
    rename_i c hcall
    split at hstep
    case h_2 => cases hstep
    case h_1 todo waits hphase =>
      cases hstep
      exact h.answer hbalanced hcall hphase
  | advance _ timeout =>
    cases timeout with
    | true => cases hok
    | false =>
      simp only [next] at hstep
      split at hstep
      case h_2 => cases hstep
      case h_1 c hcall => exact h.advance hbalanced hcall hstep
  | _ => cases hok

theorem careful_of_undisturbed (h : s.undisturbed e = true) : s.careful e = true := by
  cases e <;> first | rfl | cases h

end ReferenceStore

open ReferenceStore

variable {s : ReferenceStore}

/-- When nothing fails, the local count of an id is its occurrences in calls under way or returned
OK, and those are referenced in the data system. -/
theorem references_taken_whole (hrun : objectReferences.Reach (fun s e => s.undisturbed e = true) s) :
    (∀ id, ((s.storeMap.lookup id).elim 0 fun r => (s.details r).localRefCount) = s.occurrences id) ∧
      (∀ call ∈ s.returned, call.2 = true → ∀ id ∈ call.1, s.balance id = 1) ∧
      ∀ id, (∀ call ∈ s.returned, call.2 = true → id ∉ call.1) →
        (∀ k c, s.calls.lookup k = some c → id ∉ c.ids) → s.storeMap.lookup id = none := by
  have hwhole : s.Whole := by
    refine hrun.invariant ?_ ?_
    · rintro s rfl
      exact ⟨fun _ => rfl, nofun, nofun, nofun, nofun, nofun, nofun, rfl⟩
    intro s e s' l hbefore hok h hstep
    have hcareful := hbefore.mono fun s e => careful_of_undisturbed
    exact h.step (balanced_of_careful hcareful) hok (next_of_step hstep)
  have hbalanced : s.Balanced [] := balanced_of_careful (hrun.mono fun s e => careful_of_undisturbed (s := s))
  refine ⟨fun id => (hbalanced.held id).symm.trans (hwhole.count id), ?_, ?_⟩
  · intro call hmem hok id hid
    obtain ⟨r, hlookup, hone⟩ := hwhole.returned call hmem hok id hid
    have hpending : s.pendingOf [] id = 0 := by simp [pendingOf, hwhole.idle]
    rw [hbalanced.balance id, hlookup, hpending, add_zero]
    exact hone
  · intro id hreturned hcalls
    have hzero : s.occurrences id = 0 := by
      unfold occurrences
      have hcallsZero : (s.calls.total fun _ c => c.ids.count id) = 0 :=
        total_eq_zero fun k c hcall => count_eq_zero.mpr (hcalls k c hcall)
      rw [hcallsZero, add_zero, sum_eq_zero_iff]
      intro n hn
      obtain ⟨call, hcall, rfl⟩ := mem_map.mp hn
      obtain ⟨hmem, hok⟩ := mem_filter.mp hcall
      exact count_eq_zero.mpr (hreturned call hmem hok)
    cases hlookup : s.storeMap.lookup id with
    | none => rfl
    | some r =>
      have hpos := hwhole.present id r hlookup
      rw [hwhole.count id, hzero] at hpos
      cases hpos

theorem references_taken_whole_overlapping :
    ∃ s, objectReferences.Reach (fun s e => s.undisturbed e = true) s ∧
      s.returned = [(["c"], false), (["a", "b"], true), (["b", "a", "b"], true)] ∧ s.balance "b" = 1 ∧
      s.occurrences "b" = 3 ∧ s.storeMap.lookup "c" = none := by
  obtain ⟨s, hrun, hreturned, hcalls, hcount⟩ := objectReferences.reach_of_run undisturbed
    (show objectReferences.init {} from rfl)
    [.increGlobalReference ["a", "b"] true, .increaseObjRef ["c"], .increaseObjRef ["b", "a", "b"],
      .increase 0 true, .advance 0 false, .advance 0 false, .advance 0 false, .advance 1 false,
      .advance 1 false, .advance 1 false, .advance 0 false, .advance 1 false]
    (fun s => s.returned = [(["c"], false), (["a", "b"], true), (["b", "a", "b"], true)] ∧
      s.calls.entries = [] ∧ s.occurrences "b" = 3) (by decide)
  have hmain := references_taken_whole hrun
  refine ⟨s, hrun, hreturned, ?_, hcount, ?_⟩
  · exact hmain.2.1 (["a", "b"], true) (by simp [hreturned]) rfl "b" (by simp)
  refine hmain.2.2 "c" (by simp [hreturned]) fun k c hcall => ?_
  have hmem := mem_entries_iff.mpr hcall
  rw [hcalls] at hmem
  cases hmem

/-- One of two increments is refused: that call keeps its count, and the other lacks a reference. -/
theorem failed_increment_half_taken : ∃ s, objectReferences.Reachable s ∧ s.calls.entries = [] ∧
      s.returned = [(["a"], false), (["a"], true)] ∧ s.storeMap.lookup "a" = some 0 ∧
      (s.details 0).localRefCount = 2 ∧ s.balance "a" = 0 :=
  objectReferences.reachable_of_run (show objectReferences.init {} from rfl)
    [.increGlobalReference ["a"] true, .increGlobalReference ["a"] true, .increase 0 false,
      .advance 0 false, .advance 0 false, .advance 1 false, .advance 1 false] _ (by decide)

end Yuanrong.Libruntime
