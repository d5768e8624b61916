import Yuanrong.Libruntime.ObjectReferences

/-!
# The balance of references in the data system

The references that the data system counts for an id are those of the detail in the map and those of
details that have left it, for which a decrement is under way. The state in a detail says how many
there are for it, except between the marks of the one operation that has the detail in its list.
-/

namespace Yuanrong.Libruntime

open AList List RefDetail IncreCall Function Option Nat Prod

namespace IncreCall

def refs (c : IncreCall) : List Nat :=
  match c.phase with
  | .increase todo _ => todo.map Prod.snd
  | .mark _ todo _ => todo
  | .wait _ => []

def todo (c : IncreCall) : List (String × Nat) :=
  match c.phase with
  | .increase todo _ => todo
  | _ => []

def taken (c : IncreCall) : Int :=
  match c.phase with
  | .mark true _ _ => 1
  | _ => 0

end IncreCall

/-- The detail's state fits the number of references that the data system counts for it. -/
structure RefDetail.Fits (d : RefDetail) (n : Int) : Prop where
  notIncrease : d.increInDataSystem = .notIncrease → n = 0
  increase : d.increInDataSystem = .increase → n = 1
  range : n = 0 ∨ n = 1
  stored : d.storeInDataSystem = true → d.increInDataSystem = .increase

theorem RefDetail.Fits.touched {d : RefDetail} (h : d.Fits n) (counts toDataSystem : Bool) :
    (d.touched counts toDataSystem).Fits n := by
  unfold RefDetail.touched
  split
  case isTrue hnot =>
    refine ⟨nofun, nofun, h.range, fun hstored => ?_⟩
    exact absurd (hnot.2.symm.trans (h.stored hstored)) (by decide)
  case isFalse => exact { h with }

namespace ReferenceStore

variable {s s' : ReferenceStore} {extra : List (String × Option Nat)} {id : String} {r k : Nat}
  {todo : List (String × Nat)} {ids : List String} {c : IncreCall}

def pendingOf (s : ReferenceStore) (extra : List (String × Option Nat)) (id : String) : Int :=
  s.toDecrease.total (fun _ batch => (batch.countP (·.1 = id) : Int)) + extra.countP (·.1 = id)

def pendingRef (s : ReferenceStore) (extra : List (String × Option Nat)) (r : Nat) : Int :=
  s.toDecrease.total (fun _ batch => (batch.countP (·.2 = some r) : Int)) +
    extra.countP (·.2 = some r)

/-- A call's details are its own: in the map, marked, and counted by its phase. -/
structure Working (s : ReferenceStore) (c : IncreCall) : Prop where
  nodup : c.refs.Nodup
  current : ∀ r ∈ c.refs, ∃ id, s.storeMap.lookup id = some r
  increasing : ∀ r ∈ c.refs, (s.details r).increInDataSystem = .increasing
  counted : ∀ r ∈ c.refs, s.dsRefs r = c.taken
  named : ∀ p ∈ c.todo, s.storeMap.lookup p.1 = some p.2

structure Balanced (s : ReferenceStore) (extra : List (String × Option Nat)) : Prop where
  fresh : ∀ id r, s.storeMap.lookup id = some r → r < s.nextRef
  injective : ∀ id id' r, s.storeMap.lookup id = some r → s.storeMap.lookup id' = some r → id = id'
  fits : ∀ id r, s.storeMap.lookup id = some r → (s.details r).Fits (s.dsRefs r)
  working : ∀ k c, s.calls.lookup k = some c → Working s c
  apart : ∀ k k' c c' r, s.calls.lookup k = some c → s.calls.lookup k' = some c' → r ∈ c.refs →
    r ∈ c'.refs → k = k'
  callKeys : ∀ k c, s.calls.lookup k = some c → k < s.nextCall
  batchKeys : ∀ k b, s.toDecrease.lookup k = some b → k < s.nextCall
  balance : ∀ id, s.balance id = (s.storeMap.lookup id).elim 0 s.dsRefs + s.pendingOf extra id
  left : ∀ r, (∀ id, s.storeMap.lookup id ≠ some r) → s.dsRefs r = s.pendingRef extra r
  current : ∀ id r, s.storeMap.lookup id = some r → s.pendingRef extra r = 0
  unused : ∀ r, s.nextRef ≤ r → s.dsRefs r = 0 ∧ s.pendingRef extra r = 0
  held : ∀ id, s.held id = (s.storeMap.lookup id).elim 0 fun r => (s.details r).localRefCount
  found : ∀ p ∈ s.toPut, p.2 < s.nextRef ∧ ∀ id, s.storeMap.lookup id = some p.2 → id = p.1

variable {d : RefDetail} {toPut : List (String × Nat)}
  {toDataSystem increOk putOk : Bool} {waits : List Nat} {phase : IncrePhase} {counts : Bool}

theorem Balanced.setDetail (h : Balanced s extra) {held : String → Nat}
    (hfits : ∀ id, s.storeMap.lookup id = some r → d.Fits (s.dsRefs r))
    (hstate : d.increInDataSystem = (s.details r).increInDataSystem ∨
      ∀ k c, s.calls.lookup k = some c → r ∉ c.refs)
    (hheld : ∀ id, held id = (s.storeMap.lookup id).elim 0 fun r' => (update s.details r d r').localRefCount)
    (hput : ∀ p ∈ toPut, p ∈ s.toPut) :
    Balanced { s with details := update s.details r d, held, toPut } extra := by
  refine ⟨h.fresh, h.injective, ?_, ?_, h.apart, h.callKeys, h.batchKeys, h.balance, h.left, h.current,
    h.unused, hheld, fun p hp => h.found p (hput p hp)⟩
  · intro id'
    exact (forall_update_iff s.details fun r' d' => s.storeMap.lookup id' = some r' →
      d'.Fits (s.dsRefs r')).mpr
      ⟨hfits id', fun r' _ => h.fits id' r'⟩
  · intro k c hcall
    have hw := h.working k c hcall
    refine { hw with increasing := (forall_update_iff s.details fun r' d' => r' ∈ c.refs →
      d'.increInDataSystem = .increasing).mpr ⟨fun hr => ?_, fun r' _ => hw.increasing r'⟩ }
    rcases hstate with hsame | hnot
    · exact hsame.trans (hw.increasing r hr)
    · exact absurd hr (hnot k c hcall)

theorem Balanced.update_left (h : Balanced s extra) (hleft : ∀ id, s.storeMap.lookup id ≠ some r)
    (d : RefDetail) : Balanced (s.setDetail r d) extra := by
  refine h.setDetail (fun id hlookup => absurd hlookup (hleft id)) (.inr fun k c hcall hr => ?_)
    (fun id => ?_) fun p hp => hp
  · obtain ⟨id, hlookup⟩ := (h.working k c hcall).current r hr
    exact hleft id hlookup
  rw [h.held id]
  cases hlookup : s.storeMap.lookup id with
  | none => rfl
  | some r' =>
    have hne : r' ≠ r := by
      rintro rfl
      exact hleft id hlookup
    exact congrArg localRefCount (update_of_ne hne _ _).symm

theorem Balanced.free (h : Balanced s extra) (hstate : (s.details r).increInDataSystem ≠ .increasing)
    (k : Nat) (c : IncreCall) (hcall : s.calls.lookup k = some c) : r ∉ c.refs :=
  fun hr => hstate ((h.working k c hcall).increasing r hr)

theorem lookup_emplace (id' : String) : (s.emplace id).storeMap.lookup id' =
      if (s.storeMap.lookup id).isNone ∧ id' = id then some s.nextRef else s.storeMap.lookup id' := by
  unfold emplace
  cases hlookup : s.storeMap.lookup id with
  | none =>
    show (s.storeMap.insert id s.nextRef).lookup id' = _
    rw [lookup_insert_eq_ite]
    simp
  | some => simp

theorem lookup_emplace_of_some (hlookup : s.storeMap.lookup id' = some r) :
    (s.emplace id).storeMap.lookup id' = some r := by
  rw [lookup_emplace, if_neg, hlookup]
  rintro ⟨hnone, rfl⟩
  simp [hlookup] at hnone

theorem exists_lookup_emplace (s : ReferenceStore) (id : String) :
    ∃ r, (s.emplace id).storeMap.lookup id = some r := by
  rw [lookup_emplace]
  cases hlookup : s.storeMap.lookup id with
  | none => exact ⟨s.nextRef, by simp⟩
  | some r => exact ⟨r, by simp⟩

theorem Balanced.details_emplace (h : Balanced s extra) (hlookup : s.storeMap.lookup id' = some r) :
    (s.emplace id).details r = s.details r := by
  unfold emplace
  split
  · rfl
  · exact update_of_ne (Nat.ne_of_lt (h.fresh id' r hlookup)) _ _

theorem Balanced.insert (h : Balanced s extra) (hold : s.storeMap.lookup id = none)
    (hnil : s.details s.nextRef = {}) :
    Balanced { s with storeMap := s.storeMap.insert id s.nextRef, nextRef := s.nextRef + 1 } extra := by
  have hkeep : ∀ id' r, s.storeMap.lookup id' = some r →
      (s.storeMap.insert id s.nextRef).lookup id' = some r := by
    intro id' r hlookup
    rw [lookup_insert_ne]
    · exact hlookup
    rintro rfl
    rw [hold] at hlookup
    cases hlookup
  refine ⟨?_, ?_, ?_, ?_, h.apart, h.callKeys, h.batchKeys, ?_, ?_, ?_, ?_, ?_, ?_⟩
  · exact forall_lookup_insert (lt_succ_self _)
      fun id' r hlookup' => lt_succ_of_lt (h.fresh id' r hlookup')
  · intro id₁ id₂ r h₁ h₂
    rcases lookup_of_insert h₁ with ⟨rfl, rfl⟩ | h₁' <;>
      rcases lookup_of_insert h₂ with ⟨rfl, heq⟩ | h₂'
    · rfl
    · exact absurd (h.fresh _ _ h₂') (lt_irrefl _)
    · exact absurd (heq ▸ h.fresh _ _ h₁') (lt_irrefl _)
    · exact h.injective id₁ id₂ r h₁' h₂'
  · refine forall_lookup_insert ?_ fun id' r hlookup' => ?_
    · rw [hnil, (h.unused s.nextRef le_rfl).1]
      exact ⟨fun _ => rfl, nofun, .inl rfl, nofun⟩
    · exact h.fits id' r hlookup'
  · intro k c hcall
    have hw := h.working k c hcall
    exact ⟨hw.nodup, fun r hr => (hw.current r hr).imp fun id' => hkeep id' r, hw.increasing,
      hw.counted, fun p hp => hkeep p.1 p.2 (hw.named p hp)⟩
  · intro id'
    show s.balance id' = ((s.storeMap.insert id s.nextRef).lookup id').elim 0 s.dsRefs + s.pendingOf extra id'
    rw [h.balance id', lookup_insert_eq_ite]
    split
    case isTrue heq =>
      subst heq
      rw [hold]
      show 0 + _ = s.dsRefs s.nextRef + _
      rw [(h.unused s.nextRef le_rfl).1]
    case isFalse => rfl
  · intro r hnone
    exact h.left r fun id' hlookup => hnone id' (hkeep id' r hlookup)
  · exact forall_lookup_insert ((h.unused s.nextRef le_rfl).2) h.current
  · exact fun r hr => h.unused r (le_of_succ_le hr)
  · intro id'
    rw [h.held id', lookup_insert_eq_ite]
    split
    case isTrue heq =>
      rw [heq, hold]
      exact congrArg localRefCount hnil.symm
    case isFalse => rfl
  · intro p hp
    obtain ⟨hlt, hself⟩ := h.found p hp
    refine ⟨lt_succ_of_lt hlt, fun id' hlookup => ?_⟩
    rcases lookup_of_insert hlookup with ⟨-, heq⟩ | hlookup'
    · exact absurd (heq ▸ hlt) (lt_irrefl _)
    · exact hself id' hlookup'

theorem Balanced.emplace (h : Balanced s extra) (id : String) : Balanced (s.emplace id) extra := by
  unfold ReferenceStore.emplace
  split
  case isTrue => exact h
  rename_i hsome
  have hnone : s.storeMap.lookup id = none := by simpa using hsome
  have hnew : ∀ id', s.storeMap.lookup id' ≠ some s.nextRef := fun id' hlookup =>
    absurd (h.fresh id' _ hlookup) (lt_irrefl _)
  exact (h.update_left hnew {}).insert hnone (update_self _ _ _)

section

variable (h : Balanced s extra)
include h

theorem Balanced.held_update (hlookup : s.storeMap.lookup id = some r) (d : RefDetail) (id' : String) :
    ((s.storeMap.lookup id').elim 0 fun r' => (update s.details r d r').localRefCount) =
      update s.held id d.localRefCount id' := by
  by_cases heq : id' = id
  · subst heq
    rw [hlookup, update_self]
    show (update s.details r d r).localRefCount = _
    rw [update_self]
  · rw [update_of_ne heq, h.held id']
    cases hlookup' : s.storeMap.lookup id' with
    | none => rfl
    | some r' =>
      have hne : r' ≠ r := by
        rintro rfl
        exact heq (h.injective id' id r' hlookup' hlookup)
      show (update s.details r d r').localRefCount = (s.details r').localRefCount
      rw [update_of_ne hne]

theorem Balanced.held_update_same (r : Nat)
    (hcount : d.localRefCount = (s.details r).localRefCount) (id' : String) :
    s.held id' =
      (s.storeMap.lookup id').elim 0 fun r' => (update s.details r d r').localRefCount := by
  rw [h.held id']
  cases s.storeMap.lookup id' with
  | none => rfl
  | some r' =>
    show (s.details r').localRefCount = (update s.details r d r').localRefCount
    by_cases heq : r' = r
    · subst heq
      rw [update_self, hcount]
    · rw [update_of_ne heq]

theorem Balanced.working_returned {returned : List (List String × Bool)}
    (hcall : s.calls.lookup k = some c) : Working { s with toPut, returned } c := by
  have hw := h.working k c hcall
  exact { hw with }

/-- A call gets a new phase, or a new call begins, with details that no other call has in its
list. -/
theorem Balanced.insertCall (hworking : Working s c)
    (hapart : ∀ r ∈ c.refs, ∀ k' c', s.calls.lookup k' = some c' → r ∈ c'.refs → k' = k)
    {nextCall : Nat} (hk : k < nextCall) (hle : s.nextCall ≤ nextCall) :
    Balanced { s with calls := s.calls.insert k c, nextCall } extra := by
  refine { h with working := ?_, apart := ?_, callKeys := ?_, batchKeys := ?_ }
  · refine forall_lookup_insert ?_ fun k' c' hold => ?_
    · exact { hworking with }
    · have hw := h.working k' c' hold
      exact { hw with }
  · intro k₁ k₂ c₁ c₂ r h₁ h₂ hr₁ hr₂
    rcases lookup_of_insert h₁ with ⟨rfl, rfl⟩ | h₁' <;>
      rcases lookup_of_insert h₂ with ⟨rfl, rfl⟩ | h₂'
    · rfl
    · exact (hapart r hr₁ k₂ c₂ h₂' hr₂).symm
    · exact hapart r hr₂ k₁ c₁ h₁' hr₁
    · exact h.apart k₁ k₂ c₁ c₂ r h₁' h₂' hr₁ hr₂
  · exact forall_lookup_insert hk fun k' c' hold => lt_of_lt_of_le (h.callKeys k' c' hold) hle
  · exact fun k' b hb => lt_of_lt_of_le (h.batchKeys k' b hb) hle

theorem Balanced.setPhase (hcall : s.calls.lookup k = some c) (hworking : Working s { c with phase })
    (hsub : ∀ r ∈ ({ c with phase } : IncreCall).refs, r ∈ c.refs) : Balanced (s.setPhase k c phase) extra :=
  h.insertCall hworking (fun r hr k' c' hcall' hr' => h.apart k' k c' c r hcall' hcall hr' (hsub r hr))
    (h.callKeys k c hcall) le_rfl

theorem Balanced.free_setPhase (hcall : s.calls.lookup k = some c) (hr : r ∈ c.refs)
    (hnot : r ∉ ({ c with phase } : IncreCall).refs) (k' : Nat) (c' : IncreCall)
    (hcall' : (s.setPhase k c phase).calls.lookup k' = some c') : r ∉ c'.refs := by
  change (s.calls.insert k _).lookup k' = some c' at hcall'
  rw [lookup_insert_eq_ite] at hcall'
  split at hcall'
  case isTrue =>
    cases hcall'
    exact hnot
  case isFalse hne => exact fun hmem => hne (h.apart k' k c' c r hcall' hcall hmem hr)

theorem Balanced.endCall (c : IncreCall) (ok : Bool) : Balanced (s.endCall k c ok) extra := by
  refine { h with working := ?_, apart := ?_, callKeys := ?_ }
  · intro k' c' hcall
    have hw := h.working k' c' (lookup_of_erase hcall)
    exact { hw with }
  · intro k₁ k₂ c₁ c₂ r h₁ h₂
    exact h.apart k₁ k₂ c₁ c₂ r (lookup_of_erase h₁) (lookup_of_erase h₂)
  · exact fun k' c' hcall => h.callKeys k' c' (lookup_of_erase hcall)

end

/-! ## The first section of the increasing operations -/

/-- What the section has collected so far: details that it has marked itself. -/
structure Marked (s : ReferenceStore) (todo : List (String × Nat)) : Prop where
  nodup : (todo.map Prod.snd).Nodup
  named : ∀ p ∈ todo, s.storeMap.lookup p.1 = some p.2
  increasing : ∀ p ∈ todo, (s.details p.2).increInDataSystem = .increasing
  counted : ∀ p ∈ todo, s.dsRefs p.2 = 0
  apart : ∀ p ∈ todo, ∀ k c, s.calls.lookup k = some c → p.2 ∉ c.refs

theorem marked_nil : Marked s [] := ⟨nodup_nil, nofun, nofun, nofun, nofun⟩

theorem Marked.concat (h : Marked s todo) (hnew : r ∉ todo.map snd) (hnamed : s.storeMap.lookup id = some r)
    (hincreasing : (s.details r).increInDataSystem = .increasing) (hcounted : s.dsRefs r = 0)
    (hapart : ∀ k c, s.calls.lookup k = some c → r ∉ c.refs) : Marked s (todo ++ [(id, r)]) where
  nodup := by
    rw [map_append, map_singleton, ← concat_eq_append, nodup_concat]
    exact ⟨hnew, h.nodup⟩
  named := forall_mem_append.mpr ⟨h.named, forall_mem_singleton.mpr hnamed⟩
  increasing := forall_mem_append.mpr ⟨h.increasing, forall_mem_singleton.mpr hincreasing⟩
  counted := forall_mem_append.mpr ⟨h.counted, forall_mem_singleton.mpr hcounted⟩
  apart := forall_mem_append.mpr ⟨h.apart, forall_mem_singleton.mpr hapart⟩

structure SameCalls (s s' : ReferenceStore) : Prop where
  calls : s'.calls = s.calls
  toDecrease : s'.toDecrease = s.toDecrease
  nextCall : s'.nextCall = s.nextCall
  dsRefs : s'.dsRefs = s.dsRefs
  returned : s'.returned = s.returned

theorem sameCalls_emplace (s : ReferenceStore) (id : String) :
    SameCalls s (s.emplace id) ∧ (s.emplace id).held = s.held := by
  unfold emplace
  split
  all_goals exact ⟨⟨rfl, rfl, rfl, rfl, rfl⟩, rfl⟩

theorem touch_eq (hr : (s.emplace id).storeMap.lookup id = some r) :
    s.touch counts toDataSystem id =
      ({ (s.emplace id).setDetail r (((s.emplace id).details r).touched counts toDataSystem) with
          held := update s.held id (s.held id + counts.toNat) },
        if toDataSystem ∧ ((s.emplace id).details r).increInDataSystem = .notIncrease then [(id, r)]
        else [],
        if toDataSystem ∧ ((s.emplace id).details r).increInDataSystem = .increasing then [r] else []) := by
  simp only [touch, hr]

theorem Balanced.touch (h : Balanced s []) (hmarked : Marked s todo) (counts toDataSystem : Bool)
    (id : String) :
    Balanced (s.touch counts toDataSystem id).1 [] ∧
      Marked (s.touch counts toDataSystem id).1 (todo ++ (s.touch counts toDataSystem id).2.1) := by
  obtain ⟨r, hr⟩ := exists_lookup_emplace s id
  obtain ⟨hsame, hheld⟩ := sameCalls_emplace s id
  have he := h.emplace id
  have hfits := he.fits id r hr
  have hfree (hnot : ((s.emplace id).details r).increInDataSystem = .notIncrease) :=
    he.free (r := r) (by simp [hnot])
  have hold : ∀ p ∈ todo, ((s.emplace id).details p.2).increInDataSystem = .increasing := by
    intro p hp
    rw [h.details_emplace (hmarked.named p hp)]
    exact hmarked.increasing p hp
  rw [touch_eq hr]
  refine ⟨?_, ?_⟩
  · refine he.setDetail (fun _ _ => hfits.touched _ _) ?_ ?_ fun p hp => hp
    · simp only [touched]
      split
      case isTrue hnot => exact .inr (hfree hnot.2)
      case isFalse => exact .inl rfl
    · intro id'
      rw [he.held_update hr, hheld]
      have hcount : s.held id = ((s.emplace id).details r).localRefCount := by
        have hself := he.held id
        rw [hheld, hr] at hself
        exact hself
      rw [hcount]
      rfl
  · have hincreasing : ∀ p ∈ todo, (update (s.emplace id).details r
        (((s.emplace id).details r).touched counts toDataSystem) p.2).increInDataSystem = .increasing := by
      intro p hp
      have hincreasing := hold p hp
      by_cases heq : p.2 = r
      · simp_all [touched]
      · rwa [update_of_ne heq]
    have hstill : Marked { (s.emplace id).setDetail r
          (((s.emplace id).details r).touched counts toDataSystem) with
        held := update s.held id (s.held id + counts.toNat) } todo :=
      ⟨hmarked.nodup, fun p hp => lookup_emplace_of_some (hmarked.named p hp), hincreasing,
        fun p hp => (congrFun hsame.dsRefs p.2).trans (hmarked.counted p hp),
        hsame.calls ▸ hmarked.apart⟩
    split
    case isFalse =>
      rw [append_nil]
      exact hstill
    rename_i hnot
    refine hstill.concat ?_ hr ?_ (hfits.notIncrease hnot.2) (hfree hnot.2)
    · intro hr'
      obtain ⟨p, hp, hpr⟩ := mem_map.mp hr'
      have hp' := hold p hp
      rw [hpr, hnot.2] at hp'
      cases hp'
    · show (update (s.emplace id).details r
        (((s.emplace id).details r).touched counts toDataSystem) r).increInDataSystem = _
      simp [touched, hnot]

theorem Balanced.touchAll (h : Balanced s []) (hmarked : Marked s todo) (counts toDataSystem : Bool)
    (ids : List String) :
    Balanced (touchAll counts toDataSystem ids s).1 [] ∧
      Marked (touchAll counts toDataSystem ids s).1
        (todo ++ (touchAll counts toDataSystem ids s).2.1) := by
  induction ids generalizing s todo with
  | nil =>
    refine ⟨h, ?_⟩
    rw [touchAll, append_nil]
    exact hmarked
  | cons id _ ih =>
    obtain ⟨h₁, hmarked₁⟩ := h.touch hmarked counts toDataSystem id
    have h₂ := ih h₁ hmarked₁
    rw [append_assoc] at h₂
    exact h₂

theorem sameCalls_touchAll (counts toDataSystem : Bool) (ids : List String) :
    SameCalls s (touchAll counts toDataSystem ids s).1 := by
  induction ids generalizing s with
  | nil => exact ⟨rfl, rfl, rfl, rfl, rfl⟩
  | cons id _ ih =>
    have h : SameCalls s (s.touch counts toDataSystem id).1 := by
      obtain ⟨r, hr⟩ := exists_lookup_emplace s id
      rw [touch_eq hr]
      exact { (sameCalls_emplace s id).1 with }
    have h' := ih (s := (s.touch counts toDataSystem id).1)
    exact ⟨h'.calls.trans h.calls, h'.toDecrease.trans h.toDecrease, h'.nextCall.trans h.nextCall,
      h'.dsRefs.trans h.dsRefs, h'.returned.trans h.returned⟩

theorem collected_increase (hphase : c.phase = .increase todo waits) :
    c.refs = todo.map snd ∧ c.todo = todo ∧ c.taken = 0 := by
  simp [IncreCall.refs, IncreCall.todo, IncreCall.taken, hphase]

theorem mem_refs_of_mem_todo (hp : p ∈ c.todo) : p.2 ∈ c.refs := by
  cases hphase : c.phase with
  | increase =>
    obtain ⟨hrefs, htodo, -⟩ := collected_increase hphase
    rw [hrefs]
    exact mem_map_of_mem (htodo ▸ hp)
  | mark _ todo => simp [IncreCall.todo, hphase] at hp
  | wait => simp [todo, hphase] at hp

theorem collected_afterTouch (hphase : c.phase = afterTouch todo waits) :
    c.refs = todo.map snd ∧ c.todo = todo ∧ c.taken = 0 := by
  unfold afterTouch at hphase
  split at hphase
  case isTrue hnil => simp [IncreCall.refs, IncreCall.todo, IncreCall.taken, hphase, hnil]
  case isFalse => exact collected_increase hphase

theorem Marked.working (h : Marked s todo)
    (hcollected : c.refs = todo.map snd ∧ c.todo = todo ∧ c.taken = 0) : Working s c := by
  obtain ⟨hrefs, htodo, htaken⟩ := hcollected
  refine ⟨hrefs ▸ h.nodup, ?_, ?_, ?_, htodo ▸ h.named⟩
  all_goals rw [hrefs, List.forall_mem_map]
  · exact fun p hp => ⟨p.1, h.named p hp⟩
  · exact h.increasing
  · exact htaken ▸ h.counted

theorem Balanced.startCall (h : Balanced s []) (counts marks toDataSystem : Bool) (ids : List String) :
    Balanced (s.startCall counts marks toDataSystem ids) [] := by
  obtain ⟨hb, hmarked⟩ := h.touchAll marked_nil counts toDataSystem ids
  have hsame := sameCalls_touchAll (s := s) counts toDataSystem ids
  unfold ReferenceStore.startCall
  rw [← hsame.calls, ← hsame.nextCall]
  refine hb.insertCall (hmarked.working (collected_afterTouch rfl)) ?_ (lt_succ_self _) (le_succ _)
  rw [(collected_afterTouch rfl).1, List.forall_mem_map]
  exact fun p hp k' c' hcall hr => absurd hr (hmarked.apart p hp k' c' hcall)

/-! ## The answers of the data system -/

theorem countP_ref (hnodup : (todo.map snd).Nodup) (r : Nat) :
    todo.countP (·.2 = r) = if r ∈ todo.map snd then 1 else 0 := by
  have hmap : todo.countP (·.2 = r) = (todo.map snd).count r := by
    rw [List.count, countP_map]
    apply countP_congr
    intro p _
    simp
  rw [hmap]
  split
  · exact count_eq_one_of_mem hnodup ‹_›
  · exact count_eq_zero.mpr ‹_›

theorem Marked.dsRefs_increased (h : Marked s todo) (hr : r ∈ todo.map snd) :
    (s.increased todo).dsRefs r = 1 := by
  obtain ⟨p, hp, rfl⟩ := mem_map.mp hr
  show s.dsRefs p.2 + (todo.countP (·.2 = p.2) : Int) = 1
  rw [countP_ref h.nodup, if_pos hr, h.counted p hp]
  rfl

theorem Balanced.increased (h : Balanced s extra) (hmarked : Marked s todo) :
    Balanced (s.increased todo) extra := by
  have hmem : ∀ r, r ∈ todo.map snd → ∃ id, s.storeMap.lookup id = some r ∧
      (s.details r).increInDataSystem = .increasing := by
    intro r hr
    obtain ⟨p, hp, rfl⟩ := mem_map.mp hr
    exact ⟨p.1, hmarked.named p hp, hmarked.increasing p hp⟩
  have hzero : ∀ r, r ∉ todo.map snd → (s.increased todo).dsRefs r = s.dsRefs r := by
    intro r hr
    show s.dsRefs r + (todo.countP (·.2 = r) : Int) = s.dsRefs r
    rw [countP_ref hmarked.nodup, if_neg hr]
    exact add_zero _
  refine { h with fits := ?_, working := ?_, balance := ?_, left := ?_, unused := ?_ }
  · intro id r hlookup
    have hfits := h.fits id r hlookup
    by_cases hr : r ∈ todo.map snd
    · obtain ⟨-, -, hincreasing⟩ := hmem r hr
      rw [hmarked.dsRefs_increased hr]
      refine ⟨fun hnot => ?_, fun _ => rfl, .inr rfl, hfits.stored⟩
      exact absurd (hincreasing.symm.trans hnot) (by decide)
    · rw [hzero r hr]
      exact hfits
  · intro k c hcall
    have hw := h.working k c hcall
    refine { hw with counted := fun r hr => ?_ }
    rw [hzero r]
    · exact hw.counted r hr
    intro hr'
    obtain ⟨p, hp, rfl⟩ := mem_map.mp hr'
    exact hmarked.apart p hp k c hcall hr
  · intro id
    show s.balance id + (todo.countP (·.1 = id) : Int) =
      (s.storeMap.lookup id).elim 0 (s.increased todo).dsRefs + s.pendingOf extra id
    rw [h.balance id]
    cases hlookup : s.storeMap.lookup id with
    | none =>
      have hcount : todo.countP (·.1 = id) = 0 := by
        rw [countP_eq_zero]
        intro p hp hid
        have hnamed := hmarked.named p hp
        rw [of_decide_eq_true hid, hlookup] at hnamed
        cases hnamed
      rw [hcount]
      show 0 + _ + ((0 : Nat) : Int) = 0 + _
      omega
    | some r =>
      have hcount : todo.countP (·.1 = id) = todo.countP (·.2 = r) := by
        apply countP_congr
        intro p hp
        have hnamed := hmarked.named p hp
        simp only [decide_eq_true_eq]
        constructor
        · rintro rfl
          rw [hlookup] at hnamed
          exact (some.inj hnamed).symm
        · rintro rfl
          exact h.injective p.1 id p.2 hnamed hlookup
      show s.dsRefs r + _ + _ = s.dsRefs r + (todo.countP (·.2 = r) : Int) + _
      omega
  · intro r hnone
    rw [hzero r]
    · exact h.left r hnone
    intro hr
    obtain ⟨id, hlookup, -⟩ := hmem r hr
    exact hnone id hlookup
  · intro r hr
    rw [hzero r]
    · exact h.unused r hr
    intro hr'
    obtain ⟨id, hlookup, -⟩ := hmem r hr'
    exact absurd (h.fresh id r hlookup) (not_lt.mpr hr)

theorem countP_owed (p : String × Option Nat → Bool) :
    ((extra ++ replicate n (id, some r)).countP p : Int) =
      extra.countP p + if p (id, some r) then (n : Int) else 0 := by
  rw [countP_append, countP_replicate]
  split <;> simp

theorem pendingOf_owed : s.pendingOf (extra ++ replicate n (id, some r)) id' =
    s.pendingOf extra id' + if id' = id then (n : Int) else 0 := by
  simp only [pendingOf, countP_owed, add_assoc, decide_eq_true_eq, eq_comm (a := id)]

theorem pendingRef_owed : s.pendingRef (extra ++ replicate n (id, some r)) r' =
    s.pendingRef extra r' + if r' = r then (n : Int) else 0 := by
  simp only [pendingRef, countP_owed, add_assoc, decide_eq_true_eq, some.injEq, eq_comm (a := r)]

theorem Working.erase (hw : Working s c) (hnot : ∀ r ∈ c.refs, s.storeMap.lookup id ≠ some r)
    (held : String → Nat) : Working { s with storeMap := s.storeMap.erase id, held } c := by
  have hkeep : ∀ id' r', r' ∈ c.refs → s.storeMap.lookup id' = some r' →
      (s.storeMap.erase id).lookup id' = some r' := by
    intro id' r' hr' hlookup
    rw [lookup_erase_ne]
    · exact hlookup
    · rintro rfl
      exact hnot r' hr' hlookup
  refine { hw with current := fun r' hr' => ?_, named := fun p hp => ?_ }
  · obtain ⟨id', hlookup⟩ := hw.current r' hr'
    exact ⟨id', hkeep id' r' hr' hlookup⟩
  · exact hkeep p.1 p.2 (mem_refs_of_mem_todo hp) (hw.named p hp)

section

variable (h : Balanced s extra)
include h

theorem Balanced.answer
    (hcall : s.calls.lookup k = some c) (hphase : c.phase = .increase todo waits) (ok : Bool) :
    Balanced ((if ok then s.increased todo else s).setPhase k c
      (.mark ok (todo.map snd) waits)) extra := by
  obtain ⟨hrefs, htodo, htaken⟩ := collected_increase hphase
  have hw := h.working k c hcall
  rw [← hrefs]
  cases ok with
  | false =>
    refine h.setPhase hcall { hw with counted := fun r hr => ?_, named := nofun } fun r hr => hr
    exact (hw.counted r hr).trans htaken
  | true =>
    -- the call lets its details go, the references are taken, and the call has the details again
    have hlet : Balanced (s.setPhase k c (.wait waits)) extra :=
      h.setPhase hcall ⟨nodup_nil, nofun, nofun, nofun, nofun⟩ nofun
    have hin : ∀ p ∈ todo, p.2 ∈ c.refs := fun p hp => hrefs ▸ mem_map_of_mem hp
    have hmarked : Marked (s.setPhase k c (.wait waits)) todo :=
      ⟨hrefs ▸ hw.nodup, htodo ▸ hw.named, fun p hp => hw.increasing _ (hin p hp),
        fun p hp => (hw.counted _ (hin p hp)).trans htaken,
        fun p hp => h.free_setPhase hcall (hin p hp) not_mem_nil⟩
    have htook := hlet.increased hmarked
    have hagain := htook.insertCall (c := { c with phase := .mark true c.refs waits })
      { hw with counted := fun r hr => hmarked.dsRefs_increased (hrefs ▸ hr), named := nofun } ?_
      (h.callKeys k c hcall) le_rfl
    · have heq : (s.calls.insert k { c with phase := .wait waits }).insert k
          { c with phase := .mark true c.refs waits } =
            s.calls.insert k { c with phase := .mark true c.refs waits } := insert_insert _
      have hsame : { (s.setPhase k c (.wait waits)).increased todo with
          calls := ((s.setPhase k c (.wait waits)).increased todo).calls.insert k
            { c with phase := .mark true c.refs waits }
          nextCall := s.nextCall } = (s.increased todo).setPhase k c (.mark true c.refs waits) := by
        simp only [ReferenceStore.setPhase, ReferenceStore.increased]
        rw [heq]
      rw [if_pos rfl, ← hsame]
      exact hagain
    · intro r hr k' c' hcall' hmem
      rcases lookup_of_insert hcall' with ⟨rfl, -⟩ | hold
      · rfl
      · exact h.apart k' k c' c r hold hcall hmem hr

theorem Balanced.mark {ok : Bool}
    (hcall : s.calls.lookup k = some c) (hphase : c.phase = .mark ok (r :: rest) waits) :
    Balanced ((s.setDetail r ((s.details r).marked ok c.marks)).setPhase k c (.mark ok rest waits))
      extra := by
  have hw := h.working k c hcall
  have hrefs : c.refs = r :: rest := by simp [refs, hphase]
  have htaken : c.taken = if ok then 1 else 0 := by
    cases ok <;> simp [taken, hphase]
  have hnodup := hw.nodup
  rw [hrefs, nodup_cons] at hnodup
  have hmem : ∀ r' ∈ rest, r' ∈ c.refs := fun r' hr' => hrefs ▸ mem_cons_of_mem _ hr'
  have hself : r ∈ c.refs := hrefs ▸ mem_cons_self
  have hlet : Balanced (s.setPhase k c (.mark ok rest waits)) extra := by
    refine h.setPhase hcall ⟨hnodup.2, fun r' hr' => hw.current r' (hmem r' hr'),
      fun r' hr' => hw.increasing r' (hmem r' hr'), fun r' hr' => ?_, nofun⟩ hmem
    rw [hw.counted r' (hmem r' hr'), htaken]
    cases ok <;> rfl
  have hfits : ((s.details r).marked ok c.marks).Fits (s.dsRefs r) := by
    obtain ⟨id, hlookup⟩ := hw.current r hself
    have hold := h.fits id r hlookup
    have hincreasing := hw.increasing r hself
    have hcounted := (hw.counted r hself).trans htaken
    have hunstored : ¬ (s.details r).storeInDataSystem = true :=
      mt hold.stored (by simp [hincreasing])
    rw [hcounted]
    cases ok with
    | false => exact ⟨fun _ => rfl, nofun, .inl rfl, fun hst => absurd hst hunstored⟩
    | true =>
      refine ⟨?_, fun _ => rfl, .inr rfl, fun hst => absurd hst hunstored⟩
      cases hmarks : c.marks with
      | true => nofun
      | false =>
        simp only [marked, hincreasing]
        nofun
  exact hlet.setDetail (fun _ _ => hfits) (.inr (h.free_setPhase hcall hself hnodup.1))
    (hlet.held_update_same r rfl) fun p hp => hp

theorem Balanced.advance (hcall : s.calls.lookup k = some c)
    (hadvance : s.advance k c timeout = some s') : Balanced s' extra := by
  have hwait : ∀ waits, Balanced (s.setPhase k c (.wait waits)) extra := fun waits =>
    h.setPhase hcall ⟨nodup_nil, nofun, nofun, nofun, nofun⟩ nofun
  unfold ReferenceStore.advance at hadvance
  split at hadvance
  case h_1 => cases hadvance
  case h_2 hphase =>
    cases hadvance
    exact h.mark hcall hphase
  case h_3 =>
    cases hadvance
    exact hwait _
  case h_4 =>
    cases hadvance
    exact h.endCall c false
  case h_5 =>
    obtain ⟨-, rfl⟩ := ite_some_none_eq_some.mp hadvance
    exact hwait _
  case h_6 =>
    cases hadvance
    exact h.endCall c true

/-! ## Giving references back -/

theorem Balanced.leave (hlookup : s.storeMap.lookup id = some r)
    (hstate : (s.details r).increInDataSystem ≠ .increasing) (hcount : s.held id = 1) (d : RefDetail) :
    Balanced
      { s.setDetail r d with
        storeMap := s.storeMap.erase id
        held := update s.held id (s.held id - 1) }
      (extra ++ if (s.details r).storeInDataSystem ∨ (s.details r).increInDataSystem = .increase then
        [(id, some r)] else []) := by
  have hfits := h.fits id r hlookup
  have hne : ∀ id' r', s.storeMap.lookup id' = some r' → id' ≠ id → r' ≠ r := by
    rintro id' r' hlookup' hid rfl
    exact hid (h.injective id' id r' hlookup' hlookup)
  have hsub : ∀ id' r', (s.storeMap.erase id).lookup id' = some r' →
      s.storeMap.lookup id' = some r' ∧ id' ≠ id :=
    fun _ _ hlookup' => ⟨lookup_of_erase hlookup', ne_of_lookup_erase hlookup'⟩
  -- the decrements that are collected are the references of the detail
  obtain ⟨n, hn, hnew⟩ : ∃ n : Nat, s.dsRefs r = n ∧
      (if (s.details r).storeInDataSystem ∨ (s.details r).increInDataSystem = .increase then
        [(id, some r)] else []) = replicate n (id, some r) := by
    cases hs : (s.details r).increInDataSystem with
    | notIncrease =>
      refine ⟨0, hfits.notIncrease hs, if_neg ?_⟩
      rintro (hstored | hinc)
      · exact absurd (hs.symm.trans (hfits.stored hstored)) (by decide)
      · cases hinc
    | increasing => exact absurd hs hstate
    | increase => exact ⟨1, hfits.increase hs, if_pos (.inr rfl)⟩
  rw [hnew]
  -- the detail leaves the map, and is then changed
  suffices hleft : Balanced
      { s with
        storeMap := s.storeMap.erase id
        held := update s.held id (s.held id - 1) } (extra ++ replicate n (id, some r)) by
    refine hleft.update_left (fun id' hlookup' => ?_) d
    obtain ⟨hold, hid⟩ := hsub id' r hlookup'
    exact hne id' r hold hid rfl
  refine ⟨?_, ?_, ?_, ?_, h.apart, h.callKeys, h.batchKeys, ?_, ?_, ?_, ?_, ?_, ?_⟩
  · exact fun id' r' hlookup' => h.fresh id' r' (hsub id' r' hlookup').1
  · exact fun id₁ id₂ r' h₁ h₂ => h.injective id₁ id₂ r' (hsub id₁ r' h₁).1 (hsub id₂ r' h₂).1
  · exact fun id' r' hlookup' => h.fits id' r' (hsub id' r' hlookup').1
  · intro k c hcall
    refine (h.working k c hcall).erase (fun r' hr' hlookup' => ?_) _
    rw [hlookup] at hlookup'
    cases hlookup'
    exact h.free hstate k c hcall hr'
  · intro id'
    show s.balance id' = ((s.storeMap.erase id).lookup id').elim 0 s.dsRefs + pendingOf s _ id'
    rw [h.balance id', pendingOf_owed, ← hn, lookup_erase_eq_ite]
    by_cases heq : id' = id
    · subst heq
      rw [if_pos rfl, if_pos rfl, hlookup]
      show s.dsRefs r + _ = 0 + (_ + s.dsRefs r)
      omega
    · rw [if_neg heq, if_neg heq, add_zero]
  · intro r' hnone
    show s.dsRefs r' = pendingRef s _ r'
    rw [pendingRef_owed, ← hn]
    by_cases heq : r' = r
    · subst heq
      rw [if_pos rfl, h.current id r' hlookup, zero_add]
    rw [if_neg heq, add_zero]
    refine h.left r' fun id' hlookup' => ?_
    by_cases hid : id' = id
    · subst hid
      rw [hlookup] at hlookup'
      exact heq (some.inj hlookup').symm
    · exact hnone id' ((lookup_erase_ne hid).trans hlookup')
  · intro id' r' hlookup'
    obtain ⟨hold, hid⟩ := hsub id' r' hlookup'
    show pendingRef s _ r' = 0
    rw [pendingRef_owed, if_neg (hne id' r' hold hid), add_zero]
    exact h.current id' r' hold
  · intro r' hr'
    have hr : r' ≠ r := by
      rintro rfl
      exact absurd (h.fresh id r' hlookup) (not_lt.mpr hr')
    refine ⟨(h.unused r' hr').1, ?_⟩
    show pendingRef s _ r' = 0
    rw [pendingRef_owed, if_neg hr, add_zero]
    exact (h.unused r' hr').2
  · intro id'
    show update s.held id (s.held id - 1) id' =
      ((s.storeMap.erase id).lookup id').elim 0 fun r' => (s.details r').localRefCount
    rw [lookup_erase_eq_ite]
    by_cases heq : id' = id
    · subst heq
      rw [if_pos rfl, update_self, hcount]
      rfl
    · rw [if_neg heq, update_of_ne heq, h.held id']
  · intro p hp
    exact ⟨(h.found p hp).1, fun id' hlookup' => (h.found p hp).2 id' (hsub id' p.2 hlookup').1⟩

section

variable (hpos : id ≠ "" → 1 ≤ s.held id)
include hpos

theorem Balanced.decre_cases : (id = "" ∧ s.decre id = (s, [])) ∨
    ∃ r s₁, id ≠ "" ∧ s.storeMap.lookup id = some r ∧ s.held id = (s.details r).localRefCount ∧
      s₁ = { s.setDetail r { s.details r with localRefCount := (s.details r).localRefCount - 1 } with
              held := update s.held id (s.held id - 1) } ∧
      ((s.held id = 1 ∧ s.decre id = ({ s₁ with storeMap := s.storeMap.erase id },
          if (s.details r).storeInDataSystem ∨ (s.details r).increInDataSystem = .increase then
            [(id, some r)] else [])) ∨ s.decre id = (s₁, [])) := by
  by_cases hnil : id = ""
  · exact .inl ⟨hnil, if_pos hnil⟩
  refine .inr ?_
  have hheld := h.held id
  have hpos' := hpos hnil
  cases hlookup : s.storeMap.lookup id with
  | none =>
    rw [hlookup] at hheld
    change s.held id = 0 at hheld
    omega
  | some r =>
    rw [hlookup] at hheld
    change s.held id = (s.details r).localRefCount at hheld
    have hzero : (s.details r).localRefCount ≠ 0 := by omega
    refine ⟨r, _, hnil, rfl, hheld, rfl, ?_⟩
    by_cases hone : (s.details r).localRefCount = 1
    · refine .inl ⟨hheld.trans hone, ?_⟩
      simp only [decre, if_neg hnil, hlookup, if_neg hzero, if_pos hone]
    · refine .inr ?_
      simp only [decre, if_neg hnil, hlookup, if_neg hzero, if_neg hone]

theorem Balanced.decre (hstate : id ≠ "" → s.held id = 1 → ∀ r, s.storeMap.lookup id = some r →
      (s.details r).increInDataSystem ≠ .increasing) : Balanced (s.decre id).1 (extra ++ (s.decre id).2) := by
  rcases h.decre_cases hpos with ⟨-, heq⟩ | ⟨r, s₁, hne, hlookup, hheld, rfl, hcase⟩
  · rw [heq, append_nil]
    exact h
  rcases hcase with ⟨hone, heq⟩ | heq
  · rw [heq]
    exact h.leave hlookup (hstate hne hone r hlookup) hone _
  rw [heq, append_nil]
  have hfits := h.fits id r hlookup
  refine h.setDetail (fun _ _ => { hfits with }) (.inl rfl) ?_ fun p hp => hp
  intro id'
  rw [h.held_update hlookup, ← hheld]

theorem Balanced.lookup_of_decre (hlookup : (s.decre id).1.storeMap.lookup id' = some r) :
    s.storeMap.lookup id' = some r ∧
      ((s.decre id).1.details r).increInDataSystem = (s.details r).increInDataSystem := by
  rcases h.decre_cases hpos with ⟨-, heq⟩ | ⟨r₀, s₁, -, -, -, rfl, hcase⟩
  · rw [heq] at hlookup ⊢
    exact ⟨hlookup, rfl⟩
  have hsame : (update s.details r₀ { s.details r₀ with
      localRefCount := (s.details r₀).localRefCount - 1 } r).increInDataSystem =
        (s.details r).increInDataSystem := by
    by_cases heq : r = r₀
    · subst heq
      rw [update_self]
    · rw [update_of_ne heq]
  rcases hcase with ⟨-, heq⟩ | heq
  · rw [heq] at hlookup ⊢
    exact ⟨lookup_of_erase hlookup, hsame⟩
  · rw [heq] at hlookup ⊢
    exact ⟨hlookup, hsame⟩

theorem Balanced.held_decre (hne : id' ≠ "") :
    (s.decre id).1.held id' = if id' = id then s.held id - 1 else s.held id' := by
  rcases h.decre_cases hpos with ⟨hnil, heq⟩ | ⟨r, s₁, -, -, -, rfl, hcase⟩
  · rw [heq, if_neg]
    rintro rfl
    exact hne hnil
  · rcases hcase with ⟨-, heq⟩ | heq
    all_goals
      rw [heq]
      exact update_apply _ _ _ _

end

end

theorem fields_decre (s : ReferenceStore) (id : String) :
    (s.decre id).1.toDecrease = s.toDecrease ∧ (s.decre id).1.nextCall = s.nextCall := by
  unfold decre
  split
  · exact ⟨rfl, rfl⟩
  split
  · exact ⟨rfl, rfl⟩
  dsimp only
  split
  · exact ⟨rfl, rfl⟩
  · split
    all_goals exact ⟨rfl, rfl⟩

theorem fields_decreAll (s : ReferenceStore) (ids : List String) :
    (decreAll ids s).1.toDecrease = s.toDecrease ∧ (decreAll ids s).1.nextCall = s.nextCall := by
  induction ids generalizing s with
  | nil => exact ⟨rfl, rfl⟩
  | cons id _ ih =>
    obtain ⟨hbatches, hnext⟩ := ih (s.decre id).1
    exact ⟨hbatches.trans (fields_decre s id).1, hnext.trans (fields_decre s id).2⟩

/-- Callers have what they give back, and a last reference is not being increased. -/
def Returnable (s : ReferenceStore) (ids : List String) : Prop :=
  ∀ id ∈ ids, id ≠ "" → ids.count id ≤ s.held id ∧
    (s.held id = ids.count id → ∀ r, s.storeMap.lookup id = some r →
      (s.details r).increInDataSystem ≠ .increasing)

theorem Returnable.head (h : Returnable s (id :: ids)) :
    (id ≠ "" → 1 ≤ s.held id) ∧ (id ≠ "" → s.held id = 1 → ∀ r, s.storeMap.lookup id = some r →
      (s.details r).increInDataSystem ≠ .increasing) := by
  have hcount : 1 ≤ (id :: ids).count id := count_pos_iff.mpr mem_cons_self
  refine ⟨fun hne => ?_, fun hne hone => ?_⟩
  · exact hcount.trans (h id mem_cons_self hne).1
  obtain ⟨hle, hstate⟩ := h id mem_cons_self hne
  apply hstate
  omega

theorem Returnable.tail (h : Returnable s (id :: ids)) (hbalanced : Balanced s extra) :
    Returnable (s.decre id).1 ids := by
  intro id' hmem hne
  obtain ⟨hle, hstate⟩ := h id' (mem_cons_of_mem _ hmem) hne
  have hheld := hbalanced.held_decre h.head.1 hne
  have hleft : ids.count id' ≤ (s.decre id).1.held id' ∧
      ((s.decre id).1.held id' = ids.count id' → s.held id' = (id :: ids).count id') := by
    rw [hheld]
    by_cases heq : id' = id
    · subst heq
      rw [count_cons_self] at hle ⊢
      rw [if_pos rfl]
      omega
    · rw [count_cons_of_ne (Ne.symm heq)] at hle ⊢
      rw [if_neg heq]
      exact ⟨hle, fun h => h⟩
  refine ⟨hleft.1, fun heq r hlookup => ?_⟩
  obtain ⟨hlookup', hsame⟩ := hbalanced.lookup_of_decre h.head.1 hlookup
  rw [hsame]
  exact hstate (hleft.2 heq) r hlookup'

theorem Balanced.decreAll (h : Balanced s extra) (hreturnable : Returnable s ids) :
    Balanced (decreAll ids s).1 (extra ++ (decreAll ids s).2) := by
  induction ids generalizing s extra with
  | nil =>
    rw [decreAll, append_nil]
    exact h
  | cons _ _ ih =>
    have h₁ := h.decre hreturnable.head.1 hreturnable.head.2
    have h₂ := ih h₁ (hreturnable.tail h)
    rw [append_assoc] at h₂
    exact h₂

theorem Balanced.addBatch (h : Balanced s extra) :
    Balanced { s with toDecrease := s.toDecrease.insert s.nextCall extra, nextCall := s.nextCall + 1 }
      [] := by
  have hnone : s.toDecrease.lookup s.nextCall = none :=
    eq_none_iff_forall_ne_some.mpr fun b hlookup => lt_irrefl _ (h.batchKeys _ b hlookup)
  have hpending (p : String × Option Nat → Bool) :
      (s.toDecrease.insert s.nextCall extra).total (fun _ batch => (batch.countP p : Int)) +
          (([] : List (String × Option Nat)).countP p : Int) =
        s.toDecrease.total (fun _ batch => (batch.countP p : Int)) + extra.countP p := by
    rw [total_insert_of_none _ _ _ hnone]
    simp
  refine ⟨h.fresh, h.injective, h.fits, ?_, h.apart, ?_, ?_, ?_, ?_, ?_, ?_, h.held, h.found⟩
  · intro k c hcall
    have hw := h.working k c hcall
    exact { hw with }
  · exact fun k c hcall => lt_succ_of_lt (h.callKeys k c hcall)
  · exact forall_lookup_insert (lt_succ_self _)
      fun k b hold => lt_succ_of_lt (h.batchKeys k b hold)
  · exact fun id => (h.balance id).trans (congrArg _ (hpending _).symm)
  · exact fun r hnone' => (h.left r hnone').trans (hpending _).symm
  · exact fun id r hlookup => (hpending _).trans (h.current id r hlookup)
  · exact fun r hr => ⟨(h.unused r hr).1, (hpending _).trans (h.unused r hr).2⟩

theorem Balanced.decreGlobalReference (h : Balanced s []) (hreturnable : Returnable s ids) :
    Balanced (s.decreGlobalReference ids) [] := by
  have hall := h.decreAll hreturnable
  obtain ⟨hbatches, hnext⟩ := fields_decreAll s ids
  unfold ReferenceStore.decreGlobalReference
  dsimp only
  split
  case isTrue hnil => rwa [hnil] at hall
  case isFalse =>
    rw [← hbatches, ← hnext]
    exact hall.addBatch

theorem Balanced.decrease (h : Balanced s []) (hlookup : s.toDecrease.lookup k = some batch) :
    Balanced { s.decreased batch with toDecrease := s.toDecrease.erase k } [] := by
  have hpending (p : String × Option Nat → Bool) :
      (s.toDecrease.erase k).total (fun _ b => (b.countP p : Int)) + (([] : List _).countP p : Int) =
        s.toDecrease.total (fun _ b => (b.countP p : Int)) + (([] : List _).countP p : Int) -
          batch.countP p := by
    have hsplit := total_erase_add s.toDecrease (fun _ b => (b.countP p : Int)) hlookup
    omega
  have hpendingOf : ∀ id, pendingOf { s.decreased batch with toDecrease := s.toDecrease.erase k } [] id =
      s.pendingOf [] id - batch.countP (·.1 = id) := fun id => hpending _
  have hpendingRef : ∀ r, pendingRef { s.decreased batch with toDecrease := s.toDecrease.erase k } [] r =
      s.pendingRef [] r - batch.countP (·.2 = some r) := fun r => hpending _
  have hzero : ∀ r, s.pendingRef [] r = 0 → (batch.countP (·.2 = some r) : Int) = 0 := by
    intro r hpending
    have hle := le_total
      (f := fun _ b => (List.countP (fun x : String × Option Nat => decide (x.2 = some r)) b : Int))
      (fun _ _ _ => Int.natCast_nonneg _) hlookup
    unfold pendingRef at hpending
    omega
  refine ⟨h.fresh, h.injective, ?_, ?_, h.apart, h.callKeys, ?_, ?_, ?_, ?_, ?_, h.held, h.found⟩
  · intro id r hcur
    show (s.details r).Fits (s.dsRefs r - (batch.countP (·.2 = some r) : Int))
    rw [hzero r (h.current id r hcur), sub_zero]
    exact h.fits id r hcur
  · intro k' c hcall
    have hw := h.working k' c hcall
    refine { hw with counted := fun r hr => ?_ }
    obtain ⟨id, hcur⟩ := hw.current r hr
    show s.dsRefs r - (batch.countP (·.2 = some r) : Int) = c.taken
    rw [hzero r (h.current id r hcur), sub_zero]
    exact hw.counted r hr
  · exact fun k' b hb => h.batchKeys k' b (lookup_of_erase hb)
  · intro id
    rw [hpendingOf]
    show s.balance id - (batch.countP (·.1 = id) : Int) =
      (s.storeMap.lookup id).elim 0 (fun r => s.dsRefs r - (batch.countP (·.2 = some r) : Int)) + _
    rw [h.balance id]
    cases hcur : s.storeMap.lookup id with
    | none =>
      show 0 + _ - _ = 0 + (_ - _)
      omega
    | some r =>
      show s.dsRefs r + _ - _ = s.dsRefs r - (batch.countP (·.2 = some r) : Int) + (_ - _)
      rw [hzero r (h.current id r hcur)]
      omega
  · intro r hnone
    rw [hpendingRef]
    show s.dsRefs r - _ = _
    rw [h.left r hnone]
  · intro id r hcur
    rw [hpendingRef, h.current id r hcur, hzero r (h.current id r hcur), sub_zero]
  · intro r hr
    obtain ⟨hrefs, hpending⟩ := h.unused r hr
    rw [hpendingRef, hpending, hzero r hpending, sub_zero]
    refine ⟨?_, rfl⟩
    show s.dsRefs r - (batch.countP (·.2 = some r) : Int) = 0
    rw [hrefs, hzero r hpending, sub_zero]

/-! ## Putting objects -/

theorem Balanced.put (h : Balanced s [])
    (hfits : ∀ r, s.storeMap.lookup id = some r → (s.details r).Fits (s.dsRefs r) →
      (f (s.details r)).Fits (s.dsRefs r))
    (hstate : ∀ d, (f d).increInDataSystem = d.increInDataSystem ∧ (f d).localRefCount = d.localRefCount) :
    Balanced (s.put id f) [] := by
  unfold ReferenceStore.put
  split
  case h_1 => exact h
  rename_i r hlookup
  split
  case isTrue => exact h
  case isFalse =>
    exact h.setDetail (fun id' hlookup' => hfits r hlookup (h.fits id' r hlookup')) (.inl (hstate _).1)
      (h.held_update_same r (hstate _).2) fun p hp => hp

/-- The section of `DoPutToDS` stops early, or puts a detail that has or takes a reference. -/
def putSound (d : RefDetail) (inMap increOk putOk : Bool) : Bool :=
  d.storeInDataSystem || !d.storeInMemory ||
    match d.increInDataSystem with
    | .notIncrease => !increOk || (inMap && putOk)
    | .increasing => false
    | .increase => putOk

theorem putToDS_cases (hsound : putSound d inMap increOk putOk = true)
    (decreOk : Bool) : ((d.putToDS increOk putOk decreOk).2 = 0 ∧
      (d.putToDS increOk putOk decreOk).1.increInDataSystem = d.increInDataSystem ∧
      ((d.putToDS increOk putOk decreOk).1.storeInDataSystem = d.storeInDataSystem ∨
        d.increInDataSystem = .increase)) ∨
    (inMap = true ∧ d.increInDataSystem = .notIncrease ∧ (d.putToDS increOk putOk decreOk).2 = 1 ∧
      (d.putToDS increOk putOk decreOk).1.increInDataSystem = .increase) := by
  unfold putSound at hsound
  unfold putToDS
  rw [Bool.or_eq_true] at hsound
  by_cases hearly : (d.storeInDataSystem || !d.storeInMemory) = true
  · rw [if_pos hearly]
    exact .inl ⟨rfl, rfl, .inl rfl⟩
  rw [if_neg hearly]
  have hrest := hsound.resolve_left hearly
  cases hstate : d.increInDataSystem with
  | notIncrease =>
    rw [hstate] at hrest
    cases increOk with
    | false => exact .inl ⟨rfl, rfl, .inl rfl⟩
    | true =>
      simp only [Bool.not_true, Bool.false_or, Bool.and_eq_true] at hrest
      obtain ⟨hin, rfl⟩ := hrest
      exact .inr ⟨hin, rfl, rfl, rfl⟩
  | increasing =>
    rw [hstate] at hrest
    cases hrest
  | increase =>
    rw [hstate] at hrest
    subst hrest
    exact .inl ⟨rfl, hstate, .inr rfl⟩

theorem localRefCount_putToDS (d : RefDetail) (increOk putOk decreOk : Bool) :
    (d.putToDS increOk putOk decreOk).1.localRefCount = d.localRefCount := by
  unfold putToDS finishPut
  split
  · rfl
  split
  · split
    · split
      · rfl
      · rfl
    · rfl
  all_goals
    split
    · rfl
    · rfl

theorem Balanced.doPutToDS (h : Balanced s []) {i : Nat} (hget : s.toPut[i]? = some (id, r))
    (hsound : putSound (s.details r) (s.storeMap.lookup id == some r) increOk putOk = true)
    (hs' : s.next (.doPutToDS i increOk putOk decreOk) = some s') : Balanced s' [] := by
  have hput : ∀ p ∈ s.toPut.eraseIdx i, p ∈ s.toPut := fun p hp => mem_of_mem_eraseIdx hp
  have hcount := localRefCount_putToDS (s.details r) increOk putOk decreOk
  simp only [next, hget, some.injEq] at hs'
  subst hs'
  rcases putToDS_cases hsound decreOk with ⟨hzero, hsame, hstored⟩ | ⟨hin, hnot, hone, hincrease⟩
  · rw [hzero, add_zero, add_zero, update_eq_self, update_eq_self]
    refine h.setDetail (fun id' hlookup' => ?_) (.inl hsame) (h.held_update_same r hcount) hput
    have hfits := h.fits id' r hlookup'
    refine ⟨fun hn => hfits.notIncrease (hsame ▸ hn), fun hi => hfits.increase (hsame ▸ hi), hfits.range,
      fun hst => ?_⟩
    rw [hsame]
    rcases hstored with hkept | hinc
    · exact hfits.stored (hkept ▸ hst)
    · exact hinc
  · -- the detail is marked, gets its reference, and is marked again
    have hlookup : s.storeMap.lookup id = some r := by simpa using hin
    have hfits := h.fits id r hlookup
    have hfree := h.free (r := r) (by simp [hnot])
    have hunstored : ¬ (s.details r).storeInDataSystem = true := mt hfits.stored (by simp [hnot])
    have hmarked : Balanced (s.setDetail r { s.details r with increInDataSystem := .increasing }) [] := by
      refine h.setDetail
        (fun _ _ => ⟨nofun, nofun, hfits.range, fun hst => absurd hst hunstored⟩) (.inr hfree)
        (h.held_update_same r rfl) fun p hp => hp
    have hsingle : Marked (s.setDetail r { s.details r with increInDataSystem := .increasing })
        [(id, r)] := by
      refine marked_nil.concat not_mem_nil hlookup ?_ (hfits.notIncrease hnot) hfree
      show (update s.details r _ r).increInDataSystem = _
      rw [update_self]
    have htook := hmarked.increased hsingle
    have hdone := htook.setDetail (d := ((s.details r).putToDS increOk putOk decreOk).1)
      (fun _ _ => ?_) (.inr hfree) (htook.held_update_same r ?_) hput
    · have hbalance (id' : String) : s.balance id' + (([(id, r)].countP (·.1 = id') : Nat) : Int) =
          update s.balance id (s.balance id + 1) id' := by
        by_cases heq : id' = id
        · simp [heq]
        · simp [heq, Ne.symm heq]
      have hdsRefs (r' : Nat) : s.dsRefs r' + (([(id, r)].countP (·.2 = r') : Nat) : Int) =
          update s.dsRefs r (s.dsRefs r + 1) r' := by
        by_cases heq : r' = r
        · simp [heq]
        · simp [heq, Ne.symm heq]
      simp only [ReferenceStore.increased, ReferenceStore.setDetail, update_idem, hbalance, hdsRefs] at hdone
      rw [hone]
      exact hdone
    · rw [hsingle.dsRefs_increased mem_cons_self]
      refine ⟨fun hn => ?_, fun _ => rfl, .inr rfl, fun _ => hincrease⟩
      exact absurd (hincrease.symm.trans hn) (by decide)
    · rw [hcount]
      show _ = (update s.details r _ r).localRefCount
      rw [update_self]

/-! ## Whole runs -/

/-- No count reaches zero while being increased, decrements succeed, and puts succeed only for
objects with a reference. -/
def careful (s : ReferenceStore) : Event → Bool
  | .decreGlobalReference ids =>
    ids.all fun id => id == "" || s.held id != ids.count id ||
      (s.storeMap.lookup id).all fun r => (s.details r).increInDataSystem != .increasing
  | .decrease _ ok => ok
  | .putInDataSystem id ok =>
    !ok || (s.storeMap.lookup id).all fun r => (s.details r).increInDataSystem == .increase
  | .doPutToDS i increOk putOk _ =>
    s.toPut[i]?.all fun p =>
      putSound (s.details p.2) (s.storeMap.lookup p.1 == some p.2) increOk putOk
  | _ => true

theorem Balanced.step (h : Balanced s []) (hcareful : s.careful e = true)
    (hstep : s.next e = some s') : Balanced s' [] := by
  cases e with
  | increGlobalReference ids toDataSystem =>
    cases hstep
    exact h.startCall true true toDataSystem ids
  | increDSGlobalReference ids =>
    cases hstep
    exact h.startCall false true true ids
  | increaseObjRef ids =>
    simp only [next] at hstep
    split at hstep
    · cases hstep
      exact h.startCall true false true ids
    · cases hstep
      exact { h with working := fun k c hcall => h.working_returned hcall }
  | increase _ ok =>
    simp only [next] at hstep
    split at hstep
    case h_2 => cases hstep
    rename_i c hcall
    split at hstep
    case h_2 => cases hstep
    case h_1 todo waits hphase =>
      cases hstep
      exact h.answer hcall hphase ok
  | advance =>
    simp only [next] at hstep
    split at hstep
    case h_2 => cases hstep
    case h_1 c hcall => exact h.advance hcall hstep
  | decreGlobalReference =>
    obtain ⟨hheld, rfl⟩ := ite_some_none_eq_some.mp hstep
    refine h.decreGlobalReference fun id hmem hne =>
      ⟨of_decide_eq_true (all_eq_true.mp hheld id hmem), fun hcount r hlookup => ?_⟩
    simpa [hne, hcount, hlookup] using all_eq_true.mp hcareful id hmem
  | decrease =>
    simp only [next] at hstep
    split at hstep
    case h_2 => cases hstep
    rename_i batch hlookup
    subst hcareful
    cases hstep
    exact h.decrease hlookup
  | putInMemory =>
    cases hstep
    refine h.put (fun r _ hfits => ?_) fun _ => ⟨rfl, rfl⟩
    exact { hfits with }
  | putInDataSystem =>
    simp only [next, some.injEq] at hstep
    subst hstep
    split
    case isFalse => exact h
    rename_i hok
    refine h.put (fun r hlookup hfits => ?_) fun _ => ⟨rfl, rfl⟩
    refine { hfits with stored := fun _ => ?_ }
    simpa [careful, hok, hlookup] using hcareful
  | findToPut id =>
    simp only [next] at hstep
    split at hstep
    case h_1 =>
      cases hstep
      exact h
    rename_i r hlookup
    cases hstep
    refine { h with working := fun k c hcall => h.working_returned hcall, found := ?_ }
    refine forall_mem_append.mpr ⟨h.found, forall_mem_singleton.mpr ⟨h.fresh id r hlookup, ?_⟩⟩
    exact fun id' hlookup' => h.injective id' id r hlookup' hlookup
  | doPutToDS i =>
    cases hget : s.toPut[i]? with
    | none => simp [next, hget] at hstep
    | some p =>
      obtain ⟨id, r⟩ := p
      refine h.doPutToDS hget ?_ hstep
      simpa [careful, hget] using hcareful

end ReferenceStore

open ReferenceStore

variable {s : ReferenceStore}

theorem balanced_of_careful (hrun : objectReferences.Reach (fun s e => s.careful e = true) s) :
    s.Balanced [] := by
  refine hrun.invariant (P := fun s : ReferenceStore => s.Balanced []) ?_ ?_
  · rintro s rfl
    exact ⟨nofun, nofun, nofun, nofun, nofun, nofun, nofun, fun _ => rfl, fun _ _ => rfl, nofun,
      fun _ _ => ⟨rfl, rfl⟩, fun _ => rfl, nofun⟩
  · intro s e s' l _ hok h hstep
    exact h.step hok (next_of_step hstep)

/-- While no decrement is under way, an id has no reference in the data system if it is not in the
map, and at most one if it is. -/
theorem reference_balance (hrun : objectReferences.Reach (fun s e => s.careful e = true) s)
    (hidle : s.toDecrease.entries = []) :
    (∀ id, s.storeMap.lookup id = none → s.balance id = 0) ∧
      (∀ id r, s.storeMap.lookup id = some r → s.balance id = 0 ∨ s.balance id = 1) ∧
      ∀ r, (∀ id, s.storeMap.lookup id ≠ some r) → s.dsRefs r = 0 := by
  have hbalanced := balanced_of_careful hrun
  have hpendingOf : ∀ id, s.pendingOf [] id = 0 := fun id => by simp [pendingOf, total, hidle]
  have hpendingRef : ∀ r, s.pendingRef [] r = 0 := fun r => by simp [pendingRef, total, hidle]
  refine ⟨fun id hnone => ?_, fun id r hlookup => ?_, fun r hleft => ?_⟩
  · rw [hbalanced.balance id, hnone, hpendingOf]
    rfl
  · have hrange := (hbalanced.fits id r hlookup).range
    rw [hbalanced.balance id, hlookup, hpendingOf, add_zero]
    exact hrange
  · rw [hbalanced.left r hleft, hpendingRef]

theorem reference_balance_returned :
    ∃ s, objectReferences.Reach (fun s e => s.careful e = true) s ∧ s.storeMap.lookup "a" = none ∧
      s.balance "a" = 0 ∧ s.dsRefs 0 = 0 ∧ s.balance "b" = 1 := by
  obtain ⟨s, hrun, hidle, hnone, hentries, hone⟩ := objectReferences.reach_of_run careful
    (show objectReferences.init {} from rfl)
    [.increGlobalReference ["a", "b"] false, .increDSGlobalReference ["a"], .putInMemory "b",
      .increase 1 true, .findToPut "b", .advance 1 false, .advance 1 false, .advance 1 false,
      .decreGlobalReference ["a"], .doPutToDS 0 true true true, .decrease 2 true]
    (fun s => s.toDecrease.entries = [] ∧ s.storeMap.lookup "a" = none ∧
      s.storeMap.entries = [⟨"b", 1⟩] ∧ s.balance "b" = 1) (by decide)
  have hmain := reference_balance hrun hidle
  have hleft : ∀ id, s.storeMap.lookup id ≠ some 0 := by
    intro id hlookup
    have hmem := mem_entries_iff.mpr hlookup
    rw [hentries] at hmem
    simp at hmem
  exact ⟨s, hrun, hnone, hmain.1 "a" hnone, hmain.2.2 0 hleft, hone⟩

/-- `IncreaseObjRef` leaves the state at increasing: its reference is never given back. -/
theorem obj_ref_leaked :
    ∃ s, objectReferences.Reachable s ∧ s.calls.entries = [] ∧ s.toDecrease.entries = [] ∧
      s.toPut = [] ∧ s.storeMap.lookup "a" = none ∧ s.balance "a" = 1 :=
  objectReferences.reachable_of_run (show objectReferences.init {} from rfl)
    [.increGlobalReference ["a"] false, .advance 0 false, .increaseObjRef ["a"], .increase 1 true,
      .advance 1 false, .advance 1 false, .advance 1 false, .decreGlobalReference ["a"],
      .decreGlobalReference ["a"]] _ (by decide)

end Yuanrong.Libruntime
