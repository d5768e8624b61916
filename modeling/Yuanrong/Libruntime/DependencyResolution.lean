import Yuanrong.Libruntime.DependencyResolver

/-!
# Dependencies are resolved once

Each occurrence of a dependency has one callback, which is at one place: to be registered, in the
object's list, taken out of it, about to be run inline, or run. The counter is the number of those
not run, as long as none was told of an error. What a callback was told stays true of its object,
except that an object with a value that is not marked ready can still fail.
-/

namespace Yuanrong.Libruntime

open AList List Option ObjectDetail

namespace ObjectDetail

variable (d : ObjectDetail)

def stored : Bool := d.storeInMemory || d.storeInDataSystem

/-- Completed without an error, as far as `AddReadyCallback` is concerned. -/
def succeeded : Bool := d.err.OK && (d.ready || d.stored)

def failed : Bool := !d.err.OK

/-- The callback of a completed object was told `err`; `spared` that no value was followed by an
error. -/
def Told (spared : Prop) (err : ErrorInfo) : Prop :=
  (d.succeeded || d.failed) = true ∧ (err.OK = false → d.failed = true) ∧
    (spared → err.OK = true → d.failed = false)

variable {d} {spared : Prop} {err : ErrorInfo}

theorem told_of_failed (hd : d.failed = true) (herr : err.OK = false) : d.Told spared err :=
  ⟨by simp [hd], fun _ => hd, fun _ hok => absurd (herr.symm.trans hok) Bool.false_ne_true⟩

theorem told_of_succeeded (hd : d.succeeded = true) (herr : err.OK = true) : d.Told spared err := by
  refine ⟨by simp [hd], fun hnot => absurd (hnot.symm.trans herr) Bool.false_ne_true, fun _ _ => ?_⟩
  rw [succeeded, Bool.and_eq_true] at hd
  simp [failed, hd.1]

end ObjectDetail

namespace Resolution

variable {spared : Prop} {spec : DependentSpec} {s : Resolution} {e : Event}

def ran (s : Resolution) : List (String × ErrorInfo) := s.inline.toList ++ s.toRun ++ s.executed

def registered (spec : DependentSpec) (s : Resolution) (id : String) : Nat :=
  ((s.storeMap.lookup id).map fun d => d.callbacks.count spec.requestId).getD 0

structure Placed (spec : DependentSpec) (s : Resolution) : Prop where
  present : ∀ id ∈ spec.unfinishObjIds, (s.storeMap.lookup id).isSome
  balanced : ∀ id, spec.unfinishObjIds.count id =
    s.toRegister.count id + (s.ran.map (·.1)).count id + s.registered spec id
  waiting : ∀ id d, s.storeMap.lookup id = some d → spec.requestId ∈ d.callbacks →
    d.ready = false ∧ d.stored = false ∧ d.err.OK = true

def Told (spared : Prop) (s : Resolution) : Prop :=
  ∀ c ∈ s.ran, ∃ d, s.storeMap.lookup c.1 = some d ∧ d.Told spared c.2

/-- The counter and the calls of `onComplete` follow the callbacks run. -/
structure Counted (spec : DependentSpec) (s : Resolution) : Prop where
  open_ : ∀ r, s.dependenciesRemaining = some r → s.completions = [] ∧ 0 < r ∧
    r + s.executed.length = spec.unfinishObjIds.length ∧ ∀ c ∈ s.executed, c.2.OK = true
  closed : s.dependenciesRemaining = none → ∃ err, s.completions = [err] ∧
    (err.OK = true → s.executed.length = spec.unfinishObjIds.length ∧ ∀ c ∈ s.executed, c.2.OK = true) ∧
    (err.OK = false → ∃ c ∈ s.executed, c.2 = err)

theorem Placed.ran_subperm (h : Placed spec s) : (s.ran.map (·.1)).Subperm spec.unfinishObjIds := by
  apply subperm_ext_iff.mpr
  intro id _
  have hbalanced := h.balanced id
  omega

theorem Placed.length_le (h : Placed spec s) : s.ran.length ≤ spec.unfinishObjIds.length := by
  simpa using h.ran_subperm.length_le

theorem Counted.callback (h : Counted spec s) (hroom : s.executed.length < spec.unfinishObjIds.length)
    (id : String) (err : ErrorInfo) : Counted spec (s.callback id err) := by
  unfold Resolution.callback
  split
  case h_1 hnone =>
    obtain ⟨err₀, hcompletions, hok, hfailed⟩ := h.closed hnone
    refine ⟨?_, ?_⟩
    · intro r hr
      exact absurd (hnone.symm.trans hr) nofun
    intro _
    refine ⟨err₀, hcompletions, ?_, ?_⟩
    · intro herr
      exact absurd (hok herr).1 hroom.ne
    · intro herr
      obtain ⟨c, hc, heq⟩ := hfailed herr
      exact ⟨c, mem_cons_of_mem _ hc, heq⟩
  case h_2 remaining hsome =>
    obtain ⟨hcompletions, hpos, hlength, hall⟩ := h.open_ remaining hsome
    split
    case isTrue hlast =>
      refine ⟨nofun, fun _ => ⟨err, by simp [hcompletions], ?_, ?_⟩⟩
      · intro herr
        have hone : remaining - 1 = 0 := hlast.resolve_right (by simp [herr])
        refine ⟨?_, ?_⟩
        · rw [length_cons]
          omega
        exact forall_mem_cons.mpr ⟨herr, hall⟩
      · intro _
        exact ⟨(id, err), mem_cons_self, rfl⟩
    case isFalse hmore =>
      obtain ⟨hne, herr⟩ := not_or.mp hmore
      refine ⟨?_, nofun⟩
      rintro r ⟨⟩
      refine ⟨hcompletions, Nat.pos_of_ne_zero hne, ?_, ?_⟩
      · rw [length_cons]
        omega
      exact forall_mem_cons.mpr ⟨by simpa using herr, hall⟩

theorem callback_fields (s : Resolution) (id : String) (err : ErrorInfo) :
    (s.callback id err).storeMap = s.storeMap ∧ (s.callback id err).toRegister = s.toRegister ∧
      (s.callback id err).inline = s.inline ∧ (s.callback id err).toRun = s.toRun ∧
      (s.callback id err).executed = (id, err) :: s.executed := by
  unfold callback
  split
  · exact ⟨rfl, rfl, rfl, rfl, rfl⟩
  · split <;> exact ⟨rfl, rfl, rfl, rfl, rfl⟩

structure Inv (spared : Prop) (spec : DependentSpec) (s : Resolution) : Prop where
  placed : Placed spec s
  told : s.Told spared
  counted : Counted spec s

variable {id : String} {err : ErrorInfo}
  {d : ObjectDetail}

theorem Inv.run (h : Inv spared spec s) {inline : Option (String × ErrorInfo)}
    {toRun : List (String × ErrorInfo)}
    (hran : ((id, err) :: (inline.toList ++ toRun)).Perm (s.inline.toList ++ s.toRun)) :
    Inv spared spec ({ s with inline, toRun }.callback id err) := by
  obtain ⟨hstore, hregister, hinline, htoRun, hexecuted⟩ :=
    callback_fields { s with inline, toRun } id err
  have hperm : ({ s with inline, toRun }.callback id err).ran.Perm s.ran := by
    unfold ran
    rw [hinline, htoRun, hexecuted]
    refine perm_middle.trans ?_
    exact hran.append_right _
  have hroom : s.executed.length < spec.unfinishObjIds.length := by
    have hle := h.placed.length_le
    rw [← hperm.length_eq, ran, hexecuted, length_append, length_cons] at hle
    dsimp only at hle
    omega
  have hcounted : Counted spec { s with inline, toRun } := { h.counted with }
  refine ⟨⟨?_, ?_, ?_⟩, ?_, hcounted.callback hroom id err⟩
  · rw [hstore]
    exact h.placed.present
  · intro i
    rw [hregister, (hperm.map _).count_eq, registered, hstore]
    exact h.placed.balanced i
  · rw [hstore]
    exact h.placed.waiting
  · intro c hc
    rw [hstore]
    exact h.told c (hperm.subset hc)

theorem Placed.present_insert (h : Placed spec s) (d : ObjectDetail) (i : String)
    (hi : i ∈ spec.unfinishObjIds) : ((s.storeMap.insert id d).lookup i).isSome := by
  rw [lookup_insert_eq_ite]
  split
  · rfl
  · exact h.present i hi

theorem Told.insert (h : s.Told spared) (hlookup : s.storeMap.lookup id = some d)
    (hkeeps : ∀ err, d.Told spared err → d'.Told spared err) (hc : c ∈ s.ran) :
    ∃ d, (s.storeMap.insert id d').lookup c.1 = some d ∧ d.Told spared c.2 := by
  obtain ⟨d₀, hd₀, htold⟩ := h c hc
  rw [lookup_insert_eq_ite]
  split
  · rename_i heq
    rw [heq, hlookup] at hd₀
    cases hd₀
    exact ⟨d', rfl, hkeeps c.2 htold⟩
  · exact ⟨d₀, hd₀, htold⟩

theorem Inv.addReadyCallback (h : Inv spared spec s) (hstep : s.addReadyCallback spec = some s') :
    Inv spared spec s' := by
  unfold Resolution.addReadyCallback at hstep
  split at hstep
  case h_2 => cases hstep
  rename_i id rest hregister hinline
  -- the callback is told what the object says, and is about to be run
  have hinlined : ∀ d err, s.storeMap.lookup id = some d → d.Told spared err →
      Inv spared spec { s with toRegister := rest, inline := some (id, err) } := by
    intro d err hlookup htold
    have hran : ({ s with toRegister := rest, inline := some (id, err) } : Resolution).ran =
        (id, err) :: s.ran := by simp [ran, hinline]
    refine ⟨⟨h.placed.present, ?_, h.placed.waiting⟩, ?_, ⟨h.counted.open_, h.counted.closed⟩⟩
    · intro i
      have hbalanced := h.placed.balanced i
      rw [hregister, count_cons] at hbalanced
      rw [hran, map_cons, count_cons]
      show _ = rest.count i + (_ + if (id == i) = true then 1 else 0) + s.registered spec i
      omega
    · unfold Resolution.Told
      rw [hran]
      exact forall_mem_cons.mpr ⟨⟨d, hlookup, htold⟩, h.told⟩
  split at hstep
  case h_1 hnone =>
    -- the request keeps its dependencies in the store
    have hmem : id ∈ spec.unfinishObjIds := by
      apply count_pos_iff.mp
      have hbalanced := h.placed.balanced id
      rw [hregister, count_cons_self] at hbalanced
      omega
    have hpresent := h.placed.present id hmem
    rw [hnone] at hpresent
    cases hpresent
  case h_2 d hlookup =>
    split at hstep
    case isTrue herr =>
      cases hstep
      exact hinlined d d.err hlookup (told_of_failed (by simp [failed, herr]) herr)
    rename_i herr
    have hok : d.err.OK = true := by simpa using herr
    split at hstep
    case isTrue hready =>
      cases hstep
      refine hinlined d {} hlookup (told_of_succeeded ?_ rfl)
      simpa [succeeded, stored, hok] using hready
    case isFalse hpending =>
      cases hstep
      have hunready : d.ready = false ∧ d.stored = false := by simpa [stored] using hpending
      refine ⟨⟨h.placed.present_insert _, ?_, ?_⟩, ?_, ⟨h.counted.open_, h.counted.closed⟩⟩
      · intro i
        have hbalanced := h.placed.balanced i
        rw [hregister, count_cons] at hbalanced
        show _ = rest.count i + (s.ran.map (·.1)).count i + _
        unfold registered at hbalanced ⊢
        by_cases heq : i = id
        · subst heq
          simp [hlookup] at hbalanced ⊢
          omega
        · have hne : (id == i) = false := by simpa using fun hx => heq hx.symm
          simp [heq, hne] at hbalanced ⊢
          omega
      · exact forall_lookup_insert (fun hmem => ⟨hunready.1, hunready.2, hok⟩) h.placed.waiting
      · refine fun c hc => h.told.insert hlookup ?_ hc
        exact fun _ htold => htold

theorem told_finish (h : d.Told spared err) (hready : d.ready = false)
    (houtcome : ∀ e, outcome = some e → e.OK = false ∧ (spared → d.failed = true ∨ d.stored = false)) :
    (d.finish outcome).Told spared err := by
  cases outcome with
  | none =>
    refine ⟨?_, h.2⟩
    cases hok : d.err.OK <;> simp [succeeded, failed, finish, hok]
  | some e =>
    obtain ⟨he, hcase⟩ := houtcome e rfl
    have hfinish : (d.finish (some e)).failed = true := by simp [failed, finish, he]
    refine ⟨by simp [hfinish], fun _ => hfinish, fun hspared hok => ?_⟩
    -- told of success without being ready, the object would have a value
    obtain ⟨hdone, -, hnot⟩ := h
    have hstored := (hcase hspared).resolve_left (by simp [hnot hspared hok])
    simp [succeeded, hnot hspared hok, hready, hstored] at hdone

theorem Inv.complete (h : Inv spared spec s)
    (houtcome : ∀ e, outcome = some e → e.OK = false ∧ ∀ d, s.storeMap.lookup id = some d →
      d.ready = false → spared → d.failed = true ∨ d.stored = false) :
    Inv spared spec (s.complete spec id outcome) := by
  unfold Resolution.complete
  split
  case h_1 => exact h
  rename_i d hlookup
  split
  case isTrue => exact h
  rename_i hunready
  have hready : d.ready = false := by simpa using hunready
  have hkeeps : ∀ err, d.Told spared err → (d.finish outcome).Told spared err := fun err htold =>
    told_finish htold hready fun e he => ⟨(houtcome e he).1, (houtcome e he).2 d hlookup hready⟩
  have hran : ({ s with
      storeMap := s.storeMap.insert id (d.finish outcome)
      toRun := s.toRun ++ replicate (d.callbacks.count spec.requestId)
        (id, outcome.getD {}) } : Resolution).ran.Perm
      (replicate (d.callbacks.count spec.requestId) (id, outcome.getD {}) ++ s.ran) := by
    unfold ran
    rw [← append_assoc s.inline.toList, ← append_assoc (replicate _ _)]
    exact perm_append_comm.append_right _
  refine ⟨⟨h.placed.present_insert _, ?_, ?_⟩, ?_, ⟨h.counted.open_, h.counted.closed⟩⟩
  · intro i
    have hbalanced := h.placed.balanced i
    rw [(hran.map _).count_eq, map_append, count_append, map_replicate, count_replicate]
    unfold registered at hbalanced ⊢
    rw [lookup_insert_eq_ite]
    by_cases heq : i = id
    · subst heq
      simp only [hlookup, map_some, getD_some] at hbalanced
      simp only [if_true, beq_self_eq_true, map_some, getD_some, finish, count_nil]
      omega
    · have hne : (id == i) = false := by simpa using fun hx => heq hx.symm
      simp only [hne, Bool.false_eq_true, if_false, if_neg heq]
      omega
  · intro i d' hlookup' hmem
    rcases lookup_of_insert hlookup' with ⟨rfl, rfl⟩ | hold
    · cases hmem
    · exact h.placed.waiting i d' hold hmem
  · intro c hc
    rcases mem_append.mp (hran.subset hc) with hnew | hold
    · -- a callback the object had is told what the object now says
      obtain ⟨hpos, rfl⟩ := mem_replicate.mp hnew
      obtain ⟨-, hstored, hok⟩ := h.placed.waiting id d hlookup (count_pos_iff.mp (Nat.pos_of_ne_zero hpos))
      refine ⟨_, lookup_insert _, ?_⟩
      cases outcome with
      | none => exact told_of_succeeded (by simp [succeeded, finish, hok]) rfl
      | some e =>
        have he := (houtcome e rfl).1
        exact told_of_failed (by simp [failed, finish, he]) he
    · exact h.told.insert hlookup hkeeps hold

/-- No error is set on an object that has a value and is neither ready nor failed. -/
def sparesStored (s : Resolution) (e : Event) : Bool :=
  match e with
  | .setError id _ => (s.storeMap.lookup id).all fun d => d.ready || d.failed || !d.stored
  | _ => true

theorem Inv.step (h : Inv spared spec s) (hok : spared → s.sparesStored e = true)
    (hstep : s.next spec e = some s') : Inv spared spec s' := by
  cases e with
  | addReadyCallback => exact h.addReadyCallback hstep
  | runInline =>
    simp only [next] at hstep
    split at hstep
    case h_2 => cases hstep
    case h_1 id err hinline =>
      cases hstep
      exact h.run (by rw [hinline]; exact List.Perm.refl _)
  | setReady =>
    cases hstep
    exact h.complete nofun
  | setError =>
    obtain ⟨herr, ⟨⟩⟩ := ite_none_left_eq_some.mp hstep
    apply h.complete
    rintro e ⟨⟩
    refine ⟨by simpa using herr, ?_⟩
    intro d hlookup hready hspared
    simpa [sparesStored, hlookup, hready] using hok hspared
  | runCallback =>
    simp only [next] at hstep
    split at hstep
    case h_2 => cases hstep
    rename_i id err hget
    cases hstep
    obtain ⟨hlt, heq⟩ := List.getElem?_eq_some_iff.mp hget
    have hperm := getElem_cons_eraseIdx_perm hlt
    rw [heq] at hperm
    refine h.run ?_
    exact perm_middle.symm.trans (hperm.append_left _)

def SomeDep (spec : DependentSpec) (s : Resolution) (P : ObjectDetail → Bool) : Prop :=
  ∃ id ∈ spec.unfinishObjIds, ∃ d, s.storeMap.lookup id = some d ∧ P d = true

theorem Inv.told_dep (h : Inv spared spec s) (hlength : s.executed.length = spec.unfinishObjIds.length)
    (hid : id ∈ spec.unfinishObjIds) :
    ∃ c ∈ s.executed, ∃ d, s.storeMap.lookup id = some d ∧ d.Told spared c.2 := by
  have hsub : (s.executed.map (·.1)).Subperm spec.unfinishObjIds := by
    refine List.Subperm.trans ?_ h.placed.ran_subperm
    exact ((sublist_append_right _ _).map _).subperm
  have hperm := hsub.perm_of_length_le (by simp [hlength])
  obtain ⟨c, hc, rfl⟩ := mem_map.mp (hperm.mem_iff.mpr hid)
  exact ⟨c, hc, h.told c (mem_append_right _ hc)⟩

theorem Inv.completed (h : Inv spared spec s) (hne : s.completions ≠ []) : ∃ err, s.completions = [err] ∧
    (err.OK = true → ∀ id ∈ spec.unfinishObjIds, ∃ d, s.storeMap.lookup id = some d ∧
      (d.succeeded || d.failed) = true ∧ (spared → d.failed = false)) ∧
    (err.OK = false → SomeDep spec s failed) := by
  cases hremaining : s.dependenciesRemaining with
  | some r => exact absurd (h.counted.open_ r hremaining).1 hne
  | none =>
    obtain ⟨err, hcompletions, hok, hfailed⟩ := h.counted.closed hremaining
    refine ⟨err, hcompletions, fun herr id hid => ?_, fun herr => ?_⟩
    · obtain ⟨c, hc, d, hlookup, hdone, -, hnot⟩ := h.told_dep (hok herr).1 hid
      exact ⟨d, hlookup, hdone, fun hspared => hnot hspared ((hok herr).2 c hc)⟩
    · obtain ⟨c, hc, rfl⟩ := hfailed herr
      have hran : c ∈ s.ran := mem_append_right _ hc
      obtain ⟨d, hlookup, -, hd, -⟩ := h.told c hran
      exact ⟨c.1, h.placed.ran_subperm.subset (mem_map_of_mem hran), d, hlookup, hd herr⟩

end Resolution

open Resolution

end Yuanrong.Libruntime
