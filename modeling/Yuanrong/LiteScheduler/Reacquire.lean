import Yuanrong.LiteScheduler.Proof.Granted

/-!
# Rebuilding an allocation after a restart

An allocation ID carries the hash of the binding key it was issued under. The check of a reacquire
recomputes a hash from the session ID, or without one from the session context ID. The two agree for
sessions of functions without session contexts.
-/

namespace Yuanrong.Lite

open LiteScheduler LiteFunctionPool Option String

def LiteFunctionPool.enableSessionCtx (p : LiteFunctionPool) : Bool :=
  p.funcSpec.any fun spec => spec.enableSessionCtx

variable {p : LiteFunctionPool}

theorem sessionBindingKey_eq : p.sessionBindingKey sessionID sessionCtxID =
    if p.enableSessionCtx then joinKey [sessionID, sessionCtxID] else sessionID := by
  unfold sessionBindingKey enableSessionCtx
  split
  · rename_i hnone
    simp [hnone]
  · rename_i spec hspec
    simp [hspec]

theorem sessionBindingKey_eq_allocationSessionID_iff :
    p.sessionBindingKey sessionID sessionCtxID = allocationSessionID sessionID sessionCtxID ↔
      p.enableSessionCtx = false ∧ (sessionID ≠ "" ∨ sessionCtxID = "") := by
  unfold allocationSessionID
  cases hctx : p.enableSessionCtx with
  | true =>
    rw [sessionBindingKey_eq, if_pos hctx]
    obtain ⟨hleft, hright⟩ := joinKey_ne_part sessionID sessionCtxID
    split
    · simp [hleft]
    · simp [hright]
  | false =>
    rw [sessionBindingKey_eq, if_neg (by simp [hctx])]
    split
    · rename_i hsession
      simp [hsession]
    rename_i hsession
    rw [not_not.mp hsession]
    simp [eq_comm]

section Checks

variable (cfg : Config) {allocID : String} {id : LiteAllocationID}

theorem ownerAnswer_errorCode (data : ReacquireData) (owner : Option String) (reply : InstanceResponse)
    (hreply : (if data.functionKey = "" ∨ isFuncEnabled cfg data.functionKey = false then
      some funcMetaNotFound else owner.map nonOwnerScheduler) = some reply) :
    reply ≠ leaseIDIllegal ∧ reply ≠ sessionConfigInvalid := by
  split at hreply
  · cases hreply
    exact ⟨by decide, by decide⟩
  obtain ⟨ownerID, -, rfl⟩ := map_eq_some_iff.mp hreply
  have hcode : (nonOwnerScheduler ownerID).errorCode = 150464 := rfl
  constructor
  all_goals
    rintro heq
    rw [heq] at hcode
    exact absurd hcode (by decide)

theorem validateReacquireRequest_refuses (hparse : parseLiteAllocationID allocID = some id)
    (data : ReacquireData) (owner : Option String) :
    (validateReacquireRequest cfg allocID (some data) owner = .error sessionConfigInvalid ↔
      (data.sessionID = "" ∧ data.sessionCtxID = "") ∨ data.sessionTTL < 0) ∧
    (validateReacquireRequest cfg allocID (some data) owner = .error leaseIDIllegal ↔
      ¬((data.sessionID = "" ∧ data.sessionCtxID = "") ∨ data.sessionTTL < 0) ∧
        cfg.hash.sessionHash (allocationSessionID data.sessionID data.sessionCtxID) ≠ id.sessHash) := by
  have hdistinct : leaseIDIllegal ≠ sessionConfigInvalid := by decide
  unfold validateReacquireRequest validateSessionAndOwner
  rw [hparse]
  dsimp only
  by_cases hconfig : (data.sessionID = "" ∧ data.sessionCtxID = "") ∨ data.sessionTTL < 0
  · rw [if_pos hconfig]
    simp [hconfig, hdistinct.symm]
  rw [if_neg hconfig]
  by_cases hhash : cfg.hash.sessionHash (allocationSessionID data.sessionID data.sessionCtxID) ≠ id.sessHash
  · rw [if_pos hhash]
    simp [hconfig, hhash, hdistinct]
  rw [if_neg hhash]
  have hlater := ownerAnswer_errorCode cfg data owner
  split
  · rename_i reply hreply
    obtain ⟨hillegal, hinvalid⟩ := hlater reply hreply
    simp [hconfig, hhash, hillegal, hinvalid]
  · simp [hconfig, hhash]

end Checks

/-- **Acquire and reacquire agree** on the IDs of sessions of functions without session contexts. -/
theorem issued_id_reacquirable_iff (cfg : Config)
    (hinj : Function.Injective cfg.hash.sessionHash) (s s' : System) (e : Event) (l : Label)
    (a : Allocation) (p : LiteFunctionPool) (hreach : (scheduler cfg).Reachable s)
    (hstep : s.step cfg e = some (s', l)) (hgranted : l.granted = some a)
    (hassigned : ∀ tid choice params, e = .run tid choice →
      s.threads.lookup tid ≠ some (.reacquire params))
    (hp : s.ls.getPool a.funcKey = some p) (hcolon : ':' ∉ a.instanceID.toList)
    (data : ReacquireData) (owner : Option String) (hsession : data.sessionID = a.sessionID)
    (hctx : data.sessionCtxID = a.sessionCtxID) (httl : data.sessionTTL = a.sessionTTL) :
    (validateReacquireRequest cfg a.allocationID (some data) owner ≠ .error leaseIDIllegal ↔
      (p.enableSessionCtx = false ∧ a.sessionID ≠ "") ∨ (a.sessionID = "" ∧ a.sessionCtxID = "")) ∧
    (validateReacquireRequest cfg a.allocationID (some data) owner = .error sessionConfigInvalid ↔
      a.sessionID = "" ∧ a.sessionCtxID = "") := by
  have hwf := wellFormed_of_reach hreach
  rcases (step_effect hwf hstep).granted hwf hgranted with
    ⟨pool, -, slot, hpool, -, hissued, hnonneg, -⟩ | ⟨tid, choice, params, he, hpc, -⟩
  · rw [hp] at hpool
    cases hpool
    have hrange : -2 ^ 63 ≤ toInt64 (nextSeq p) ∧ toInt64 (nextSeq p) < 2 ^ 63 := by
      have hlt : nextSeq p < 2 ^ 64 := Nat.mod_lt _ (by decide)
      unfold toInt64
      split <;> omega
    have hparse : parseLiteAllocationID a.allocationID =
        some { sessHash := cfg.hash.sessionHash (p.sessionBindingKey a.sessionID a.sessionCtxID),
               instanceID := a.instanceID, seq := toInt64 (nextSeq p) } := by
      rw [hissued]
      exact parse_genAllocationID cfg.hash hcolon hrange.1 hrange.2
    obtain ⟨hconfig, hillegal⟩ := validateReacquireRequest_refuses cfg hparse data owner
    rw [hsession, hctx, httl] at hconfig hillegal
    have hconfig' : ((a.sessionID = "" ∧ a.sessionCtxID = "") ∨ a.sessionTTL < 0) ↔
        (a.sessionID = "" ∧ a.sessionCtxID = "") :=
      or_iff_left (not_lt.mpr hnonneg)
    rw [hconfig'] at hconfig hillegal
    refine ⟨?_, hconfig⟩
    rw [ne_eq, hillegal]
    rw [ne_eq, hinj.eq_iff, eq_comm (a := allocationSessionID _ _),
      sessionBindingKey_eq_allocationSessionID_iff]
    constructor
    · intro hpass
      by_cases hnone : a.sessionID = "" ∧ a.sessionCtxID = ""
      · exact .inr hnone
      obtain ⟨hplain, hnamed⟩ := not_not.mp fun hother => hpass ⟨hnone, hother⟩
      refine .inl ⟨hplain, fun hempty => ?_⟩
      exact hnone ⟨hempty, hnamed.resolve_left (not_not.mpr hempty)⟩
    · rintro (⟨hplain, hnamed⟩ | hnone) ⟨hsome, hother⟩
      · exact hother ⟨hplain, .inl hnamed⟩
      · exact hsome hnone
  · exact absurd hpc (hassigned tid choice params he)

def escape : List Char → List Char
  | [] => []
  | c :: cs =>
    if c = ':' then '%' :: 'c' :: escape cs
    else if c = '%' then '%' :: '%' :: escape cs
    else c :: escape cs

theorem colon_notMem_escape (cs : List Char) : ':' ∉ escape cs := by
  induction cs with
  | nil => simp [escape]
  | cons _ _ ih =>
    unfold escape
    split
    · simp [ih]
    rename_i hcolon
    split
    · simp [ih]
    · simp [ih, Ne.symm hcolon]

theorem escape_injective : Function.Injective escape := by
  intro cs
  induction cs with
  | nil =>
    intro ds heq
    cases ds with
    | nil => rfl
    | cons =>
      unfold escape at heq
      split_ifs at heq
  | cons =>
    intro ds heq
    cases ds with
    | nil =>
      unfold escape at heq
      split_ifs at heq
    | cons =>
      simp only [escape] at heq
      split_ifs at heq <;> grind

def escapedHash : SessionHash where
  sessionHash s := String.ofList (escape s.toList)
  colon_notMem s := by
    rw [String.toList_ofList]
    exact colon_notMem_escape _

def escapedConfig : Config :=
  { plainConfig with hash := escapedHash }

theorem issued_id_reacquirable_session : ∃ s s' l a, (scheduler escapedConfig).Reachable s ∧
      s.step escapedConfig (.run 1 { order := ["i"] }) = some (s', l) ∧ l.granted = some a ∧
      validateReacquireRequest escapedConfig a.allocationID
        (some { plainReacquireData a.sessionID 2 with
          sessionCtxID := a.sessionCtxID, sessionTTL := a.sessionTTL }) none ≠
        .error leaseIDIllegal := by
  obtain ⟨s, hreach, hs⟩ := reachable_of_run escapedConfig [("t/f/1", plainSpec)]
    [.instanceUpdate "t/f/1" (plainInstance "i" 4), .acquire 1 (plainRequest "s"), .run 1 {}]
    (fun s => s.threads.lookup 1 == some (.dispatch { plainRequest "s" with bindingKey := "s" }) &&
      (s.step escapedConfig (.run 1 { order := ["i"] })).any fun r =>
        r.2.granted.any fun a => a.sessionID == "s" && a.instanceID == "i" &&
          (s.ls.getPool a.funcKey).any fun p => p.enableSessionCtx == false)
    (by decide)
  simp only [Bool.and_eq_true, beq_iff_eq, any_eq_true] at hs
  obtain ⟨hpc, ⟨s', l⟩, hstep, a, hgranted, ⟨hsession, hinstance⟩, p, hp, hplain⟩ := hs
  refine ⟨s, s', l, a, hreach, hstep, hgranted, ?_⟩
  have hinjective : Function.Injective escapedHash.sessionHash := fun _ _ heq =>
    toList_inj.mp (escape_injective (ofList_injective heq))
  refine (issued_id_reacquirable_iff escapedConfig hinjective s s' _ l a p hreach hstep
    hgranted ?_ hp ?_ _ none rfl rfl rfl).1.mpr (.inl ⟨hplain, ?_⟩)
  · rintro tid choice params ⟨⟩ hother
    simp [hpc] at hother
  · rw [hinstance]
    decide
  · rw [hsession]
    decide

/-- With session contexts the ID is issued under both names, and checked under one. -/
theorem issued_id_rejected_with_context : ∃ s s' l a data, (scheduler escapedConfig).Reachable s ∧
      s.step escapedConfig (.run 1 { order := ["i"] }) = some (s', l) ∧ l.granted = some a ∧
      ':' ∉ a.instanceID.toList ∧ data.sessionID = a.sessionID ∧
      data.sessionCtxID = a.sessionCtxID ∧ data.sessionTTL = a.sessionTTL ∧
      validateReacquireRequest escapedConfig a.allocationID (some data) none =
        .error leaseIDIllegal := by
  obtain ⟨s, hreach, hs⟩ := reachable_of_run escapedConfig
    [("t/f/1", { plainSpec with enableSessionCtx := true })]
    [.instanceUpdate "t/f/1" { plainInstance "i" 4 with sessionCtxID := some "c" },
      .acquire 1 { plainRequest "s" with sessionCtxID := "c" }, .run 1 {}]
    (fun s => (s.step escapedConfig (.run 1 { order := ["i"] })).any fun r =>
      r.2.granted.any fun a => a.sessionID == "s" && a.sessionCtxID == "c" && a.sessionTTL == 1 &&
        a.instanceID == "i" && validateReacquireRequest escapedConfig a.allocationID
          (some { plainReacquireData "s" 2 with sessionCtxID := "c" }) none == .error leaseIDIllegal)
    (by decide)
  simp only [Bool.and_eq_true, beq_iff_eq, any_eq_true] at hs
  obtain ⟨⟨s', l⟩, hstep, a, hgranted, ⟨⟨⟨hsession, hctx⟩, httl⟩, hinstance⟩, hillegal⟩ := hs
  refine ⟨s, s', l, a, _, hreach, hstep, hgranted, ?_, hsession.symm, hctx.symm, httl.symm, hillegal⟩
  rw [hinstance]
  decide

/-- The ID leads back to the instance, or `ParseRequest` does not take it for one of its own. -/
def Allocation.Readable (a : Allocation) : Prop :=
  (parseLiteAllocationID a.allocationID).map (·.instanceID) = some a.instanceID ∨
    ':' ∈ a.instanceID.toList ∧ isLiteAllocationID a.allocationID = false

theorem Effect.readable (hwf : s.WellFormed) (heffect : Effect cfg s e r) (hgranted : r.2.granted = some a) :
    a.Readable := by
  obtain ⟨pool, -, slot, -, -, hissued, -⟩ | ⟨tid, choice, params, -, hpc, -, rfl, -⟩ :=
    heffect.granted hwf hgranted
  · unfold Allocation.Readable isLiteAllocationID
    rw [hissued]
    by_cases hcolon : ':' ∈ a.instanceID.toList
    · rw [parse_genAllocationID_eq_none _ hcolon]
      exact .inr ⟨hcolon, rfl⟩
    have hrange : -2 ^ 63 ≤ toInt64 (nextSeq pool) ∧ toInt64 (nextSeq pool) < 2 ^ 63 := by
      unfold toInt64 nextSeq
      split <;> omega
    rw [parse_genAllocationID _ hcolon hrange.1 hrange.2]
    exact .inl rfl
  · obtain ⟨id, hparse, hid⟩ := (hwf.thread tid _ hpc).parsed
    exact .inl (map_eq_some_iff.mpr ⟨id, hparse, hid⟩)

/-- What the table has under an ID is the allocation of that ID, and the ID can be read. -/
theorem held_allocation_readable {id : String} (hreach : (scheduler cfg).Reachable s)
    (ha : s.ls.allocations.lookup id = some a) : a.allocationID = id ∧ a.Readable := by
  refine ⟨(wellFormed_of_reach hreach).allocationID id a ha, ?_⟩
  refine hreach.invariant (P := fun s => ∀ id a, s.ls.allocations.lookup id = some a → a.Readable)
    ?_ ?_ id a ha
  · intro s hinit id a ha
    rw [hinit.allocations] at ha
    cases ha
  · intro s e s' l hreach _ hreadable hstep id a ha
    have hwf := wellFormed_of_reach hreach
    have heffect := step_effect hwf hstep
    obtain ⟨old, hold, heq⟩ | ⟨hgranted, -⟩ := heffect.alloc_mem ha
    · rw [heq]
      exact hreadable id old hold
    · exact heffect.readable hwf hgranted

theorem held_allocation_readable_issued : ∃ s a, (scheduler plainConfig).Reachable s ∧
    s.ls.allocations.lookup "lite:s:i:thread:1" = some a ∧ a.Readable := by
  obtain ⟨s, hreach, hsome⟩ := reachable_of_run plainConfig [("t/f/1", plainSpec)]
    [.instanceUpdate "t/f/1" (plainInstance "i" 4), .acquire 1 (plainRequest "s"), .run 1 {},
      .run 1 { order := ["i"] }] (fun s => (s.ls.allocations.lookup "lite:s:i:thread:1").isSome) (by decide)
  obtain ⟨a, ha⟩ := isSome_iff_exists.mp hsome
  exact ⟨s, a, hreach, ha, (held_allocation_readable hreach ha).2⟩

end Yuanrong.Lite
