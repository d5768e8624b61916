import Mathlib.Data.List.Rotate
import Yuanrong.LiteScheduler.Proof.WellFormed

/-!
# Rotation of the round-robin policy

The cursor counts positions in the list of candidates. While the map is walked in one order, the
calls go round the instances; a walk in another order has other instances at the positions.
-/

namespace Yuanrong.Lite

open AList List LiteScheduler Option Nat

variable {cfg : Config} {ls : LiteScheduler} {pool : LiteFunctionPool} {req : LiteRequest}
  {order : List String} {ctx : String} {cur : Nat} {units : Int}

/-- `tryDispatchLocked` for one request after the other, each with its walk through the map. -/
def dispatchAll (cfg : Config) : LiteScheduler → List (LiteRequest × List String) → List (Option String)
  | _, [] => []
  | ls, (req, order) :: rest =>
    match ls.getPool req.funcKey with
    | none => none :: dispatchAll cfg ls rest
    | some pool =>
      let outcome := tryDispatch cfg ls pool req order fun ls => .goto ls (.coldStart req)
      outcome.granted.map (·.instanceID) :: dispatchAll cfg outcome.ls rest

/-- A running instance of the context with room for `units` more. -/
structure LiteInstance.Ample (ins : LiteInstance) (ctx : String) (units : Int) : Prop where
  running : ins.status = .running
  reclaiming : ins.reclaiming = false
  sessionCtxID : ins.sessionCtxID = ctx
  fits : ins.fits units = true

theorem LiteInstance.Ample.mono {ins : LiteInstance} (h : ins.Ample ctx units) (hle : c ≤ units) :
    ins.Ample ctx c := by
  refine { h with fits := ?_ }
  have hfits := h.fits
  simp only [LiteInstance.fits, decide_eq_true_eq] at hfits ⊢
  omega

/-- The instances of the walk have room for `units` more each, and the cursor is at `cur`. -/
structure Rotating (pool : LiteFunctionPool) (order : List String) (ctx : String) (cur : Nat)
    (units : Int) : Prop where
  dispatcher : pool.dispatcher = .roundRobin cur
  instances : ∀ id ∈ order, ∃ ins, pool.instances.lookup id = some ins ∧ ins.instanceID = id ∧
    ins.Ample ctx units

theorem exists_slots (hle : c ≤ units)
    (hready : ∀ id ∈ order, ∃ ins, pool.instances.lookup id = some ins ∧ ins.instanceID = id ∧
      ins.Ample ctx units) :
    (pool.candidateSlotsLocked order ctx c).map (·.instanceID) = order ∧
      ∀ slot ∈ pool.candidateSlotsLocked order ctx c,
        slot.Ample ctx c ∧ pool.instances.lookup slot.instanceID = some slot := by
  induction order with
  | nil => exact ⟨rfl, by simp [LiteFunctionPool.candidateSlotsLocked]⟩
  | cons id rest ih =>
    obtain ⟨ins, hlookup, hid, hample⟩ := hready id mem_cons_self
    obtain ⟨hmap, hslots⟩ := ih fun id' hid' => hready id' (mem_cons_of_mem _ hid')
    have hc := hample.mono hle
    have hcons : pool.candidateSlotsLocked (id :: rest) ctx c =
        ins :: pool.candidateSlotsLocked rest ctx c := by
      simp [LiteFunctionPool.candidateSlotsLocked, hlookup, LiteInstance.schedulable, hc.running,
        hc.reclaiming, hc.sessionCtxID, hc.fits]
    rw [hcons]
    exact ⟨by rw [map_cons, hid, hmap], forall_mem_cons.mpr ⟨⟨hc, hid ▸ hlookup⟩, hslots⟩⟩

theorem findFrom_eq (hslot : slots[cur % slots.length]? = some slot) (hample : slot.Ample ctx c) :
    findFrom slots (cur % slots.length) .running c = some (cur % slots.length, slot) := by
  obtain ⟨n, hn⟩ : ∃ n, slots.length = n + 1 := by
    refine exists_eq_succ_of_ne_zero fun hzero => ?_
    rw [eq_nil_of_length_eq_zero hzero] at hslot
    cases hslot
  unfold findFrom
  rw [hn] at hslot ⊢
  simp [range_succ_eq_map, hslot, hample.running, hample.fits]

theorem Rotating.select (h : Rotating pool order ctx cur units) (hne : order ≠ []) (hpos : 1 ≤ c)
    (hle : c ≤ units) : ∃ slot, pool.dispatcher.select (pool.candidateSlotsLocked order ctx c) c =
        (some slot, .roundRobin ((cur % order.length + 1) % order.length)) ∧
      order[cur % order.length]? = some slot.instanceID ∧
      pool.instances.lookup slot.instanceID = some slot := by
  obtain ⟨hmap, hslots⟩ := exists_slots hle h.instances
  generalize pool.candidateSlotsLocked order ctx c = slots at hmap hslots
  have hlength : slots.length = order.length := by rw [← hmap, length_map]
  have hpositive : 0 < slots.length := hlength ▸ length_pos_iff.mpr hne
  have hlt : cur % slots.length < slots.length := mod_lt _ hpositive
  obtain ⟨hample, hlookup⟩ := hslots _ (getElem_mem hlt)
  have hcur : (if slots.length ≤ cur then cur % slots.length else cur) = cur % slots.length := by
    split
    · rfl
    · exact (mod_eq_of_lt (by omega)).symm
  refine ⟨slots[cur % slots.length], ?_, ?_, hlookup⟩
  · rw [h.dispatcher, ← hlength]
    simp only [Dispatcher.select, if_neg hpositive.ne', if_neg (show ¬ c ≤ 0 by omega), hcur,
      findFrom_eq (getElem?_eq_getElem hlt) hample]
  · rw [← hlength, ← hmap, getElem?_map, getElem?_eq_getElem hlt, map_some]

theorem assigned_instances (hslot : pool.instances.lookup slot.instanceID = some slot)
    (hpos : 1 ≤ req.concurrency) (d : Dispatcher) :
    (assignedPool { pool with dispatcher := d } req slot false).dispatcher = d ∧
      ∃ δ ≤ req.concurrency, (assignedPool { pool with dispatcher := d } req slot false).instances =
        pool.instances.insert slot.instanceID { slot with inUse := slot.inUse + δ } := by
  let p : LiteFunctionPool := { pool with dispatcher := d, seqCounter := nextSeq pool }
  have hp : p.instances.lookup slot.instanceID = some slot := hslot
  by_cases hsession : req.sessionID = ""
  · rw [assignedPool_unit hsession, LiteFunctionPool.addInUse_of_lookup hp]
    exact ⟨rfl, 1, hpos, rfl⟩
  · rw [assignedPool_session hsession, LiteFunctionPool.addInUse_of_lookup hp]
    exact ⟨rfl, req.concurrency, le_rfl, rfl⟩

theorem Rotating.assigned (h : Rotating pool order ctx cur units)
    (hslot : pool.instances.lookup slot.instanceID = some slot) (hpos : 1 ≤ req.concurrency) (next : Nat) :
    Rotating (assignedPool { pool with dispatcher := .roundRobin next } req slot false) order ctx next
      (units - req.concurrency) where
  dispatcher := (assigned_instances hslot hpos _).1
  instances := by
    intro id hid
    obtain ⟨ins, hlookup, hins, hample⟩ := h.instances id hid
    obtain ⟨-, δ, hδ, heq⟩ := assigned_instances hslot hpos (.roundRobin next)
    rw [heq, lookup_insert_eq_ite]
    split
    case isTrue hchosen =>
      rw [hchosen, hslot] at hlookup
      cases hlookup
      refine ⟨_, rfl, hins, hample.running, hample.reclaiming, hample.sessionCtxID, ?_⟩
      have hfits := hample.fits
      simp only [LiteInstance.fits, decide_eq_true_eq] at hfits ⊢
      omega
    case isFalse => exact ⟨ins, hlookup, hins, hample.mono (by omega)⟩

theorem rotate_step (hx : order[cur % order.length]? = some x) : ∃ rest, order.rotate cur = x :: rest ∧
      order.rotate ((cur % order.length + 1) % order.length) = rest ++ [x] := by
  have hpos : 0 < order.length := by
    refine pos_of_ne_zero fun hzero => ?_
    rw [eq_nil_of_length_eq_zero hzero] at hx
    cases hx
  have hhead := head?_rotate (mod_lt cur hpos)
  rw [rotate_mod, hx] at hhead
  obtain ⟨rest, hrest⟩ := head?_eq_some_iff.mp hhead
  refine ⟨rest, hrest, ?_⟩
  rw [rotate_mod, ← rotate_rotate, rotate_mod, hrest, rotate_cons_succ, rotate_zero]

theorem dispatchAll_eq {reqs : List LiteRequest} (hpool : ls.getPool funcKey = some pool)
    (h : Rotating pool order ctx cur (reqs.map (·.concurrency)).sum)
    (hreqs : ∀ req ∈ reqs, req.funcKey = funcKey ∧ req.sessionCtxID = ctx ∧ 1 ≤ req.concurrency)
    (hlength : reqs.length ≤ order.length) :
    dispatchAll cfg ls (reqs.map fun req => (req, order)) =
      ((order.rotate cur).take reqs.length).map some := by
  induction reqs generalizing ls pool cur with
  | nil => rfl
  | cons req reqs ih =>
    obtain ⟨rfl, rfl, hpos⟩ := hreqs req mem_cons_self
    have hrest := fun req' hreq' => hreqs req' (mem_cons_of_mem _ hreq')
    have hsum : 0 ≤ (reqs.map (·.concurrency)).sum := by
      refine sum_nonneg fun c hc => ?_
      obtain ⟨req', hreq', rfl⟩ := mem_map.mp hc
      have hone := (hrest req' hreq').2.2
      omega
    rw [length_cons] at hlength
    have hne : order ≠ [] := ne_nil_of_length_pos (by omega)
    rw [map_cons, sum_cons] at h
    obtain ⟨slot, hselect, horder, hslot⟩ := h.select hne hpos (by omega)
    obtain ⟨rest, hcur, hnext⟩ := rotate_step horder
    generalize (cur % order.length + 1) % order.length = next at hselect hnext
    have hrotating := h.assigned hslot hpos next
    rw [add_sub_cancel_left] at hrotating
    simp only [map_cons, dispatchAll, hpool, tryDispatch, hselect, assignInstance_granted, map_some]
    rw [ih _ hrotating hrest (by omega), hcur, hnext, length_cons, take_succ_cons,
      map_cons, take_append_of_le_length]
    · rfl
    · have hlen := congrArg length hcur
      rw [length_rotate, length_cons] at hlen
      omega
    · rw [getPool, assignInstance_pools, lookup_insert]

/-- **Rotation.** As many calls as there are instances, in one order, select each once. -/
theorem roundRobin_rotates {funcKey : String} {reqs : List LiteRequest}
    (hpool : ls.getPool funcKey = some pool) (hpolicy : pool.dispatcher = .roundRobin cur)
    (horder : order.Perm pool.instances.keys)
    (hready : ∀ id ins, pool.instances.lookup id = some ins → ins.instanceID = id ∧
      ins.Ample ctx (reqs.map (·.concurrency)).sum)
    (hreqs : ∀ req ∈ reqs, req.funcKey = funcKey ∧ req.sessionCtxID = ctx ∧ 1 ≤ req.concurrency)
    (hlength : reqs.length = pool.instances.keys.length) :
    ∃ ids : List String, dispatchAll cfg ls (reqs.map fun req => (req, order)) = ids.map some ∧
      ids.Perm pool.instances.keys := by
  have hn : reqs.length = (order.rotate cur).length := by rw [hlength, length_rotate, horder.length_eq]
  refine ⟨order.rotate cur, ?_, (rotate_perm order cur).trans horder⟩
  rw [dispatchAll_eq hpool ⟨hpolicy, fun id hid => ?_⟩ hreqs (by rw [hn, length_rotate]), hn, take_length]
  obtain ⟨ins, hlookup⟩ := isSome_iff_exists.mp (lookup_isSome.mpr (mem_keys.mpr (horder.subset hid)))
  exact ⟨ins, hlookup, hready id ins hlookup⟩

def twoInstances : LiteFunctionPool :=
  { newPool "t/f/1" { plainSpec with schedulePolicy := instanceSchedulePolicyRoundRobin } with
    instances := ((∅ : FinMap String LiteInstance).insert "b"
      (buildLiteInstanceFromInstance (plainInstance "b" 4))).insert "a"
      (buildLiteInstanceFromInstance (plainInstance "a" 4)) }

theorem roundRobin_rotates_twoInstances :
    ∃ ids : List String, dispatchAll plainConfig ((System.started []).ls.setPool "t/f/1" twoInstances)
        ([plainRequest "x", plainRequest "y"].map fun req => (req, ["a", "b"])) = ids.map some ∧
      ids.Perm ["a", "b"] := by
  refine @roundRobin_rotates _ _ twoInstances _ "" 0 "t/f/1" _ rfl rfl (List.Perm.refl _) ?_ (by decide) rfl
  refine forall_lookup_insert ?_ fun id ins hrest => ?_
  · exact ⟨rfl, rfl, rfl, rfl, rfl⟩
  rcases lookup_of_insert hrest with ⟨rfl, rfl⟩ | hnone
  · exact ⟨rfl, rfl, rfl, rfl, rfl⟩
  · cases hnone

/-- The second call walks the map the other way round and finds the first instance at the cursor. -/
theorem roundRobin_repeats :
    dispatchAll plainConfig ((System.started []).ls.setPool "t/f/1" twoInstances)
      [(plainRequest "x", ["a", "b"]), (plainRequest "y", ["b", "a"])] = [some "a", some "a"] := by
  decide +kernel

end Yuanrong.Lite
