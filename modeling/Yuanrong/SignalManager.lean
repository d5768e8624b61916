import Mathlib.Data.List.Basic
import Yuanrong.Lib.StepSystem

/-!
# Update signals

The processor of an instance and a signal fetches data and kills with it, until it has no signal and
no kill to repeat. An instance that is removed and signalled again has a new processor.
-/

namespace Yuanrong.SignalManager

open List

/-- What the goroutine of a processor does next. -/
inductive Pc
  | loop (isRetry : Bool)
  | select
  | fetch
  | kill (data : Nat)
  | remove
deriving DecidableEq

/-- `IsRunning` is that there is a goroutine. -/
structure Processor where
  hasSignal : Bool := false
  pc : Option Pc := none

inductive Answer
  | ok
  | failed
  | notFound

inductive Effect
  | none
  | killed (data : Nat)
  | notFound
  | remove

/-- The data is the number of calls of `SignalInstance` before it was fetched. -/
def Processor.signalInstance (p : Processor) (stopped : Bool) (calls : Nat) (answer : Answer) :
    Option (Processor × Effect) :=
  match p.pc, answer with
  | none, _ => none
  | some (.loop isRetry), _ =>
    if !p.hasSignal && !isRetry then some ({ p with pc := none }, .none)
    else some (⟨false, some .select⟩, .none)
  | some .select, _ => some (if stopped then {} else { p with pc := some .fetch }, .none)
  | some .fetch, _ => some ({ p with pc := some (.kill calls) }, .none)
  | some (.kill data), .ok => some ({ p with pc := some (.loop false) }, .killed data)
  | some (.kill _), .failed => some ({ p with pc := some (.loop true) }, .none)
  | some (.kill _), .notFound => some ({ p with pc := some .remove }, .notFound)
  | some .remove, _ => some ({ p with pc := some (.loop false) }, .remove)

/-- The processors made for one id and signal: the latest, which `registered` says to be in the map,
and those before it. The last two fields are the data of the last kill that succeeded, and whether
since the last call the instance was removed or a kill answered that it is not found. -/
structure Manager where
  latest : Processor := {}
  registered : Bool := false
  old : List Processor := []
  calls : Nat := 0
  killed : Nat := 0
  gone : Bool := false

namespace Manager

inductive Event
  | signalInstance
  | removeInstance
  | goroutine (answer : Answer)
  | oldGoroutine (i : Nat) (answer : Answer)

variable (s : Manager)

def removeInstance : Manager := { s with registered := false, gone := true }

def effect : Effect → Manager
  | .none => s
  | .killed data => { s with killed := data }
  | .notFound => { s with gone := true }
  | .remove => s.removeInstance

def next : Event → Option Manager
  | .signalInstance =>
    let s' := { s with registered := true, calls := s.calls + 1, gone := false }
    if s.registered then some { s' with latest := ⟨true, s.latest.pc.or (some (.loop false))⟩ }
    else some { s' with latest := ⟨true, some (.loop false)⟩, old := s.latest :: s.old }
  | .removeInstance => some s.removeInstance
  | .goroutine answer =>
    (s.latest.signalInstance (!s.registered) s.calls answer).map fun r =>
      { s with latest := r.1 }.effect r.2
  | .oldGoroutine i answer =>
    s.old[i]?.bind fun p => (p.signalInstance true s.calls answer).map fun r =>
      { s with old := s.old.set i r.1 }.effect r.2

/-- An instance is registered again when the goroutine of its former processor has ended. -/
def afterEnd : Event → Bool
  | .signalInstance => s.registered || s.latest.pc = none
  | _ => true

def system : StepSystem Manager Event Unit where
  init s := s = {}
  step s e := (s.next e).map (·, ())

/-- The last call is answered, or is going to be. -/
def Answered : Prop :=
  match s.latest.pc with
  | none => s.calls ≤ s.killed
  | some (.loop isRetry) => s.latest.hasSignal ∨ isRetry ∨ s.calls ≤ s.killed
  | some (.kill data) => s.latest.hasSignal ∨ data = s.calls
  | some .remove => s.latest.hasSignal
  | _ => True

structure Inv : Prop where
  ended : ∀ p ∈ s.old, p.pc = none
  answered : s.gone = false → s.calls = 0 ∨ s.registered = true ∧ s.Answered

variable {s} {s' : Manager}

theorem Inv.latest (h : s.Inv) {p : Processor}
    (hp : s.registered = true → s.Answered → Answered { s with latest := p }) :
    Inv { s with latest := p } :=
  ⟨h.ended, fun hgone => (h.answered hgone).imp_right fun ⟨hreg, ha⟩ => ⟨hreg, hp hreg ha⟩⟩

theorem Inv.goroutine (h : s.Inv) {answer : Answer} {r : Processor × Effect}
    (hr : s.latest.signalInstance (!s.registered) s.calls answer = some r) :
    ({ s with latest := r.1 }.effect r.2).Inv := by
  obtain hpc | ⟨pc, hpc⟩ := s.latest.pc.eq_none_or_eq_some
  · simp [Processor.signalInstance, hpc] at hr
  have hlatest : ∀ {p}, _ → Inv { s with latest := p } := h.latest
  simp only [Processor.signalInstance, Answered, hpc] at hr hlatest
  cases pc with
  | loop isRetry =>
    dsimp only at hr
    split at hr <;> cases hr
    · rename_i hidle
      refine hlatest fun _ hsignal => ?_
      simp only [Bool.and_eq_true, Bool.not_eq_true'] at hidle
      simpa [hidle] using hsignal
    · exact hlatest fun _ _ => trivial
  | select =>
    cases hr
    refine hlatest fun hreg _ => ?_
    simp [hreg]
  | fetch =>
    cases hr
    exact hlatest fun _ _ => .inr rfl
  | kill data =>
    cases answer with
    | ok =>
      -- the data answers the last call, or that call has left a signal
      cases hr
      refine ⟨h.ended, fun hgone => (h.answered hgone).imp_right fun ⟨hreg, ha⟩ => ⟨hreg, ?_⟩⟩
      simp only [Answered, hpc] at ha
      exact ha.imp_right fun hdata => .inr (Nat.le_of_eq hdata.symm)
    | failed =>
      cases hr
      exact hlatest fun _ _ => .inr (.inl rfl)
    | notFound =>
      cases hr
      exact ⟨h.ended, nofun⟩
  | remove =>
    cases hr
    exact ⟨h.ended, nofun⟩

theorem Inv.step (h : s.Inv) {e : Event} (hok : s.afterEnd e = true) (hnext : s.next e = some s') :
    s'.Inv := by
  cases e with
  | signalInstance =>
    simp only [next] at hnext
    split at hnext <;> cases hnext
    · refine ⟨h.ended, fun _ => .inr ⟨rfl, ?_⟩⟩
      cases hpc : s.latest.pc with
      | none => simp [Answered]
      | some pc => cases pc <;> simp [Answered]
    · rename_i hreg
      have hlatest : s.latest.pc = none := by simpa [afterEnd, hreg] using hok
      exact ⟨List.forall_mem_cons.mpr ⟨hlatest, h.ended⟩, fun _ => .inr ⟨rfl, .inl rfl⟩⟩
  | removeInstance =>
    cases hnext
    exact ⟨h.ended, nofun⟩
  | goroutine answer =>
    obtain ⟨r, hr, rfl⟩ := Option.map_eq_some_iff.mp hnext
    exact h.goroutine hr
  | oldGoroutine i answer =>
    -- none of them has a step
    obtain ⟨p, hp, hnext⟩ := Option.bind_eq_some_iff.mp hnext
    simp [Processor.signalInstance, h.ended p (mem_of_getElem? hp)] at hnext

end Manager

/-- Only the latest processor has a goroutine, and without one the last call is answered. -/
theorem signal_answered (s : Manager) (hreach : Manager.system.Reach (fun s e => s.afterEnd e = true) s) :
    (∀ p ∈ s.old, p.pc = none) ∧ (s.latest.pc = none → s.gone = false → s.calls ≤ s.killed) := by
  obtain ⟨hended, hanswered⟩ : s.Inv := hreach.invariant (by rintro _ rfl; exact ⟨nofun, fun _ => .inl rfl⟩)
    fun _ _ _ _ _ hok h hstep => h.step hok (next_of_step hstep)
  refine ⟨hended, fun hpc hgone => (hanswered hgone).elim (fun hzero => hzero ▸ Nat.zero_le _) fun h => ?_⟩
  simpa [Manager.Answered, hpc] using h.2

/-- The instance is removed, its goroutine ends at the select, and it is signalled again. -/
theorem signal_answered_again :
    ∃ s, Manager.system.Reach (fun s e => s.afterEnd e = true) s ∧ s.calls = 2 ∧ s.latest.pc = none ∧
      s.gone = false ∧ s.calls ≤ s.killed := by
  obtain ⟨s, hreach, hcalls, hpc, hgone⟩ := Manager.system.reach_of_run Manager.afterEnd rfl
    ([.signalInstance, .goroutine .ok, .removeInstance, .goroutine .ok, .signalInstance] ++
      replicate 5 (.goroutine .ok))
    (fun s => s.calls = 2 ∧ s.latest.pc = none ∧ s.gone = false) (by decide)
  exact ⟨s, hreach, hcalls, hpc, hgone, (signal_answered s hreach).2 hpc hgone⟩

/-- The goroutine of the former processor kills last, with what it fetched before the last call. -/
theorem signal_overtaken :
    ∃ s, Manager.system.Reachable s ∧ s.latest.pc = none ∧ (∀ p ∈ s.old, p.pc = none) ∧
      s.gone = false ∧ s.killed < s.calls :=
  Manager.system.reachable_of_run rfl
    (.signalInstance :: replicate 3 (.goroutine .ok) ++ [.removeInstance, .signalInstance] ++
      replicate 5 (.goroutine .ok) ++ replicate 2 (.oldGoroutine 0 .ok))
    (fun s => s.latest.pc = none ∧ (∀ p ∈ s.old, p.pc = none) ∧ s.gone = false ∧ s.killed < s.calls)
    (by decide)

end Yuanrong.SignalManager
