import Yuanrong.Lib.StepSystem

/-!
# Operations that are attempted again

An operation works through calls to services. The first call that fails ends the attempt, though it
may have had its effect, and so does a crash at any point. Between and during the attempts an
environment changes the world. `Operation.reach_holds` and `Operation.completes` are the rules for
any attempts and for one in which nothing fails.
-/

/-- Where an operation goes on after a call, or what it returns. -/
inductive Next (π β : Type)
  | goto (p : π)
  | done (r : β)
deriving DecidableEq

/-- How a call ends: it is answered, it fails without its effect, or it fails after its effect. -/
inductive Outcome
  | answered
  | lost
  | unheard
deriving DecidableEq

/-- An operation by its points `π`: `advance` is the answered call, `failed` what a failed one
returns. -/
structure Operation (ω π β : Type) where
  entry : ω → Next π β
  advance : π → ω → ω × Next π β
  failed : π → Option β

structure Attempts (ω π : Type) where
  world : ω
  attempt : Option π := none
deriving DecidableEq

inductive AttemptEvent (η : Type)
  | start
  | call (o : Outcome)
  | crash
  | environment (e : η)
deriving DecidableEq

namespace Operation

open Option

variable {ω π β η : Type} (op : Operation ω π β) (env : Option π → ω → η → Option ω)

def arrive (w : ω) : Next π β → Attempts ω π × Option β
  | .goto p => (⟨w, some p⟩, none)
  | .done r => (⟨w, none⟩, some r)

def call (p : π) (w : ω) : Outcome → Option (Attempts ω π × Option β)
  | .answered => some (arrive (op.advance p w).1 (op.advance p w).2)
  | .lost => (op.failed p).map fun r => (⟨w, none⟩, some r)
  | .unheard => (op.failed p).map fun r => (⟨(op.advance p w).1, none⟩, some r)

def step (s : Attempts ω π) : AttemptEvent η → Option (Attempts ω π × Option β)
  | .start => if s.attempt.isNone then some (arrive s.world (op.entry s.world)) else none
  | .call o => s.attempt.bind fun p => op.call p s.world o
  | .crash => some (⟨s.world, none⟩, none)
  | .environment e => (env s.attempt s.world e).map fun w => (⟨w, s.attempt⟩, none)

def system (init : ω → Prop) : StepSystem (Attempts ω π) (AttemptEvent η) (Option β) where
  init s := init s.world ∧ s.attempt = none
  step := op.step env

/-- `Between` holds of the world at any time and `During` at a point of an attempt. -/
def Holds (Between : ω → Prop) (During : π → ω → Prop) (s : Attempts ω π) : Prop :=
  Between s.world ∧ ∀ p, s.attempt = some p → During p s.world

section Rules

variable {op} {Between : ω → Prop} {During : π → ω → Prop} {w : ω} {p : π} {o : Outcome} {r : β}
  {s s' : Attempts ω π} {l : Option β}

theorem fst_of_some (heq : some x = some (s', l)) : x.1 = s' := by
  cases heq
  rfl

@[simp]
theorem arrive_world (next : Next π β) : (arrive w next).1.world = w := by
  cases next <;> rfl

theorem holds_arrive {next : Next π β} (hbetween : Between w)
    (hgoto : ∀ p, next = .goto p → During p w) : Holds Between During (arrive w next).1 := by
  cases next with
  | goto p =>
    refine ⟨hbetween, ?_⟩
    intro p' heq
    cases heq
    exact hgoto p rfl
  | done => exact ⟨hbetween, fun p' heq => by cases heq⟩

theorem holds_idle (hbetween : Between w) : Holds Between During (⟨w, none⟩ : Attempts ω π) :=
  ⟨hbetween, fun p heq => by cases heq⟩

theorem world_of_call (hcall : op.call p w o = some (s', l)) :
    s'.world = w ∨ s'.world = (op.advance p w).1 := by
  cases o with
  | answered =>
    right
    rw [← fst_of_some hcall, arrive_world]
  | lost =>
    obtain ⟨r, -, ⟨⟩⟩ := map_eq_some_iff.mp hcall
    exact Or.inl rfl
  | unheard =>
    obtain ⟨r, -, ⟨⟩⟩ := map_eq_some_iff.mp hcall
    exact Or.inr rfl

theorem holds_call (hbetween : Between w) (hadvance : Between (op.advance p w).1)
    (hgoto : ∀ p', (op.advance p w).2 = .goto p' → During p' (op.advance p w).1)
    (hcall : op.call p w o = some (s', l)) : Holds Between During s' := by
  cases o with
  | answered =>
    rw [← fst_of_some hcall]
    exact holds_arrive hadvance hgoto
  | lost =>
    obtain ⟨r, -, ⟨⟩⟩ := map_eq_some_iff.mp hcall
    exact holds_idle hbetween
  | unheard =>
    obtain ⟨r, -, ⟨⟩⟩ := map_eq_some_iff.mp hcall
    exact holds_idle hadvance

/-- It is enough to look at answered calls: a failed one leaves a world before or after one. -/
theorem reach_holds {init : ω → Prop} {ok : Attempts ω π → AttemptEvent η → Prop}
    {env : Option π → ω → η → Option ω} (hinit : ∀ w, init w → Between w)
    (hentry : ∀ w p, Between w → op.entry w = .goto p → During p w)
    (hadvance : ∀ p w, Between w → During p w → Between (op.advance p w).1 ∧
      ∀ p', (op.advance p w).2 = .goto p' → During p' (op.advance p w).1)
    (henv : ∀ (s : Attempts ω π) e w', ok s (.environment e) → env s.attempt s.world e = some w' →
      Holds Between During s → Holds Between During ⟨w', s.attempt⟩)
    (hreach : (op.system env init).Reach ok s) : Holds Between During s := by
  refine hreach.invariant ?_ ?_
  · rintro ⟨w, attempt⟩ ⟨hw, hnone⟩
    subst hnone
    exact holds_idle (hinit w hw)
  · intro s e s' l _ hok hholds hstep
    cases e with
    | start =>
      obtain ⟨-, hstep⟩ := ite_none_right_eq_some.mp hstep
      rw [← fst_of_some hstep]
      exact holds_arrive hholds.1 fun p hgoto => hentry s.world p hholds.1 hgoto
    | call =>
      obtain ⟨p, hp, hcall⟩ := bind_eq_some_iff.mp hstep
      obtain ⟨hkept, hgoto⟩ := hadvance p s.world hholds.1 (hholds.2 p hp)
      exact holds_call hholds.1 hkept hgoto hcall
    | crash =>
      cases hstep
      exact holds_idle hholds.1
    | environment e =>
      obtain ⟨w', henv', ⟨⟩⟩ := map_eq_some_iff.mp hstep
      exact henv s e w' hok henv' hholds

theorem step_returns {env : Option π → ω → η → Option ω} {e : AttemptEvent η}
    (hfailed : ∀ p, op.failed p ≠ some r) (hstep : op.step env s e = some (s', some r)) :
    (s'.world = s.world ∧ op.entry s.world = .done r) ∨
      ∃ p, s.attempt = some p ∧ op.advance p s.world = (s'.world, .done r) := by
  cases e with
  | start =>
    left
    obtain ⟨-, hstep⟩ := ite_none_right_eq_some.mp hstep
    cases hentry : op.entry s.world with
    | goto =>
      rw [hentry] at hstep
      cases hstep
    | done =>
      rw [hentry] at hstep
      cases hstep
      exact ⟨rfl, rfl⟩
  | call o =>
    right
    obtain ⟨p, hp, hcall⟩ := bind_eq_some_iff.mp hstep
    refine ⟨p, hp, ?_⟩
    cases o with
    | answered =>
      have harrive := Option.some.inj hcall
      cases hnext : (op.advance p s.world).2 with
      | goto =>
        rw [hnext] at harrive
        cases harrive
      | done =>
        rw [hnext] at harrive
        cases harrive
        exact Prod.ext rfl hnext
    | lost | unheard =>
      obtain ⟨r', hr, ⟨⟩⟩ := map_eq_some_iff.mp hcall
      exact absurd hr (hfailed p)
  | crash => cases hstep
  | environment => obtain ⟨w', -, ⟨⟩⟩ := map_eq_some_iff.mp hstep

end Rules

/-- With all calls answered the attempt returns `r` and leaves the world `w'`. -/
inductive Completes : π → ω → β → ω → Prop
  | done {p : π} {w w' : ω} {r : β} : op.advance p w = (w', .done r) → Completes p w r w'
  | goto {p p' : π} {w w₁ w' : ω} {r : β} :
      op.advance p w = (w₁, .goto p') → Completes p' w₁ r w' → Completes p w r w'

/-- Every answered call brings the attempt closer to its end. -/
theorem completes {ι : Type} {rel : ι → ι → Prop} (hwf : WellFounded rel) (measure : π → ι)
    {P : π → ω → Prop} (Good : β → ω → Prop)
    (hadvance : ∀ p w, P p w → (∃ r, (op.advance p w).2 = .done r ∧ Good r (op.advance p w).1) ∨
        ∃ p', (op.advance p w).2 = .goto p' ∧ P p' (op.advance p w).1 ∧ rel (measure p') (measure p))
    (p : π) (w : ω) (hP : P p w) : ∃ r w', op.Completes p w r w' ∧ Good r w' := by
  induction hm : measure p using hwf.induction generalizing p w with
  | h _ ih =>
    subst hm
    rcases hadvance p w hP with ⟨r, hdone, hgood⟩ | ⟨p', hgoto, hP', hless⟩
    · exact ⟨r, (op.advance p w).1, .done (Prod.ext rfl hdone), hgood⟩
    · obtain ⟨r, w', hrest, hgood⟩ := ih (measure p') hless p' (op.advance p w).1 hP' rfl
      exact ⟨r, w', .goto (Prod.ext rfl hgoto) hrest, hgood⟩

theorem Completes.exec {op : Operation ω π β} (env : Option π → ω → η → Option ω) (init : ω → Prop)
    (hcompletes : op.Completes p w r w') :
    ∃ (n : Nat) (s : Attempts ω π),
      (op.system env init).exec ⟨w, some p⟩ (List.replicate n (.call .answered)) = some s ∧
        op.step env s (.call .answered) = some (⟨w', none⟩, some r) := by
  induction hcompletes with
  | @done p w _ _ hadvance =>
    refine ⟨0, ⟨w, some p⟩, rfl, ?_⟩
    change some (arrive (op.advance p w).1 (op.advance p w).2) = _
    rw [hadvance]
    rfl
  | @goto p p' w w₁ _ _ hadvance _ ih =>
    obtain ⟨n, s, hexec, hlast⟩ := ih
    refine ⟨n + 1, s, ?_, hlast⟩
    rw [List.replicate_succ, StepSystem.exec, StepSystem.execIf, if_pos trivial]
    have hstep : (op.system env init).step ⟨w, some p⟩ (.call .answered) = some (⟨w₁, some p'⟩, none) := by
      change some (arrive (op.advance p w).1 (op.advance p w).2) = _
      rw [hadvance]
      rfl
    rw [hstep]
    exact hexec

end Operation
