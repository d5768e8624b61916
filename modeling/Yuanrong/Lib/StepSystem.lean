import Mathlib.Init

/-!
# Labelled step systems

A system that moves by events. An event that cannot happen in a state has no step there; one that
can yields the next state and a label, which is what an observer sees of the step. Runs are followed
under a condition on their steps.
-/

theorem next_of_step {σ ℓ : Type} {next : Option σ} {s : σ} {l l' : ℓ}
    (h : (next.map fun s => (s, l)) = some (s, l')) : next = some s := by
  obtain ⟨s₁, hnext, ⟨⟩⟩ := Option.map_eq_some_iff.mp h
  exact hnext

structure StepSystem (σ ε ℓ : Type) where
  init : σ → Prop
  step : σ → ε → Option (σ × ℓ)

namespace StepSystem

open Option

variable {σ ε ℓ : Type} {S : StepSystem σ ε ℓ} {ok ok' : σ → ε → Prop} {s s' : σ}

inductive Reach (S : StepSystem σ ε ℓ) (ok : σ → ε → Prop) : σ → Prop
  | start {s : σ} : S.init s → Reach S ok s
  | next {s : σ} {e : ε} {s' : σ} {l : ℓ} :
      Reach S ok s → ok s e → S.step s e = some (s', l) → Reach S ok s'

def Reachable (S : StepSystem σ ε ℓ) (s : σ) : Prop := S.Reach (fun _ _ => True) s

variable {P : σ → Prop}

/-- The one induction over runs. The step may use that it starts from a state reached. -/
theorem Reach.invariant (hinit : ∀ s, S.init s → P s)
    (hstep : ∀ s e s' l, S.Reach ok s → ok s e → P s → S.step s e = some (s', l) → P s')
    (hreach : S.Reach ok s) : P s := by
  induction hreach with
  | start h => exact hinit _ h
  | next hprev hok hnext ih => exact hstep _ _ _ _ hprev hok ih hnext

theorem Reach.mono (himp : ∀ s e, ok s e → ok' s e) (hreach : S.Reach ok s) : S.Reach ok' s := by
  induction hreach with
  | start h => exact .start h
  | next _ hok hnext ih => exact ih.next (himp _ _ hok) hnext

theorem Reach.reachable (hreach : S.Reach ok s) : S.Reachable s :=
  hreach.mono fun _ _ _ => trivial

/-- The state after a list of events, if all of them can happen in turn and every one meets `ok`. -/
def execIf (S : StepSystem σ ε ℓ) (ok : σ → ε → Prop) [∀ s e, Decidable (ok s e)] :
    σ → List ε → Option σ
  | s, [] => some s
  | s, e :: es => if ok s e then (S.step s e).bind fun r => execIf S ok r.1 es else none

variable {es : List ε}

theorem Reach.execIf [∀ s e, Decidable (ok s e)] (hreach : S.Reach ok s)
    (hexec : S.execIf ok s es = some s') : S.Reach ok s' := by
  induction es generalizing s with
  | nil =>
    cases hexec
    exact hreach
  | cons _ _ ih =>
    obtain ⟨hok, hexec⟩ := ite_none_right_eq_some.mp hexec
    obtain ⟨⟨s₁, l⟩, hstep, hrest⟩ := bind_eq_some_iff.mp hexec
    exact ih (hreach.next hok hstep) hrest

theorem Reach.exists_of_any [∀ s e, Decidable (ok s e)] [DecidablePred P] (hreach : S.Reach ok s)
    (hany : (S.execIf ok s es).any (P ·) = true) : ∃ s', S.Reach ok s' ∧ P s' := by
  obtain ⟨s', hexec, hP⟩ := (any_eq_true _ _).mp hany
  exact ⟨s', hreach.execIf hexec, of_decide_eq_true hP⟩

def exec (S : StepSystem σ ε ℓ) (s : σ) (es : List ε) : Option σ :=
  S.execIf (fun _ _ => True) s es

/-- What every step from a reachable state keeps is kept by a whole run. -/
theorem Reachable.exec_invariant (hstep : ∀ s e s' l, S.Reachable s → P s → S.step s e = some (s', l) → P s')
    (hreach : S.Reachable s) (hP : P s) (hexec : S.exec s es = some s') : P s' := by
  induction es generalizing s with
  | nil =>
    cases hexec
    exact hP
  | cons e _ ih =>
    obtain ⟨⟨s₁, l⟩, hnext, hrest⟩ := bind_eq_some_iff.mp hexec
    exact ih (hreach.next trivial hnext) (hstep s e s₁ l hreach hP hnext) hrest

theorem reach_of_run (S : StepSystem σ ε ℓ) (ok : σ → ε → Bool) (hinit : S.init s) (es : List ε)
    (P : σ → Prop) [DecidablePred P] (hany : (S.execIf (fun s e => ok s e = true) s es).any (P ·) = true) :
    ∃ s', S.Reach (fun s e => ok s e = true) s' ∧ P s' :=
  Reach.exists_of_any (.start hinit) hany

theorem reachable_of_run (S : StepSystem σ ε ℓ) (hinit : S.init s) (es : List ε) (P : σ → Prop)
    [DecidablePred P] (hany : (S.exec s es).any (P ·) = true) : ∃ s', S.Reachable s' ∧ P s' :=
  Reach.exists_of_any (.start hinit) hany

end StepSystem

instance decidableExistsEqSome {α : Type} {o : Option α} {p : α → Prop} [DecidablePred p] :
    Decidable (∃ a, o = some a ∧ p a) :=
  match o with
  | none => isFalse (by simp)
  | some a => decidable_of_iff (p a) (by simp)

instance decidableExistsEqSomePair {α β : Type} {o : Option (α × β)} {p : α → β → Prop}
    [∀ a b, Decidable (p a b)] : Decidable (∃ a b, o = some (a, b) ∧ p a b) :=
  match o with
  | none => isFalse (by simp)
  | some (a, b) => decidable_of_iff (p a b)
      ⟨fun h => ⟨a, b, rfl, h⟩, fun ⟨_, _, heq, h⟩ => by cases heq; exact h⟩
