import Mathlib.Order.RelClasses
import Yuanrong.SessionContextManager.Proof.ForkKept

/-!
# A fork is exact, however often it is attempted

An attempt that returns success leaves the source's history up to the boundary in the target, and an
attempt in which nothing fails does return success.
-/

namespace Yuanrong.SessionContextManager.ForkRequest

open List Option World Nat Prod Operation

variable {registry : Registry} {req : ForkRequest} {w w' : World} {c : ControlRecord}
  {s s' : Attempts World ForkPc}

/-! ### The attempts of a fork -/

variable {turn : TurnRecord} {e : Around}

theorem between_of_outside (hfork : req.ofThisFork w = false) (hsource : w'.HasHistory req.sourceSessionCtxID)
    (htarget : w'.HasHistory req.targetSessionCtxID) (hcontrols : w'.controls = w.controls) :
    req.Between w' where
  source := hsource
  control c hc hsame := by
    unfold ofThisFork at hfork
    rw [hcontrols] at hc
    rw [hc, any_some, hsame] at hfork
    cases hfork
  target _ := htarget

theorem appendTurn_controls (happend : w.appendTurn ctx turn = some w') : w'.controls = w.controls := by
  obtain ⟨-, rfl⟩ := appendTurn_eq_some.mp happend
  rfl

theorem appendEvent_controls (happend : w.appendEvent ctx event = some w') : w'.controls = w.controls := by
  obtain ⟨-, rfl⟩ := appendEvent_eq_some.mp happend
  rfl

theorem holds_around (haround : req.around s.attempt s.world e = some w')
    (hholds : Operation.Holds req.Between (req.During registry) s) :
    Operation.Holds req.Between (req.During registry) ⟨w', s.attempt⟩ := by
  obtain ⟨hbetween, hduring⟩ := hholds
  have hgrown : req.Grown s.world w' → Operation.Holds req.Between (req.During registry)
      ⟨w', s.attempt⟩ := fun hgrown =>
    ⟨hbetween.grown hgrown, fun p hp => during_grown hgrown (hduring p hp) hbetween⟩
  have houtside : s.attempt = none → req.Between w' → Operation.Holds req.Between
      (req.During registry) ⟨w', s.attempt⟩ := fun hnone hkept =>
    ⟨hkept, fun p hp => by rw [hnone] at hp; cases hp⟩
  cases e with
  | appendTurn =>
    have hhistory := hbetween.source.appendTurn haround
    obtain ⟨hnext, rfl⟩ := appendTurn_eq_some.mp haround
    refine hgrown ⟨hhistory, ?_, Log.Extends.refl _, fun hne => ?_, fun _ => rfl, rfl, rfl⟩
    · rw [putTurn_turns]
      exact Log.extends_append hnext
    · exact putTurn_turns_of_ne hne.symm
  | appendEvent =>
    have hhistory := hbetween.source.appendEvent haround
    obtain ⟨hnext, rfl⟩ := appendEvent_eq_some.mp haround
    refine hgrown ⟨hhistory, Log.Extends.refl _, ?_, fun _ => rfl, fun hne => ?_, rfl, rfl⟩
    · rw [putEvent_events]
      exact Log.extends_append hnext
    · exact putEvent_events_of_ne hne.symm
  | appendTargetTurn =>
    obtain ⟨hidle, haround⟩ := ite_none_right_eq_some.mp haround
    exact houtside hidle.1 (between_of_outside hidle.2
      (hbetween.source.appendTurn haround) ((hbetween.target hidle.2).appendTurn haround)
      (appendTurn_controls haround))
  | appendTargetEvent =>
    obtain ⟨hidle, haround⟩ := ite_none_right_eq_some.mp haround
    exact houtside hidle.1 (between_of_outside hidle.2
      (hbetween.source.appendEvent haround) ((hbetween.target hidle.2).appendEvent haround)
      (appendEvent_controls haround))
  | registerTarget =>
    obtain ⟨hidle, rfl⟩ := ite_some_none_eq_some.mp haround
    exact houtside hidle.1 (between_of_outside hidle.2 hbetween.source (hbetween.target hidle.2) rfl)
  | clock now | setFunctionKnown known =>
    cases haround
    exact hgrown ⟨hbetween.source, .refl _, .refl _, fun _ => rfl, fun _ => rfl, rfl, rfl⟩

theorem reachable_holds (hreach : (req.system registry).Reachable s) :
    Operation.Holds req.Between (req.During registry) s := by
  refine reach_holds (fun w h => between_of_outside h.2.2 h.1 h.2.1 rfl) ?_ (fun p w => advance_kept)
    (fun s e w' _ => holds_around) hreach
  intro w p _ hentry
  change entry w = .goto p at hentry
  unfold entry at hentry
  split at hentry
  · cases hentry
    trivial
  · cases hentry

/-! ### What an attempt leaves behind -/

/-- The target holds the history of the source up to the boundary of its control record, and nothing
else. -/
def Forked (req : ForkRequest) (w : World) : Prop :=
  ∃ c, w.controls req.targetSessionCtxID = some c ∧ req.sameFork c = true ∧ c.state = .ready ∧
    req.Boundary w c.forkTurnIndex c.forkSeq ∧
    (∀ i, w.turns req.targetSessionCtxID i =
      if i ≤ c.forkTurnIndex then (w.turns req.sourceSessionCtxID i).map req.turnCopy else none) ∧
    ∀ i, w.events req.targetSessionCtxID i =
      if i ≤ c.forkSeq then (w.events req.sourceSessionCtxID i).map req.eventCopy else none

variable {p : ForkPc}

theorem ready_of_done (hduring : req.During registry p w)
    (hadvance : req.advance registry p w = (w', .done (.ok r))) :
    ∃ c, w'.controls req.targetSessionCtxID = some c ∧ req.sameFork c = true ∧ c.state = .ready := by
  cases p with
  | readSourceControl =>
    simp only [advance, afterSourceControl, Prod.mk.injEq] at hadvance
    obtain ⟨-, hnext⟩ := hadvance
    repeat' split at hnext
    all_goals cases hnext
  | readEvents =>
    simp only [advance, afterHistory, Prod.mk.injEq] at hadvance
    obtain ⟨-, hnext⟩ := hadvance
    repeat' split at hnext
    all_goals cases hnext
  | readTargetControl =>
    simp only [advance, Prod.mk.injEq] at hadvance
    obtain ⟨rfl, hnext⟩ := hadvance
    cases hcontrol : w.controls req.targetSessionCtxID with
    | none =>
      rw [hcontrol] at hnext
      cases hnext
    | some c =>
      rw [hcontrol] at hnext
      simp only [afterTargetControl] at hnext
      split at hnext
      · cases hnext
      rename_i hsame
      split at hnext
      · rename_i hready
        exact ⟨c, rfl, Bool.not_eq_false _ ▸ hsame, hready⟩
      · cases hnext
  | lookUp job | readFirstTurn job | readFirstEvent job =>
    simp only [advance, Prod.mk.injEq] at hadvance
    obtain ⟨-, hnext⟩ := hadvance
    split at hnext <;> cases hnext
  | writeReady c =>
    simp only [advance, Prod.mk.injEq] at hadvance
    obtain ⟨rfl, -⟩ := hadvance
    exact ⟨c, writeControl_controls, hduring.1.1.same, hduring.2⟩
  | register =>
    cases hadvance
    exact hduring
  | _ => cases hadvance

/-- The target has another's control record, a history, or an entry in the registry. -/
def Independent (registry : Registry) (req : ForkRequest) (w : World) : Prop :=
  req.ofThisFork w = false ∧
    ((w.controls req.targetSessionCtxID).isSome ∨ (∃ i, (w.turns req.targetSessionCtxID i).isSome) ∨
      (∃ i, (w.events req.targetSessionCtxID i).isSome) ∨
      (registry.looksUp ∧ w.registered req.targetSessionCtxID))

def SameTarget (req : ForkRequest) (w w' : World) : Prop :=
  w'.turns req.targetSessionCtxID = w.turns req.targetSessionCtxID ∧
    w'.events req.targetSessionCtxID = w.events req.targetSessionCtxID ∧
    w'.controls req.targetSessionCtxID = w.controls req.targetSessionCtxID ∧
    w'.registered req.targetSessionCtxID = w.registered req.targetSessionCtxID

theorem Independent.not_ofThisFork (h : req.Independent registry w) (hfork : req.ofThisFork w = true) :
    False := by
  rw [h.1] at hfork
  cases hfork

theorem Independent.not_unclaimed (h : req.Independent registry w) (hbetween : req.Between w)
    (hunclaimed : req.Unclaimed registry w) (hturn : w.turns req.targetSessionCtxID 1 = none)
    (hevent : w.events req.targetSessionCtxID 1 = none) : False := by
  obtain ⟨hturns, hevents⟩ := target_empty hbetween hunclaimed.1 hturn hevent
  rcases h.2 with hcontrol | ⟨i, hsome⟩ | ⟨i, hsome⟩ | ⟨hlooksUp, hregistered⟩
  · rw [hunclaimed.1] at hcontrol
    cases hcontrol
  · rw [hturns i] at hsome
    cases hsome
  · rw [hevents i] at hsome
    cases hsome
  · rw [hunclaimed.2 hlooksUp] at hregistered
    cases hregistered

theorem sameTarget_advance (hbetween : req.Between w) (hduring : req.During registry p w)
    (hindependent : req.Independent registry w) : req.SameTarget w (req.advance registry p w).1 := by
  cases p with
  | writeCreating =>
    obtain ⟨-, hunclaimed, hturn, hevent, -⟩ := hduring
    exact (hindependent.not_unclaimed hbetween hunclaimed hturn hevent).elim
  | putTurn => exact (hindependent.not_ofThisFork hduring.1.stored.ofThisFork).elim
  | checkpointTurns => exact (hindependent.not_ofThisFork (Loop.stored hduring).ofThisFork).elim
  | putEvent =>
    obtain ⟨⟨i, hloop⟩, -⟩ := hduring
    exact (hindependent.not_ofThisFork hloop.stored.ofThisFork).elim
  | checkpointEvents =>
    obtain ⟨i, hloop⟩ := hduring
    exact (hindependent.not_ofThisFork hloop.stored.ofThisFork).elim
  | writeCopied => exact (hindependent.not_ofThisFork hduring.2.1.ofThisFork).elim
  | writeReady => exact (hindependent.not_ofThisFork hduring.1.2.1.ofThisFork).elim
  | register =>
    obtain ⟨c, hc, hsame, -⟩ := hduring
    exact (hindependent.not_ofThisFork (Stored.ofThisFork ⟨c, hc, hsame, rfl, rfl⟩)).elim
  | _ => exact ⟨rfl, rfl, rfl, rfl⟩

/-! ### The boundary stays -/

theorem Stored.writeControl (h : req.Stored w c) (h₁ : req.Stored w c₁)
    (hsame : req.sameFork c₁ = true) : req.Stored (w.writeControl req.targetSessionCtxID c₁) c := by
  obtain ⟨c', hc', -, hturn, hseq⟩ := h
  obtain ⟨c'', hc'', -, hturn₁, hseq₁⟩ := h₁
  rw [hc'] at hc''
  cases hc''
  exact ⟨c₁, writeControl_controls, hsame, hturn₁.symm.trans hturn, hseq₁.symm.trans hseq⟩

theorem stored_advance (hduring : req.During registry p w) (h : req.Stored w c) :
    req.Stored (req.advance registry p w).1 c := by
  cases p with
  | writeCreating =>
    obtain ⟨-, hunclaimed, -⟩ := hduring
    obtain ⟨c', hc', -⟩ := h
    rw [hunclaimed.1] at hc'
    cases hc'
  | checkpointTurns => exact h.writeControl (Loop.stored hduring) (Loop.progress hduring).same
  | checkpointEvents =>
    obtain ⟨i, hloop⟩ := hduring
    exact h.writeControl hloop.stored hloop.progress.same
  | writeCopied => exact h.writeControl hduring.2.1 hduring.1.same
  | writeReady => exact h.writeControl hduring.1.2.1 hduring.1.1.same
  | _ => exact h

theorem around_controls (haround : req.around attempt w e = some w') : w'.controls = w.controls := by
  cases e with
  | appendTurn => exact appendTurn_controls haround
  | appendEvent => exact appendEvent_controls haround
  | appendTargetTurn =>
    obtain ⟨-, haround⟩ := ite_none_right_eq_some.mp haround
    exact appendTurn_controls haround
  | appendTargetEvent =>
    obtain ⟨-, haround⟩ := ite_none_right_eq_some.mp haround
    exact appendEvent_controls haround
  | registerTarget =>
    obtain ⟨-, rfl⟩ := ite_some_none_eq_some.mp haround
    rfl
  | clock | setFunctionKnown =>
    cases haround
    rfl

theorem stored_step {e : AttemptEvent Around} (hreach : (req.system registry).Reachable s)
    (h : req.Stored s.world c) (hstep : (req.system registry).step s e = some (s', l)) :
    req.Stored s'.world c := by
  obtain ⟨-, hduring⟩ := reachable_holds hreach
  cases e with
  | start =>
    obtain ⟨-, hstep⟩ := ite_none_right_eq_some.mp hstep
    rw [← fst_of_some hstep, arrive_world]
    exact h
  | call =>
    obtain ⟨p, hp, hcall⟩ := bind_eq_some_iff.mp hstep
    rcases world_of_call hcall with hworld | hworld
    · rw [hworld]
      exact h
    · rw [hworld]
      exact stored_advance (hduring p hp) h
  | crash =>
    cases hstep
    exact h
  | environment =>
    obtain ⟨w', haround, ⟨⟩⟩ := map_eq_some_iff.mp hstep
    obtain ⟨c', hc', hrest⟩ := h
    refine ⟨c', ?_, hrest⟩
    rw [around_controls haround]
    exact hc'

/-! ### An attempt in which nothing fails -/

/-- The turn is completed, the source is not being deleted, and the target is free or the fork's. -/
structure Possible (registry : Registry) (req : ForkRequest) (w : World) : Prop where
  known : w.functionKnown = true
  notDeleting : ∀ c, w.controls req.sourceSessionCtxID = some c → c.state ≠ .deleting
  turn : ∃ i t, w.turns req.sourceSessionCtxID i = some t ∧ t.turnID = req.turnID
  event : ∃ i e, w.events req.sourceSessionCtxID i = some e ∧ e.turnID = req.turnID ∧
    e.type = "turn.completed"
  target : req.ofThisFork w = true ∨ (w.controls req.targetSessionCtxID = none ∧
    w.turns req.targetSessionCtxID 1 = none ∧ w.events req.targetSessionCtxID 1 = none ∧
    (registry.looksUp = true → w.registered req.targetSessionCtxID = false))

/-- Up to the write of the control record the fork is possible, and all turns are read before the
events. -/
def Prepared (registry : Registry) (req : ForkRequest) (n : Nat) : ForkPc → World → Prop
  | .readEvents turns _, w => turns.length = n ∧ req.Possible registry w
  | .readSourceControl, w | .readTurns _, w | .readTargetControl _, w | .lookUp _, w
  | .readFirstTurn _, w | .readFirstEvent _, w => req.Possible registry w
  | _, _ => True

/-- The calls to come: a phase, and the calls of its loop. -/
def callsLeft (turns events : Nat) : ForkPc → Nat × Nat
  | .readSourceControl => (14, 0)
  | .readTurns read => (13, turns - read.length)
  | .readEvents _ read => (12, events - read.length)
  | .readTargetControl _ => (11, 0)
  | .lookUp _ => (10, 0)
  | .readFirstTurn _ => (9, 0)
  | .readFirstEvent _ => (8, 0)
  | .writeCreating _ _ => (7, 0)
  | .putTurn _ rest _ _ => (6, 2 * rest.length + 1)
  | .checkpointTurns rest _ _ => (6, 2 * rest.length)
  | .putEvent _ rest _ => (5, 2 * rest.length + 1)
  | .checkpointEvents rest _ => (5, 2 * rest.length)
  | .writeCopied _ => (4, 0)
  | .writeReady _ => (3, 0)
  | .register => (2, 0)

abbrev Closer : Nat × Nat → Nat × Nat → Prop := Prod.Lex (· < ·) (· < ·)

theorem closer_of_phase (hcloser : Closer x (phase, calls)) (hphase : phase < phase') :
    Closer x (phase', calls') := by
  refine lex_def.mpr (.inl ?_)
  rcases lex_def.mp hcloser with hlt | ⟨heq, -⟩
  · exact hlt.trans hphase
  · exact heq.trans_lt hphase

theorem closer_of_calls (hcloser : Closer x (phase, calls)) (hcalls : calls ≤ calls') :
    Closer x (phase, calls') := by
  rcases lex_def.mp hcloser with hlt | ⟨heq, hless⟩
  · exact lex_def.mpr (.inl hlt)
  · exact lex_def.mpr (.inr ⟨heq, hless.trans_le hcalls⟩)

theorem closer_copyEvents (n m : Nat) (now : String) (c : ControlRecord) (events : List Event) :
    Closer (callsLeft n m (copyEvents now c events)) (5, 2 * events.length) := by
  induction events with
  | nil => exact .left _ _ (by decide)
  | cons _ _ ih =>
    rw [length_cons]
    unfold copyEvents
    split
    · exact closer_of_calls ih (by omega)
    · exact .right _ (by omega)

theorem closer_copyTurns (n m : Nat) (now : String) (c : ControlRecord) (events : List Event)
    (turns : List TurnRecord) :
    Closer (callsLeft n m (copyTurns now c events turns)) (6, 2 * turns.length) := by
  induction turns with
  | nil => exact closer_of_phase (closer_copyEvents n m now c events) (by decide)
  | cons _ _ ih =>
    rw [length_cons]
    unfold copyTurns
    split
    · exact closer_of_calls ih (by omega)
    · exact .right _ (by omega)

theorem forkBoundary_of_completed {turnID : String} {turns : List TurnRecord} {events : List Event}
    {e : Event} (ht : t ∈ turns) (hturnID : t.turnID = turnID) (he : e ∈ events)
    (hcompleted : e.turnID = turnID ∧ e.type = "turn.completed")
    (hpos : ∀ e ∈ events, 1 ≤ e.seq) : ∃ b, forkBoundary turnID turns events = .ok b := by
  unfold forkBoundary
  cases hfind : turns.find? fun turn => turn.turnID = turnID with
  | none =>
    have hnot := find?_eq_none.mp hfind t ht
    rw [decide_eq_true_eq] at hnot
    exact absurd hturnID hnot
  | some =>
    have hseq : completedSeq turnID events ≠ 0 := by
      rcases foldl_completed turnID events 0 with ⟨-, hnone⟩ | ⟨e', he', -, hseq'⟩
      · exact absurd hcompleted (hnone e he)
      have hpos' := hpos e' he'
      intro hzero
      unfold completedSeq at hzero
      omega
    dsimp only
    rw [if_neg hseq]
    exact ⟨_, rfl⟩

/-- In an undisturbed attempt the source stays, and it is prepared for what comes next. -/
structure Undisturbed (registry : Registry) (req : ForkRequest) (n m : Nat) (p : ForkPc) (w : World) :
    Prop where
  between : req.Between w
  during : req.During registry p w
  turns : (w.turns req.sourceSessionCtxID).Complete TurnRecord.turnIndex n
  events : (w.events req.sourceSessionCtxID).Complete Event.seq m
  prepared : req.Prepared registry n p w

theorem source_advance (hduring : req.During registry p w) :
    (req.advance registry p w).1.turns req.sourceSessionCtxID = w.turns req.sourceSessionCtxID ∧
      (req.advance registry p w).1.events req.sourceSessionCtxID =
        w.events req.sourceSessionCtxID := by
  cases p with
  | putTurn => exact ⟨putTurn_turns_of_ne hduring.1.progress.ne, rfl⟩
  | putEvent =>
    obtain ⟨⟨i, hloop⟩, -⟩ := hduring
    exact ⟨rfl, putEvent_events_of_ne hloop.progress.ne⟩
  | _ => exact ⟨rfl, rfl⟩

theorem Undisturbed.next (h : req.Undisturbed registry n m p w)
    (hgoto : (req.advance registry p w).2 = .goto p')
    (hprepared : req.Prepared registry n p' (req.advance registry p w).1) :
    req.Undisturbed registry n m p' (req.advance registry p w).1 := by
  obtain ⟨hbetween, hduring⟩ := advance_kept h.between h.during
  obtain ⟨hturns, hevents⟩ := source_advance h.during
  refine ⟨hbetween, hduring p' hgoto, ?_, ?_, hprepared⟩
  · rw [hturns]
    exact h.turns
  · rw [hevents]
    exact h.events

theorem Possible.absent (h : req.Possible registry w) (hnone : w.controls req.targetSessionCtxID = none) :
    w.turns req.targetSessionCtxID 1 = none ∧ w.events req.targetSessionCtxID 1 = none ∧
      (registry.looksUp = true → w.registered req.targetSessionCtxID = false) := by
  rcases h.target with hfork | ⟨-, habsent⟩
  · rw [ofThisFork_of_none hnone] at hfork
    cases hfork
  · exact habsent

theorem prepared_copyEvents (registry : Registry) (req : ForkRequest) (n : Nat) (w : World) (now : String)
    (c : ControlRecord) (events : List Event) : req.Prepared registry n (copyEvents now c events) w := by
  induction events with
  | nil => trivial
  | cons _ _ ih =>
    unfold copyEvents
    split
    · exact ih
    · trivial

theorem prepared_copyTurns (registry : Registry) (req : ForkRequest) (n : Nat) (w : World)
    (now : String) (c : ControlRecord) (events : List Event) (turns : List TurnRecord) :
    req.Prepared registry n (copyTurns now c events turns) w := by
  induction turns with
  | nil => exact prepared_copyEvents registry req n w now c events
  | cons _ _ ih =>
    unfold copyTurns
    split
    · exact ih
    · trivial

/-- An attempt that cannot be held up returns success, or goes on to a point closer to its end. -/
def GoesOn (registry : Registry) (req : ForkRequest) (n m : Nat) (p : ForkPc) (w : World) : Prop :=
  (∃ r, (req.advance registry p w).2 = .done r ∧ r = .ok req.response) ∨
    ∃ p', (req.advance registry p w).2 = .goto p' ∧
      req.Undisturbed registry n m p' (req.advance registry p w).1 ∧
      Closer (callsLeft n m p') (callsLeft n m p)

section GoesOn

variable {n m : Nat}

theorem Undisturbed.goesOn (h : req.Undisturbed registry n m p w)
    (hgoto : (req.advance registry p w).2 = .goto q)
    (hprepared : req.Prepared registry n q (req.advance registry p w).1)
    (hcloser : Closer (callsLeft n m q) (callsLeft n m p)) : req.GoesOn registry n m p w :=
  .inr ⟨q, hgoto, h.next hgoto hprepared, hcloser⟩

variable {turns : List TurnRecord}

theorem goesOn_readTurns (h : req.Undisturbed registry n m (.readTurns turns) w) :
    req.GoesOn registry n m (.readTurns turns) w := by
  have hpossible : req.Possible registry w := h.prepared
  cases hturn : w.turns req.sourceSessionCtxID (turns.length + 1) with
  | some turn =>
    have hbounds := h.turns.bounds hturn
    refine h.goesOn (q := .readTurns (turns ++ [turn])) ?_ hpossible ?_
    · simp only [advance, hturn]
    refine .right _ ?_
    simp only [length_append, length_singleton]
    omega
  | none =>
    refine h.goesOn (q := .readEvents turns []) ?_
      ⟨Log.Follows.length_eq h.during h.turns hturn, hpossible⟩ (.left _ _ (by decide))
    simp only [advance, hturn]

section

variable {events : List Event} (h : req.Undisturbed registry n m (.readEvents turns events) w)
include h

theorem forkBoundary_of_undisturbed (hend : w.events req.sourceSessionCtxID (events.length + 1) = none) :
    ∃ b, forkBoundary req.turnID turns events = .ok b := by
  obtain ⟨hturns, hevents, -⟩ := h.during
  obtain ⟨hlength, hpossible⟩ := h.prepared
  obtain ⟨i, t, ht, hturnID⟩ := hpossible.turn
  obtain ⟨j, e, he, hcompleted⟩ := hpossible.event
  refine forkBoundary_of_completed (hturns.mem_of_complete h.turns hlength ht) hturnID
    (hevents.mem_of_complete h.events (hevents.length_eq h.events hend) he) hcompleted ?_
  intro e' he'
  obtain ⟨k, hk, hpos, -⟩ := hevents.mem he'
  rw [h.events.numbered k e' hk]
  exact hpos

theorem goesOn_readEvents : req.GoesOn registry n m (.readEvents turns events) w := by
  cases hevent : w.events req.sourceSessionCtxID (events.length + 1) with
  | some event =>
    have hbounds := h.events.bounds hevent
    refine h.goesOn (q := .readEvents turns (events ++ [event])) ?_ h.prepared ?_
    · simp only [advance, hevent]
    refine .right _ ?_
    simp only [length_append, length_singleton]
    omega
  | none =>
    obtain ⟨⟨i, j⟩, hboundary⟩ := forkBoundary_of_undisturbed h hevent
    refine h.goesOn (q := .readTargetControl ⟨turns, events, i, j⟩) ?_ h.prepared.2 (.left _ _ (by decide))
    simp only [advance, afterHistory, hevent, hboundary]

end

theorem goesOn_readTargetControl (h : req.Undisturbed registry n m (.readTargetControl job) w) :
    req.GoesOn registry n m (.readTargetControl job) w := by
  have hpossible : req.Possible registry w := h.prepared
  cases hcontrol : w.controls req.targetSessionCtxID with
  | none =>
    by_cases hlooksUp : registry.looksUp = true
    · refine h.goesOn (q := .lookUp job) ?_ hpossible (.left _ _ (by decide))
      simp [advance, afterTargetControl, hcontrol, hlooksUp]
    · refine h.goesOn (q := .readFirstTurn job) ?_ hpossible (.left _ _ (by decide))
      simp [advance, afterTargetControl, hcontrol, hlooksUp]
  | some c =>
    have hsame : req.sameFork c = true := by
      rcases hpossible.target with hfork | ⟨hnone, -⟩
      · unfold ofThisFork at hfork
        rwa [hcontrol] at hfork
      · rw [hcontrol] at hnone
        cases hnone
    by_cases hready : c.state = .ready
    · left
      refine ⟨_, ?_, rfl⟩
      simp [advance, afterTargetControl, hcontrol, hsame, hready]
    · refine h.goesOn (q := copyTurns w.now c job.events job.turns) ?_
        (prepared_copyTurns ..) (closer_of_phase (closer_copyTurns ..) (by decide))
      simp [advance, afterTargetControl, hcontrol, hsame, hready]

theorem goesOn (h : req.Undisturbed registry n m p w) : req.GoesOn registry n m p w := by
  cases p with
  | readSourceControl =>
    have hpossible : req.Possible registry w := h.prepared
    refine h.goesOn (q := .readTurns []) ?_ hpossible (.left _ _ (by decide))
    cases hcontrol : w.controls req.sourceSessionCtxID with
    | none => simp only [advance, afterSourceControl, hcontrol]
    | some c =>
      simp only [advance, afterSourceControl, hcontrol]
      rw [if_neg (hpossible.notDeleting c hcontrol)]
  | readTurns => exact goesOn_readTurns h
  | readEvents => exact goesOn_readEvents h
  | readTargetControl => exact goesOn_readTargetControl h
  | lookUp job =>
    have hpossible : req.Possible registry w := h.prepared
    refine h.goesOn (q := .readFirstTurn job) ?_ hpossible (.left _ _ (by decide))
    obtain ⟨-, hcontrol, hlooksUp⟩ := h.during
    simp [advance, (hpossible.absent hcontrol).2.2 hlooksUp]
  | readFirstTurn job =>
    have hpossible : req.Possible registry w := h.prepared
    refine h.goesOn (q := .readFirstEvent job) ?_ hpossible (.left _ _ (by decide))
    simp [advance, (hpossible.absent h.during.2.1).1]
  | readFirstEvent job =>
    have hpossible : req.Possible registry w := h.prepared
    refine h.goesOn (q := .writeCreating job (req.newControl job w.now)) ?_ trivial (.left _ _ (by decide))
    simp [advance, (hpossible.absent h.during.2.1.1).2.1]
  | writeCreating =>
    exact h.goesOn rfl (prepared_copyTurns ..) (closer_of_phase (closer_copyTurns ..) (by decide))
  | putTurn turn turns events c =>
    by_cases hbatch : turn.turnIndex % copyBatchSize = 0
    · refine h.goesOn (q := .checkpointTurns turns events
        { c with copiedTurn := turn.turnIndex, updatedAt := w.now }) ?_ trivial
        (.right _ (lt_succ_self _))
      simp [advance, hbatch]
    · exact h.goesOn (by simp only [advance, hbatch, if_false]; rfl) (prepared_copyTurns ..)
        (closer_of_calls (closer_copyTurns ..) (le_succ _))
  | checkpointTurns => exact h.goesOn rfl (prepared_copyTurns ..) (closer_copyTurns ..)
  | putEvent event events c =>
    by_cases hbatch : event.seq % copyBatchSize = 0
    · refine h.goesOn (q := .checkpointEvents events
        { c with copiedSeq := event.seq, updatedAt := w.now }) ?_ trivial
        (.right _ (lt_succ_self _))
      simp [advance, hbatch]
    · exact h.goesOn (by simp only [advance, hbatch, if_false]; rfl) (prepared_copyEvents ..)
        (closer_of_calls (closer_copyEvents ..) (le_succ _))
  | checkpointEvents => exact h.goesOn rfl (prepared_copyEvents ..) (closer_copyEvents ..)
  | writeCopied => exact h.goesOn rfl trivial (.left _ _ (by decide))
  | writeReady =>
    by_cases hregisters : registry.registers = true
    · refine h.goesOn (q := .register) ?_ trivial (.left _ _ (by decide))
      simp [advance, hregisters]
    left
    refine ⟨_, ?_, rfl⟩
    simp [advance, hregisters]
  | register => exact .inl ⟨_, rfl, rfl⟩

end GoesOn

theorem exec_of_possible (hreach : (req.system registry).Reachable s) (hidle : s.attempt = none)
    (hpossible : req.Possible registry s.world) :
    ∃ (n : Nat) (s₁ s₂ : Attempts World ForkPc),
      (req.system registry).exec s (.start :: replicate n (.call .answered)) = some s₁ ∧
        (req.system registry).step s₁ (.call .answered) = some (s₂, some (.ok req.response)) := by
  obtain ⟨hbetween, -⟩ := reachable_holds hreach
  obtain ⟨⟨n, hn⟩, m, hm⟩ := hbetween.source
  obtain ⟨r, w', hcompletes, rfl⟩ := (req.operation registry).completes
    (WellFounded.prod_lex wellFounded_lt wellFounded_lt) (callsLeft n m)
    (fun r _ => r = .ok req.response) (fun p w => goesOn) .readSourceControl s.world
    ⟨hbetween, trivial, hn, hm, hpossible⟩
  obtain ⟨k, s₁, hexec, hlast⟩ := hcompletes.exec req.around req.Unforked
  refine ⟨k, s₁, ⟨w', none⟩, ?_, hlast⟩
  have hstart : (req.system registry).step s .start = some (⟨s.world, some .readSourceControl⟩, none) := by
    change (if s.attempt.isNone then some (arrive s.world (entry s.world)) else none) = _
    rw [hidle]
    unfold entry
    rw [hpossible.known]
    rfl
  rw [StepSystem.exec, StepSystem.execIf, if_pos trivial, hstart]
  exact hexec

/-- Whatever fails while the source grows, success leaves an exact copy up to the first boundary,
another's target is not touched, and an attempt without failure succeeds. -/
theorem fork_resumable_exact (registry : Registry) (req : ForkRequest) (s : Attempts World ForkPc)
    (hreach : (req.system registry).Reachable s) :
    (∀ e s' r, (req.system registry).step s e = some (s', some (.ok r)) → req.Forked s'.world) ∧
      (∀ o s' l, (req.system registry).step s (.call o) = some (s', l) →
        req.Independent registry s.world → req.SameTarget s.world s'.world) ∧
      (∀ c, s.world.controls req.targetSessionCtxID = some c → req.sameFork c = true →
        ∀ es s', (req.system registry).exec s es = some s' → req.Stored s'.world c) ∧
      (s.attempt = none → req.Possible registry s.world → ∃ (n : Nat) (s₁ s₂ : Attempts World ForkPc),
          (req.system registry).exec s (.start :: List.replicate n (.call .answered)) = some s₁ ∧
            (req.system registry).step s₁ (.call .answered) = some (s₂, some (.ok req.response))) := by
  obtain ⟨hbetween, hduring⟩ := reachable_holds hreach
  refine ⟨?_, ?_, ?_, exec_of_possible hreach⟩
  · intro e s' r hstep
    have hafter := (reachable_holds (hreach.next trivial hstep)).1
    rcases step_returns (fun p hfailed => by cases hfailed) hstep with
      ⟨-, hentry⟩ | ⟨p, hp, hadvance⟩
    · change entry s.world = _ at hentry
      unfold entry at hentry
      split at hentry <;> cases hentry
    · obtain ⟨c, hc, hsame, hready⟩ := ready_of_done (hduring p hp) hadvance
      obtain ⟨hprogress, hcopied⟩ := hafter.control c hc hsame
      obtain ⟨hturn, hseq⟩ := hcopied hready
      have hturns := hprogress.turns
      have hevents := hprogress.events
      rw [hturn] at hturns
      rw [hseq] at hevents
      exact ⟨c, hc, hsame, hready, hprogress.boundary, hturns.exact hafter.source.1,
        hevents.exact hafter.source.2⟩
  · intro o s' l hstep hindependent
    obtain ⟨p, hp, hcall⟩ := bind_eq_some_iff.mp hstep
    rcases world_of_call hcall with hworld | hworld
    · rw [hworld]
      exact ⟨rfl, rfl, rfl, rfl⟩
    · rw [hworld]
      exact sameTarget_advance hbetween (hduring p hp) hindependent
  · intro c hc hsame es s' hexec
    refine StepSystem.Reachable.exec_invariant (P := fun s => req.Stored s.world c) ?_ hreach
      ⟨c, hc, hsame, rfl, rfl⟩ hexec
    intro s₁ e s₂ l hreach₁ hstored hstep
    exact stored_step hreach₁ hstored hstep

def oneTurn : World where
  functionKnown := true
  now := "10:00"
  turns := Function.update (fun _ _ => none) "source"
    (Function.update (fun _ => none) 1
      (some { sessionContextID := "source", turnIndex := 1, turnID := "turn-1" }))
  events := Function.update (fun _ _ => none) "source"
    (Function.update (fun _ => none) 1
      (some { sessionContextID := "source", turnID := "turn-1", seq := 1, type := "turn.completed" }))
  controls _ := none
  registered _ := false
  instances := []

theorem unforked_oneTurn : (ForkRequest.mk "source" "target" "turn-1").Unforked oneTurn := by
  refine ⟨⟨⟨1, ?_⟩, 1, ?_⟩, ⟨⟨0, ?_⟩, 0, ?_⟩, rfl⟩
  · exact (Log.complete_empty fun _ => rfl).append rfl
  · exact (Log.complete_empty fun _ => rfl).append rfl
  all_goals exact Log.complete_empty fun _ => rfl

theorem fork_resumable_exact_retried : ∃ s s' : Attempts World ForkPc,
      ((ForkRequest.mk "source" "target" "turn-1").system ⟨true, true, true⟩).Reachable s ∧
        ((ForkRequest.mk "source" "target" "turn-1").system ⟨true, true, true⟩).step s
          (.call .answered) = some (s', some (.ok ⟨"target", "DORMANT"⟩)) ∧
        (ForkRequest.mk "source" "target" "turn-1").Forked s'.world := by
  obtain ⟨s, hreach, hs⟩ := StepSystem.reachable_of_run
    ((ForkRequest.mk "source" "target" "turn-1").system ⟨true, true, true⟩)
    (s := ⟨oneTurn, none⟩) ⟨unforked_oneTurn, rfl⟩
    ((.start :: replicate 10 (.call .answered)) ++ [.call .unheard,
      .environment (.appendTurn { sessionContextID := "source", turnIndex := 2, turnID := "turn-2" })] ++
      (.start :: replicate 11 (.call .answered)))
    (fun s => s.attempt = some .register) (by decide)
  have hstep : ((ForkRequest.mk "source" "target" "turn-1").system ⟨true, true, true⟩).step s
      (.call .answered) = some (⟨s.world.register "target", none⟩, some (.ok ⟨"target", "DORMANT"⟩)) := by
    change s.attempt.bind _ = _
    rw [hs]
    rfl
  exact ⟨s, _, hreach, hstep, (fork_resumable_exact _ _ s hreach).1 _ _ _ hstep⟩

end Yuanrong.SessionContextManager.ForkRequest
