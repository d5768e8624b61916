import Yuanrong.SessionContextManager.Delete

/-!
# What a deletion leaves behind

The bounds of a deletion are what was there when the history was read, and the instances are only
stopped after that. As long as none of them writes in between, all records are within the bounds and
the loops work through them from below. What an instance writes in between stays for good.
-/

namespace Yuanrong.SessionContextManager.DeleteRequest

open Option List Bool

section Definitions

variable (req : DeleteRequest)

/-- The attempt is past the end of the turns, or there are bounds from an earlier one. -/
def turnsTaken (s : Attempts World DeletePc) : Bool :=
  req.deleting s.world || match s.attempt with
    | none | some .readControl | some (.readTurns _ _) => false
    | _ => true

def eventsTaken (s : Attempts World DeletePc) : Bool :=
  req.deleting s.world || match s.attempt with
    | none | some .readControl | some (.readTurns _ _) | some (.readEvents _ _ _) => false
    | _ => true

/-- No turn is written once the bound of the turns is taken, and no event once that of the events
is. -/
def writesInTime (s : Attempts World DeletePc) : AttemptEvent Around → Bool
  | .environment (.appendTurn _) => !req.turnsTaken s
  | .environment (.appendEvent _) => !req.eventsTaken s
  | _ => true

def Gone (w : World) : Prop :=
  (∀ i, w.turns req.sessionCtxID i = none) ∧ (∀ i, w.events req.sessionCtxID i = none) ∧
    w.controls req.sessionCtxID = none

structure Between (w : World) : Prop where
  history : req.deleting w = false → w.HasHistory req.sessionCtxID
  bounded : ∀ c, w.controls req.sessionCtxID = some c → c.state = .deleting →
    (w.turns req.sessionCtxID).Within 1 c.deleteTurnUpperBound ∧
      (w.events req.sessionCtxID).Within 1 c.deleteSeqUpperBound

def Deletes (w : World) (c : ControlRecord) : Prop :=
  w.controls req.sessionCtxID = some c ∧ c.state = .deleting

def During : DeletePc → World → Prop
  | .readControl, _ => True
  | .readTurns control turns, w =>
    control = w.controls req.sessionCtxID ∧
      (req.deleting w = false → (w.turns req.sessionCtxID).Follows 0 turns)
  | .readEvents control turns events, w =>
    control = w.controls req.sessionCtxID ∧
      (req.deleting w = false → (w.turns req.sessionCtxID).ReadAll TurnRecord.turnIndex turns ∧
          (w.events req.sessionCtxID).Follows 0 events)
  | .lookUp control turns events, w =>
    control = w.controls req.sessionCtxID ∧
      (req.deleting w = false → (w.turns req.sessionCtxID).ReadAll TurnRecord.turnIndex turns ∧
          (w.events req.sessionCtxID).ReadAll Event.seq events)
  | .writeDeleting c, w =>
    c.state = .deleting ∧ (w.turns req.sessionCtxID).Within 1 c.deleteTurnUpperBound ∧
      (w.events req.sessionCtxID).Within 1 c.deleteSeqUpperBound
  | .listInstances c, w | .deleteInstance _ _ c, w | .listAgain c, w | .checkDeadline c, w =>
    req.Deletes w c
  | .deleteTurn i c, w =>
    req.Deletes w c ∧ (w.turns req.sessionCtxID).Within i c.deleteTurnUpperBound
  | .deleteEvent i c, w =>
    req.Deletes w c ∧ (∀ k, w.turns req.sessionCtxID k = none) ∧
      (w.events req.sessionCtxID).Within i c.deleteSeqUpperBound
  | .unregister, w | .deleteControl, w =>
    (∀ k, w.turns req.sessionCtxID k = none) ∧ ∀ k, w.events req.sessionCtxID k = none

end Definitions

variable {registry : Registry} {req : DeleteRequest} {w : World} {c : ControlRecord}
  {s s' : Attempts World DeletePc} {turns : List TurnRecord} {events : List Event}

theorem Deletes.deleting (h : req.Deletes w c) : req.deleting w = true := by
  unfold DeleteRequest.deleting
  rw [h.1, any_some, h.2]
  rfl

theorem deleting_eq_false (hnot : ∀ c, w.controls req.sessionCtxID = some c → c.state ≠ .deleting) :
    req.deleting w = false := by
  unfold deleting
  cases hcontrol : w.controls req.sessionCtxID with
  | none => rfl
  | some c => exact decide_eq_false (hnot c hcontrol)

theorem Between.of_history (hnot : req.deleting w = false) (hhistory : w.HasHistory req.sessionCtxID) :
    req.Between w where
  history _ := hhistory
  bounded := by
    intro c hc hstate
    have hdeleting : req.deleting w = true := Deletes.deleting ⟨hc, hstate⟩
    rw [hnot] at hdeleting
    cases hdeleting

theorem upperBound_eq {α : Type} {index : α → Nat} {l : Log α} {read : List α}
    (h : l.ReadAll index read) : upperBound index read = read.length := by
  unfold upperBound
  split
  · rename_i record hlast
    exact h.complete.numbered _ _ (h.follows.getLast hlast)
  · rfl

theorem during_writeDeleting (now : String) (control : Option ControlRecord)
    (hturns : (w.turns req.sessionCtxID).ReadAll TurnRecord.turnIndex turns)
    (hevents : (w.events req.sessionCtxID).ReadAll Event.seq events) :
    req.During (.writeDeleting (deletingControl now control turns events)) w := by
  refine ⟨rfl, ?_, ?_⟩
  · simp only [deletingControl]
    rw [upperBound_eq hturns]
    exact hturns.complete.within
  · simp only [deletingControl]
    rw [upperBound_eq hevents]
    exact hevents.complete.within

variable {control : Option ControlRecord}

section

variable (hduring : req.During (.lookUp control turns events) w)
include hduring

theorem during_afterLookUp
    (hgoto : afterLookUp w.now control turns events registered = .goto p) : req.During p w := by
  obtain ⟨rfl, hread⟩ := hduring
  cases hcontrol : w.controls req.sessionCtxID with
  | none =>
    rw [hcontrol] at hgoto
    obtain ⟨hturns, hevents⟩ := hread (deleting_eq_false fun c hc => by
      rw [hcontrol] at hc
      cases hc)
    simp only [afterLookUp] at hgoto
    split at hgoto
    · cases hgoto
    · cases hgoto
      exact during_writeDeleting w.now none hturns hevents
  | some c =>
    rw [hcontrol] at hgoto
    simp only [afterLookUp] at hgoto
    split at hgoto
    · rename_i hstate
      cases hgoto
      obtain ⟨hturns, hevents⟩ := hread (deleting_eq_false fun c' hc' => by
        rw [hcontrol] at hc'
        cases hc'
        exact hstate)
      exact during_writeDeleting w.now (some c) hturns hevents
    · rename_i hstate
      cases hgoto
      exact ⟨hcontrol, not_not.mp hstate⟩

theorem gone_of_afterLookUp (hdone : afterLookUp w.now control turns events registered = .done r) :
    req.Gone w := by
  obtain ⟨rfl, hread⟩ := hduring
  cases hcontrol : w.controls req.sessionCtxID with
  | none =>
    rw [hcontrol] at hdone
    obtain ⟨hturns, hevents⟩ := hread (deleting_eq_false fun c hc => by
      rw [hcontrol] at hc
      cases hc)
    simp only [afterLookUp] at hdone
    split at hdone
    · rename_i hempty
      exact ⟨hturns.eq_none hempty.1, hevents.eq_none hempty.2.1, hcontrol⟩
    · cases hdone
  | some =>
    rw [hcontrol] at hdone
    simp only [afterLookUp] at hdone
    split at hdone <;> cases hdone

end

theorem during_deleteInstances (hdeletes : req.Deletes w c) (instances : List Instance) :
    req.During (req.deleteInstances c instances) w := by
  induction instances with
  | nil => exact hdeletes
  | cons _ _ ih =>
    unfold deleteInstances
    split
    · exact hdeletes
    · exact ih

variable {i : Nat}

theorem during_deleteEvents (hdeletes : req.Deletes w c) (hturns : ∀ k, w.turns req.sessionCtxID k = none)
    (hevents : (w.events req.sessionCtxID).Within i c.deleteSeqUpperBound) :
    req.During (deleteEvents registry c i) w := by
  unfold deleteEvents
  split
  · exact ⟨hdeletes, hturns, hevents⟩
  rename_i hpast
  have hgone := hevents.eq_none (Nat.lt_of_not_le hpast)
  unfold afterEvents
  split <;> exact ⟨hturns, hgone⟩

theorem between_of_deletes (hdeletes : req.Deletes w c)
    (hturns : (w.turns req.sessionCtxID).Within 1 c.deleteTurnUpperBound)
    (hevents : (w.events req.sessionCtxID).Within 1 c.deleteSeqUpperBound) : req.Between w where
  history hnot := by
    rw [hdeletes.deleting] at hnot
    cases hnot
  bounded c' hc' _ := by
    rw [hdeletes.1] at hc'
    cases hc'
    exact ⟨hturns, hevents⟩

theorem between_of_gone (hgone : req.Gone w) : req.Between w where
  history _ := ⟨⟨0, Log.complete_empty hgone.1⟩, 0, Log.complete_empty hgone.2.1⟩
  bounded c hc _ := by
    rw [hgone.2.2] at hc
    cases hc

theorem during_of_goto (hduring : req.During p w)
    (heq : (.goto p : Next DeletePc DeleteResult) = .goto p') : req.During p' w := by
  cases heq
  exact hduring

section

variable (hbetween : req.Between w) (hdeletes : req.Deletes w c)
include hbetween hdeletes

theorem during_deleteTurns (hturns : (w.turns req.sessionCtxID).Within i c.deleteTurnUpperBound) :
    req.During (deleteTurns registry c i) w := by
  unfold deleteTurns
  split
  · exact ⟨hdeletes, hturns⟩
  rename_i hpast
  exact during_deleteEvents hdeletes (hturns.eq_none (Nat.lt_of_not_le hpast))
    (hbetween.bounded c hdeletes.1 hdeletes.2).2

end

theorem during_lookUp (hbetween : req.Between w) (hduring : req.During (.readEvents control turns events) w)
    (hend : w.events req.sessionCtxID (events.length + 1) = none) :
    req.During (.lookUp control turns events) w :=
  ⟨hduring.1, fun hnot => ⟨(hduring.2 hnot).1, (hduring.2 hnot).2.readAll (hbetween.history hnot).2
    hend⟩⟩

theorem advance_kept (hbetween : req.Between w) (hduring : req.During p w) :
    req.Between (req.advance registry p w).1 ∧
      ∀ p', (req.advance registry p w).2 = .goto p' → req.During p' (req.advance registry p w).1 := by
  cases p with
  | readControl =>
    refine ⟨hbetween, fun p' hgoto => ?_⟩
    cases hgoto
    exact ⟨rfl, fun _ => Log.follows_nil _ _⟩
  | readTurns =>
    refine ⟨hbetween, fun p' hgoto => during_of_goto ?_ hgoto⟩
    split
    · rename_i turn hturn
      exact ⟨hduring.1, fun hnot => (hduring.2 hnot).snoc hturn⟩
    rename_i hend
    exact ⟨hduring.1, fun hnot => ⟨(hduring.2 hnot).readAll (hbetween.history hnot).1 hend,
      Log.follows_nil _ _⟩⟩
  | readEvents =>
    refine ⟨hbetween, fun p' hgoto => ?_⟩
    simp only [advance] at hgoto
    split at hgoto
    · rename_i event hevent
      cases hgoto
      exact ⟨hduring.1, fun hnot => ⟨(hduring.2 hnot).1, (hduring.2 hnot).2.snoc hevent⟩⟩
    · rename_i hend
      have hlookUp := during_lookUp hbetween hduring hend
      split at hgoto
      · exact during_of_goto hlookUp hgoto
      · exact during_afterLookUp hlookUp hgoto
  | lookUp => exact ⟨hbetween, fun p' hgoto => during_afterLookUp hduring hgoto⟩
  | writeDeleting c =>
    obtain ⟨hstate, hturns, hevents⟩ := hduring
    have hdeletes : req.Deletes (w.writeControl req.sessionCtxID c) c :=
      ⟨World.writeControl_controls, hstate⟩
    refine ⟨between_of_deletes hdeletes hturns hevents, fun p' hgoto => ?_⟩
    cases hgoto
    exact hdeletes
  | listInstances c | deleteInstance i instances c =>
    exact ⟨hbetween, fun p' hgoto => during_of_goto (during_deleteInstances hduring _) hgoto⟩
  | listAgain c =>
    refine ⟨hbetween, fun p' hgoto => during_of_goto ?_ hgoto⟩
    split
    · exact hduring
    · exact during_deleteTurns hbetween hduring (hbetween.bounded c hduring.1 hduring.2).1
  | checkDeadline =>
    refine ⟨hbetween, fun p' hgoto => ?_⟩
    cases hgoto
    exact hduring
  | deleteTurn i =>
    obtain ⟨hdeletes, hturns⟩ := hduring
    have hleft := World.deleteTurn_turns ▸ hturns.delete
    have hkept : req.Between (w.deleteTurn _ i) :=
      between_of_deletes hdeletes (hleft.mono (Nat.le_add_left 1 _))
      (hbetween.bounded _ hdeletes.1 hdeletes.2).2
    exact ⟨hkept, fun p' hgoto => during_of_goto (during_deleteTurns hkept hdeletes hleft) hgoto⟩
  | deleteEvent i =>
    obtain ⟨hdeletes, hturns, hevents⟩ := hduring
    have hleft := World.deleteEvent_events ▸ hevents.delete
    have hkept : req.Between (w.deleteEvent _ i) := between_of_deletes hdeletes
      (hbetween.bounded _ hdeletes.1 hdeletes.2).1 (hleft.mono (Nat.le_add_left 1 _))
    exact ⟨hkept, fun p' hgoto => during_of_goto (during_deleteEvents hdeletes hturns hleft) hgoto⟩
  | unregister =>
    refine ⟨{ hbetween with }, fun p' hgoto => ?_⟩
    cases hgoto
    exact hduring
  | deleteControl =>
    refine ⟨between_of_gone ⟨hduring.1, hduring.2, World.deleteControl_controls⟩, ?_⟩
    nofun

section

variable (hholds : Operation.Holds req.Between req.During s)
include hholds

theorem holds_appendTurn (hintime : req.turnsTaken s = false)
    (happend : s.world.appendTurn req.sessionCtxID turn = some w') :
    Operation.Holds req.Between req.During ⟨w', s.attempt⟩ := by
  obtain ⟨hbetween, hduring⟩ := hholds
  simp only [turnsTaken, or_eq_false_iff] at hintime
  obtain ⟨hnot, hpoint⟩ := hintime
  have hhistory := (hbetween.history hnot).appendTurn happend
  obtain ⟨hnext, rfl⟩ := World.appendTurn_eq_some.mp happend
  refine ⟨.of_history hnot hhistory, fun p hp => ?_⟩
  have hold := hduring p hp
  rw [hp] at hpoint
  cases p with
  | readControl => trivial
  | readTurns =>
    refine ⟨hold.1, fun _ => ?_⟩
    rw [World.putTurn_turns]
    exact (hold.2 hnot).extend (Log.extends_append hnext)
  | _ => cases hpoint

theorem holds_appendEvent (hintime : req.eventsTaken s = false)
    (happend : s.world.appendEvent req.sessionCtxID event = some w') :
    Operation.Holds req.Between req.During ⟨w', s.attempt⟩ := by
  obtain ⟨hbetween, hduring⟩ := hholds
  simp only [eventsTaken, or_eq_false_iff] at hintime
  obtain ⟨hnot, hpoint⟩ := hintime
  have hhistory := (hbetween.history hnot).appendEvent happend
  obtain ⟨hnext, rfl⟩ := World.appendEvent_eq_some.mp happend
  refine ⟨.of_history hnot hhistory, fun p hp => ?_⟩
  have hold := hduring p hp
  rw [hp] at hpoint
  cases p with
  | readControl => trivial
  | readTurns => exact hold
  | readEvents =>
    refine ⟨hold.1, fun _ => ⟨(hold.2 hnot).1, ?_⟩⟩
    rw [World.putEvent_events]
    exact (hold.2 hnot).2.extend (Log.extends_append hnext)
  | _ => cases hpoint

theorem holds_of_same : Operation.Holds req.Between req.During
      ⟨{ s.world with functionKnown, now, registered, instances }, s.attempt⟩ := by
  refine ⟨{ hholds.1 with }, fun p hp => ?_⟩
  have hold := hholds.2 p hp
  cases p <;> exact hold

theorem holds_around (hintime : req.writesInTime s (.environment e) = true)
    (haround : req.around s.attempt s.world e = some w') :
    Operation.Holds req.Between req.During ⟨w', s.attempt⟩ := by
  cases e with
  | appendTurn =>
    obtain ⟨-, haround⟩ := ite_none_right_eq_some.mp haround
    exact holds_appendTurn hholds (not_eq_true' _ ▸ hintime) haround
  | appendEvent =>
    obtain ⟨-, haround⟩ := ite_none_right_eq_some.mp haround
    exact holds_appendEvent hholds (not_eq_true' _ ▸ hintime) haround
  | exit | clock | setFunctionKnown =>
    cases haround
    exact holds_of_same hholds
  | create instanceID | register =>
    obtain ⟨-, rfl⟩ := ite_some_none_eq_some.mp haround
    exact holds_of_same hholds

end

theorem reach_holds (hreach : (req.system registry).Reach (fun s e => req.writesInTime s e = true) s) :
    Operation.Holds req.Between req.During s := by
  refine Operation.reach_holds ?_ ?_ (fun p w => advance_kept)
    (fun s e w' hintime haround hholds => holds_around hholds hintime haround) hreach
  · rintro w ⟨hhistory, hnot⟩
    exact .of_history hnot hhistory
  intro w p _ hentry
  change entry w = .goto p at hentry
  unfold entry at hentry
  split at hentry
  · cases hentry
    trivial
  · cases hentry

theorem gone_of_done (hbetween : req.Between w) (hduring : req.During p w)
    (hadvance : req.advance registry p w = (w', .done (.ok ()))) : req.Gone w' := by
  cases p with
  | readEvents =>
    simp only [advance, Prod.mk.injEq] at hadvance
    obtain ⟨rfl, hnext⟩ := hadvance
    split at hnext
    · cases hnext
    rename_i hend
    split at hnext
    · cases hnext
    · exact gone_of_afterLookUp (during_lookUp hbetween hduring hend) hnext
  | lookUp =>
    simp only [advance, Prod.mk.injEq] at hadvance
    obtain ⟨rfl, hnext⟩ := hadvance
    exact gone_of_afterLookUp hduring hnext
  | deleteControl =>
    cases hadvance
    exact ⟨hduring.1, hduring.2, World.deleteControl_controls⟩
  | _ => cases hadvance

/-- When no instance writes past what was taken for the end, success has left nothing of the
context. -/
theorem delete_leaves_nothing (registry : Registry) (req : DeleteRequest) (s : Attempts World DeletePc)
    (hreach : (req.system registry).Reach (fun s e => req.writesInTime s e = true) s)
    (e : AttemptEvent Around) (s' : Attempts World DeletePc)
    (hstep : (req.system registry).step s e = some (s', some (.ok ()))) : req.Gone s'.world := by
  obtain ⟨hbetween, hduring⟩ := reach_holds hreach
  have hfailed : ∀ p, (req.operation registry).failed p ≠ some (.ok ()) := by
    intro p hfailed
    cases p <;> cases hfailed
  rcases Operation.step_returns hfailed hstep with ⟨-, hentry⟩ | ⟨p, hp, hadvance⟩
  · change entry s.world = _ at hentry
    unfold entry at hentry
    split at hentry <;> cases hentry
  · exact gone_of_done hbetween (hduring p hp) hadvance

def oneTurn : World where
  functionKnown := true
  now := "10:00"
  turns := Function.update (fun _ _ => none) "context"
    (Function.update (fun _ => none) 1
      (some { sessionContextID := "context", turnIndex := 1, turnID := "turn-1" }))
  events := Function.update (fun _ _ => none) "context"
    (Function.update (fun _ => none) 1
      (some { sessionContextID := "context", turnID := "turn-1", seq := 1, type := "turn.completed" }))
  controls _ := none
  registered _ := true
  instances := [⟨"instance", some "context"⟩]

theorem undeleted_oneTurn : (mk "context").Undeleted oneTurn :=
  ⟨⟨⟨1, (Log.complete_empty fun _ => rfl).append rfl⟩, 1,
    (Log.complete_empty fun _ => rfl).append rfl⟩, rfl⟩

theorem step_deleteControl (registry : Registry) (req : DeleteRequest)
    (hpoint : s.attempt = some .deleteControl) :
    (req.system registry).step s (.call .answered) =
      some (⟨s.world.deleteControl req.sessionCtxID, none⟩, some (.ok ())) := by
  change s.attempt.bind _ = _
  rw [hpoint]
  rfl

theorem delete_leaves_nothing_retried : ∃ s s' : Attempts World DeletePc,
      ((mk "context").system ⟨true, true, true⟩).Reach
          (fun s e => (mk "context").writesInTime s e = true) s ∧
        ((mk "context").system ⟨true, true, true⟩).step s (.call .answered) =
          some (s', some (.ok ())) ∧
        (mk "context").Gone s'.world := by
  obtain ⟨s, hreach, hs⟩ := StepSystem.reach_of_run
    ((mk "context").system ⟨true, true, true⟩) (mk "context").writesInTime
    (s := ⟨oneTurn, none⟩) ⟨undeleted_oneTurn, rfl⟩
    ([.start, .call .answered, .environment (.appendTurn
        { sessionContextID := "context", turnIndex := 2, turnID := "turn-2" })] ++
      replicate 9 (.call .answered) ++
      [.environment (.exit "instance"), .call .answered, .call .unheard, .start] ++
      replicate 11 (.call .answered))
    (fun s => s.attempt = some .deleteControl) (by decide)
  have hstep := step_deleteControl ⟨true, true, true⟩ (mk "context") hs
  exact ⟨s, _, hreach, hstep, delete_leaves_nothing _ _ s hreach _ _ hstep⟩

/-- The instance writes a turn after the turns were read: the deletion succeeds, and the turn
stays. -/
theorem delete_leaves_turn : ∃ s s' : Attempts World DeletePc,
      ((mk "context").system ⟨true, true, true⟩).Reachable s ∧
        ((mk "context").system ⟨true, true, true⟩).step s (.call .answered) =
          some (s', some (.ok ())) ∧
        (s'.world.turns "context" 2).isSome ∧ ¬ (mk "context").Gone s'.world := by
  obtain ⟨s, hreach, hs⟩ := StepSystem.reachable_of_run ((mk "context").system ⟨true, true, true⟩)
    (s := ⟨oneTurn, none⟩) ⟨undeleted_oneTurn, rfl⟩
    (.start :: replicate 6 (.call .answered) ++ [.environment (.appendTurn
        { sessionContextID := "context", turnIndex := 2, turnID := "turn-2" })] ++
      replicate 3 (.call .answered) ++ [.environment (.exit "instance")] ++
      replicate 4 (.call .answered))
    (fun s => s.attempt = some .deleteControl ∧ (s.world.turns "context" 2).isSome) (by decide)
  have hstep := step_deleteControl ⟨true, true, true⟩ (mk "context") hs.1
  refine ⟨s, _, hreach, hstep, hs.2, ?_⟩
  intro hgone
  have hsome : (s.world.turns "context" 2).isSome := hs.2
  have hnone : s.world.turns "context" 2 = none := hgone.1 2
  rw [hnone] at hsome
  cases hsome

end Yuanrong.SessionContextManager.DeleteRequest
