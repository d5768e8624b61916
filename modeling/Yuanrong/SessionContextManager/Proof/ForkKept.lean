import Yuanrong.SessionContextManager.Fork

/-!
# What the attempts of a fork keep

The control record of the target carries the argument. From the moment it is written the target is
the fork's: it holds the source's records up to the cursors and none past the boundary, and the
boundary stays.
-/

namespace Yuanrong.SessionContextManager.ForkRequest

open World ControlRecord Option

section Definitions

variable (registry : Registry) (req : ForkRequest)

/-- The boundary is the fork turn and an event that completes it. -/
structure Boundary (w : World) (forkTurnIndex forkSeq : Nat) : Prop where
  turn : ∃ t, w.turns req.sourceSessionCtxID forkTurnIndex = some t ∧ t.turnID = req.turnID
  event : ∃ e, w.events req.sourceSessionCtxID forkSeq = some e ∧
    e.turnID = req.turnID ∧ e.type = "turn.completed"

/-- The target is as far as the record says, or further. -/
structure Progress (w : World) (c : ControlRecord) : Prop where
  same : req.sameFork c = true
  ne : req.sourceSessionCtxID ≠ req.targetSessionCtxID
  boundary : req.Boundary w c.forkTurnIndex c.forkSeq
  turns : Log.CopiedTo req.turnCopy (w.turns req.sourceSessionCtxID)
    (w.turns req.targetSessionCtxID) c.copiedTurn c.forkTurnIndex
  events : Log.CopiedTo req.eventCopy (w.events req.sourceSessionCtxID)
    (w.events req.targetSessionCtxID) c.copiedSeq c.forkSeq
  copiedTurn_le : c.copiedTurn ≤ c.forkTurnIndex
  copiedSeq_le : c.copiedSeq ≤ c.forkSeq

def Copied (c : ControlRecord) : Prop :=
  c.copiedTurn = c.forkTurnIndex ∧ c.copiedSeq = c.forkSeq

structure Between (w : World) : Prop where
  source : w.HasHistory req.sourceSessionCtxID
  control : ∀ c, w.controls req.targetSessionCtxID = some c → req.sameFork c = true →
    req.Progress w c ∧ (c.state = .ready → Copied c)
  target : req.ofThisFork w = false → w.HasHistory req.targetSessionCtxID

def Stored (w : World) (c : ControlRecord) : Prop :=
  ∃ c', w.controls req.targetSessionCtxID = some c' ∧ req.sameFork c' = true ∧
    c'.forkTurnIndex = c.forkTurnIndex ∧ c'.forkSeq = c.forkSeq

/-- The loops of `copyHistory`, past the turn `i` and the event `j`. -/
structure Loop (w : World) (c : ControlRecord) (i : Nat) (turns : List TurnRecord) (j : Nat)
    (events : List Event) : Prop where
  progress : req.Progress w c
  stored : req.Stored w c
  notReady : c.state ≠ .ready
  turns : Log.Pending (w.turns req.sourceSessionCtxID) c.copiedTurn c.forkTurnIndex i turns
  events : Log.Pending (w.events req.sourceSessionCtxID) c.copiedSeq c.forkSeq j events

/-- The turns read, or the events, reach to the boundary of an earlier attempt. -/
def Covers (w : World) (bound : ControlRecord → Nat) (length : Nat) : Prop :=
  ∀ c, w.controls req.targetSessionCtxID = some c → req.sameFork c = true → bound c ≤ length

/-- What was read is the source's, and the boundary is within it. -/
structure HasRead (w : World) (job : ForkJob) : Prop where
  turns : (w.turns req.sourceSessionCtxID).Follows 0 job.turns
  events : (w.events req.sourceSessionCtxID).Follows 0 job.events
  boundary : req.Boundary w job.forkTurnIndex job.forkSeq
  turn_le : job.forkTurnIndex ≤ job.turns.length
  event_le : job.forkSeq ≤ job.events.length
  coversTurns : req.Covers w forkTurnIndex job.turns.length
  coversEvents : req.Covers w forkSeq job.events.length

/-- The target has no control record, and is not registered as far as the registry was asked. -/
def Unclaimed (w : World) : Prop :=
  w.controls req.targetSessionCtxID = none ∧
    (registry.looksUp = true → w.registered req.targetSessionCtxID = false)

def During : ForkPc → World → Prop
  | .readSourceControl, _ => True
  | .readTurns turns, w => (w.turns req.sourceSessionCtxID).Follows 0 turns
  | .readEvents turns events, w =>
    (w.turns req.sourceSessionCtxID).Follows 0 turns ∧
      (w.events req.sourceSessionCtxID).Follows 0 events ∧
      req.Covers w forkTurnIndex turns.length
  | .readTargetControl job, w => req.HasRead w job
  | .lookUp job, w =>
    req.HasRead w job ∧ w.controls req.targetSessionCtxID = none ∧ registry.looksUp = true
  | .readFirstTurn job, w => req.HasRead w job ∧ req.Unclaimed registry w
  | .readFirstEvent job, w =>
    req.HasRead w job ∧ req.Unclaimed registry w ∧ w.turns req.targetSessionCtxID 1 = none
  | .writeCreating job c, w =>
    req.HasRead w job ∧ req.Unclaimed registry w ∧ w.turns req.targetSessionCtxID 1 = none ∧
      w.events req.targetSessionCtxID 1 = none ∧ ∃ now, c = req.newControl job now
  | .putTurn turn turns events c, w =>
    req.Loop w c c.copiedTurn (turn :: turns) 0 events ∧ c.copiedTurn + 1 ≤ c.forkTurnIndex
  | .checkpointTurns turns events c, w => req.Loop w c c.copiedTurn turns 0 events
  | .putEvent event events c, w =>
    (∃ i, req.Loop w c i [] c.copiedSeq (event :: events)) ∧ c.copiedSeq + 1 ≤ c.forkSeq
  | .checkpointEvents events c, w => ∃ i, req.Loop w c i [] c.copiedSeq events
  | .writeCopied c, w => req.Progress w c ∧ req.Stored w c ∧ Copied c
  | .writeReady c, w => (req.Progress w c ∧ req.Stored w c ∧ Copied c) ∧ c.state = .ready
  | .register, w =>
    ∃ c, w.controls req.targetSessionCtxID = some c ∧ req.sameFork c = true ∧ c.state = .ready

end Definitions

variable {registry : Registry} {req : ForkRequest} {w w' : World} {c : ControlRecord}
  {i j : Nat} {turns : List TurnRecord} {events : List Event}

/-! ### The boundary that an attempt finds -/

theorem foldl_completed (turnID : String) (events : List Event) (init : Nat) :
    let seq := events.foldl (fun forkSeq event =>
      if event.turnID = turnID ∧ event.type = "turn.completed" then event.seq else forkSeq) init
    seq = init ∧ (∀ e ∈ events, ¬ (e.turnID = turnID ∧ e.type = "turn.completed")) ∨
      ∃ e ∈ events, (e.turnID = turnID ∧ e.type = "turn.completed") ∧ e.seq = seq := by
  induction events generalizing init with
  | nil => exact Or.inl ⟨rfl, fun e he => by cases he⟩
  | cons event _ ih =>
    rw [List.foldl_cons]
    rcases ih (if event.turnID = turnID ∧ event.type = "turn.completed" then event.seq else init)
      with ⟨heq, hnone⟩ | ⟨e, he, hcompleted, hseq⟩
    · by_cases hevent : event.turnID = turnID ∧ event.type = "turn.completed"
      · right
        refine ⟨event, List.mem_cons_self, hevent, ?_⟩
        rw [if_pos hevent] at heq ⊢
        exact heq.symm
      · left
        rw [if_neg hevent] at heq ⊢
        refine ⟨heq, ?_⟩
        intro e he
        rcases List.mem_cons.mp he with rfl | he
        · exact hevent
        · exact hnone e he
    · exact Or.inr ⟨e, List.mem_cons_of_mem _ he, hcompleted, hseq⟩

theorem hasRead_of_forkBoundary (hsource : w.HasHistory req.sourceSessionCtxID)
    (hturns : (w.turns req.sourceSessionCtxID).Follows 0 turns)
    (hevents : (w.events req.sourceSessionCtxID).Follows 0 events)
    (hcoversTurns : req.Covers w forkTurnIndex turns.length)
    (hcoversEvents : req.Covers w forkSeq events.length)
    (hboundary : forkBoundary req.turnID turns events = .ok (i, j)) :
    req.HasRead w ⟨turns, events, i, j⟩ := by
  obtain ⟨⟨n, hn⟩, m, hm⟩ := hsource
  unfold forkBoundary at hboundary
  cases hfind : turns.find? fun turn => turn.turnID = req.turnID with
  | none =>
    rw [hfind] at hboundary
    cases hboundary
  | some turn =>
    rw [hfind] at hboundary
    dsimp only at hboundary
    split at hboundary
    · cases hboundary
    rename_i hcompleted
    cases hboundary
    obtain ⟨k, hk, -, hkle⟩ := hturns.mem (List.mem_of_find?_eq_some hfind)
    have hturnID : turn.turnID = req.turnID := by
      have hp := List.find?_some hfind
      simpa using hp
    rcases foldl_completed req.turnID events 0 with ⟨hzero, -⟩ | ⟨e, he, hmatch, hseq⟩
    · exact absurd hzero hcompleted
    obtain ⟨l, hl, -, hlle⟩ := hevents.mem he
    have hindex := hn.numbered k turn hk
    have hseq' : completedSeq req.turnID events = l := hseq.symm.trans (hm.numbered l e hl)
    refine ⟨hturns, hevents, ⟨⟨turn, ?_, hturnID⟩, e, ?_, hmatch⟩, ?_, ?_, hcoversTurns, hcoversEvents⟩
    · rw [hindex]
      exact hk
    · rw [hseq']
      exact hl
    · rw [hindex]
      exact hkle
    · rw [hseq']
      exact hlle

/-! ### The source grows -/

structure Grown (req : ForkRequest) (w w' : World) : Prop where
  source : w'.HasHistory req.sourceSessionCtxID
  turns : (w.turns req.sourceSessionCtxID).Extends (w'.turns req.sourceSessionCtxID)
  events : (w.events req.sourceSessionCtxID).Extends (w'.events req.sourceSessionCtxID)
  targetTurns : req.sourceSessionCtxID ≠ req.targetSessionCtxID →
    w'.turns req.targetSessionCtxID = w.turns req.targetSessionCtxID
  targetEvents : req.sourceSessionCtxID ≠ req.targetSessionCtxID →
    w'.events req.targetSessionCtxID = w.events req.targetSessionCtxID
  controls : w'.controls = w.controls
  registered : w'.registered = w.registered

theorem HasRead.ne (h : req.HasRead w job) (hsource : w.HasHistory req.sourceSessionCtxID)
    (hfirst : w.turns req.targetSessionCtxID 1 = none) : req.sourceSessionCtxID ≠ req.targetSessionCtxID := by
  intro heq
  obtain ⟨t, ht, -⟩ := h.boundary.turn
  have hsome := hsource.1.first_isSome ht
  rw [heq, hfirst] at hsome
  cases hsome

variable {p : ForkPc}

section

variable (hgrown : req.Grown w w')
include hgrown

theorem Boundary.grown (h : req.Boundary w i j) : req.Boundary w' i j := by
  obtain ⟨t, ht, hturnID⟩ := h.turn
  obtain ⟨e, he, hevent⟩ := h.event
  exact ⟨⟨t, hgrown.turns _ t ht, hturnID⟩, e, hgrown.events _ e he, hevent⟩

theorem Progress.grown (h : req.Progress w c) : req.Progress w' c :=
  { h with
    boundary := h.boundary.grown hgrown
    turns := by
      rw [hgrown.targetTurns h.ne]
      exact h.turns.extend hgrown.turns
    events := by
      rw [hgrown.targetEvents h.ne]
      exact h.events.extend hgrown.events }

theorem Stored.grown (h : req.Stored w c) : req.Stored w' c := by
  obtain ⟨c', hc', hrest⟩ := h
  refine ⟨c', ?_, hrest⟩
  rw [hgrown.controls]
  exact hc'

theorem Loop.grown (h : req.Loop w c i turns j events) : req.Loop w' c i turns j events where
  progress := h.progress.grown hgrown
  stored := h.stored.grown hgrown
  notReady := h.notReady
  turns := h.turns.extend hgrown.turns
  events := h.events.extend hgrown.events

theorem Covers.grown (h : req.Covers w bound length) : req.Covers w' bound length := by
  unfold Covers
  rw [hgrown.controls]
  exact h

theorem HasRead.grown (h : req.HasRead w job) : req.HasRead w' job :=
  { h with
    turns := h.turns.extend hgrown.turns
    events := h.events.extend hgrown.events
    boundary := h.boundary.grown hgrown
    coversTurns := h.coversTurns.grown hgrown
    coversEvents := h.coversEvents.grown hgrown }

theorem Unclaimed.grown (h : req.Unclaimed registry w) : req.Unclaimed registry w' := by
  unfold Unclaimed
  rw [hgrown.controls, hgrown.registered]
  exact h

theorem Between.grown (h : req.Between w) : req.Between w' where
  source := hgrown.source
  control c hc hsame := by
    rw [hgrown.controls] at hc
    obtain ⟨hprogress, hready⟩ := h.control c hc hsame
    exact ⟨hprogress.grown hgrown, hready⟩
  target hfork := by
    by_cases heq : req.sourceSessionCtxID = req.targetSessionCtxID
    · rw [← heq]
      exact hgrown.source
    have hold : req.ofThisFork w = false := by
      unfold ofThisFork at hfork ⊢
      rwa [hgrown.controls] at hfork
    unfold World.HasHistory
    rw [hgrown.targetTurns heq, hgrown.targetEvents heq]
    exact h.target hold

theorem during_grown (h : req.During registry p w) (hbetween : req.Between w) : req.During registry p w' := by
  cases p with
  | readSourceControl => trivial
  | readTurns turns => exact Log.Follows.extend h hgrown.turns
  | readEvents turns events => exact ⟨h.1.extend hgrown.turns, h.2.1.extend hgrown.events, h.2.2.grown hgrown⟩
  | readTargetControl => exact HasRead.grown hgrown h
  | lookUp =>
    refine ⟨h.1.grown hgrown, ?_⟩
    rw [hgrown.controls]
    exact h.2
  | readFirstTurn => exact ⟨h.1.grown hgrown, h.2.grown hgrown⟩
  | readFirstEvent =>
    obtain ⟨hread, hunclaimed, hfirst⟩ := h
    refine ⟨hread.grown hgrown, hunclaimed.grown hgrown, ?_⟩
    rw [hgrown.targetTurns (hread.ne hbetween.source hfirst)]
    exact hfirst
  | writeCreating =>
    obtain ⟨hread, hunclaimed, hfirst, hfirstEvent, hnew⟩ := h
    have hne := hread.ne hbetween.source hfirst
    refine ⟨hread.grown hgrown, hunclaimed.grown hgrown, ?_, ?_, hnew⟩
    · rw [hgrown.targetTurns hne]
      exact hfirst
    · rw [hgrown.targetEvents hne]
      exact hfirstEvent
  | putTurn => exact ⟨h.1.grown hgrown, h.2⟩
  | checkpointTurns => exact Loop.grown hgrown h
  | putEvent =>
    obtain ⟨⟨i, hloop⟩, hle⟩ := h
    exact ⟨⟨i, hloop.grown hgrown⟩, hle⟩
  | checkpointEvents =>
    obtain ⟨i, hloop⟩ := h
    exact ⟨i, hloop.grown hgrown⟩
  | writeCopied => exact ⟨h.1.grown hgrown, h.2.1.grown hgrown, h.2.2⟩
  | writeReady => exact ⟨⟨h.1.1.grown hgrown, h.1.2.1.grown hgrown, h.1.2.2⟩, h.2⟩
  | register =>
    obtain ⟨c, hc, hrest⟩ := h
    refine ⟨c, ?_, hrest⟩
    rw [hgrown.controls]
    exact hc

end

/-! ### The loops -/

theorem Progress.others (h : req.Progress w c) {controls : String → Option ControlRecord}
    {registered : String → Bool} : req.Progress { w with controls, registered } c :=
  { h with boundary := { h.boundary with } }

theorem Progress.touch (h : req.Progress w c) (state : ControlState) (now : String) :
    req.Progress w { c with state, updatedAt := now } :=
  { h with }

theorem Stored.ofThisFork (h : req.Stored w c) : req.ofThisFork w = true := by
  obtain ⟨c', hc', hsame, -⟩ := h
  unfold ForkRequest.ofThisFork
  rw [hc']
  exact hsame

theorem Loop.touch (h : req.Loop w c i turns j events) (now : String) :
    req.Loop w { c with updatedAt := now } i turns j events :=
  { h with progress := h.progress.touch c.state now }

theorem during_copyEvents (hsource : w.HasHistory req.sourceSessionCtxID) (now : String)
    (hloop : req.Loop w c i [] j events) : req.During registry (copyEvents now c events) w := by
  obtain ⟨-, m, hm⟩ := hsource
  induction events generalizing j with
  | nil => exact ⟨hloop.progress.touch c.state now, hloop.stored, hloop.turns.finished,
      hloop.events.finished⟩
  | cons event events ih =>
    have hseq : event.seq = j + 1 := hm.numbered _ _ hloop.events.record
    unfold copyEvents
    rw [hseq]
    split
    · rename_i hskip
      exact ih { hloop with events := hloop.events.skip hskip }
    rename_i hcopy
    have hcursor := hloop.events.eq_cursor hcopy
    subst hcursor
    exact ⟨⟨i, hloop⟩, by omega⟩

theorem during_copyTurns (hsource : w.HasHistory req.sourceSessionCtxID) (now : String)
    (hloop : req.Loop w c i turns 0 events) : req.During registry (copyTurns now c events turns) w := by
  obtain ⟨n, hn⟩ := hsource.1
  induction turns generalizing i with
  | nil => exact during_copyEvents hsource now hloop
  | cons turn turns ih =>
    have hindex : turn.turnIndex = i + 1 := hn.numbered _ _ hloop.turns.record
    unfold copyTurns
    rw [hindex]
    split
    · rename_i hskip
      exact ih { hloop with turns := hloop.turns.skip hskip }
    rename_i hcopy
    have hcursor := hloop.turns.eq_cursor hcopy
    subst hcursor
    exact ⟨hloop, by omega⟩

/-! ### The calls that change the target -/

theorem between_writeControl (hbetween : req.Between w) (hprogress : req.Progress w c)
    (hready : c.state = .ready → Copied c) : req.Between (w.writeControl req.targetSessionCtxID c) where
  source := hbetween.source
  control c' hc' _ := by
    rw [writeControl_controls] at hc'
    cases hc'
    exact ⟨hprogress.others, hready⟩
  target hfork := by
    unfold ofThisFork at hfork
    rw [writeControl_controls, any_some, hprogress.same] at hfork
    cases hfork

theorem stored_writeControl (hsame : req.sameFork c = true) :
    req.Stored (w.writeControl req.targetSessionCtxID c) c :=
  ⟨c, writeControl_controls, hsame, rfl, rfl⟩

theorem Loop.writeControl (h : req.Loop w c i turns j events) :
    req.Loop (w.writeControl req.targetSessionCtxID c) c i turns j events :=
  { h with
    progress := h.progress.others
    stored := stored_writeControl h.progress.same }

theorem Between.put (hbetween : req.Between w) (hstored : req.Stored w c)
    (hsource : w'.HasHistory req.sourceSessionCtxID) (hcontrols : w'.controls = w.controls)
    (hprogress : ∀ c', req.Progress w c' → c'.forkTurnIndex = c.forkTurnIndex →
      c'.forkSeq = c.forkSeq → req.Progress w' c') : req.Between w' where
  source := hsource
  control c₁ hc₁ hsame := by
    rw [hcontrols] at hc₁
    obtain ⟨hold, hready⟩ := hbetween.control c₁ hc₁ hsame
    obtain ⟨c', hc', -, hturn, hseq⟩ := hstored
    rw [hc₁] at hc'
    cases hc'
    exact ⟨hprogress c₁ hold hturn hseq, hready⟩
  target hfork := by
    have hthis := hstored.ofThisFork
    unfold ofThisFork at hfork hthis
    rw [hcontrols, hthis] at hfork
    cases hfork

variable {turn : TurnRecord}

theorem Progress.putTurn (h : req.Progress w c) (hturn : w.turns req.sourceSessionCtxID i = some turn)
    (hle : i ≤ c.forkTurnIndex) : req.Progress (w.putTurn req.targetSessionCtxID i (req.turnCopy turn)) c :=
  { h with
    boundary := by
      refine ⟨?_, h.boundary.event⟩
      rw [putTurn_turns_of_ne h.ne]
      exact h.boundary.turn
    turns := by
      rw [putTurn_turns_of_ne h.ne, putTurn_turns]
      exact h.turns.put hturn hle }

theorem Loop.putTurn (h : req.Loop w c c.copiedTurn (turn :: turns) 0 events)
    (hle : c.copiedTurn + 1 ≤ c.forkTurnIndex) :
    req.Loop (w.putTurn req.targetSessionCtxID (c.copiedTurn + 1) (req.turnCopy turn))
      { c with copiedTurn := c.copiedTurn + 1 } (c.copiedTurn + 1) turns 0 events :=
  { h with
    progress := by
      have hprogress := h.progress.putTurn h.turns.record hle
      refine { hprogress with turns := ?_, copiedTurn_le := hle }
      rw [putTurn_turns_of_ne h.progress.ne, putTurn_turns]
      exact h.progress.turns.advance h.turns.record hle
    turns := by
      rw [putTurn_turns_of_ne h.progress.ne]
      exact h.turns.advance hle }

variable {event : Event}

theorem Progress.putEvent (h : req.Progress w c) (hevent : w.events req.sourceSessionCtxID j = some event)
    (hle : j ≤ c.forkSeq) : req.Progress (w.putEvent req.targetSessionCtxID j (req.eventCopy event)) c :=
  { h with
    boundary := by
      refine ⟨h.boundary.turn, ?_⟩
      rw [putEvent_events_of_ne h.ne]
      exact h.boundary.event
    events := by
      rw [putEvent_events_of_ne h.ne, putEvent_events]
      exact h.events.put hevent hle }

theorem Loop.putEvent (h : req.Loop w c i [] c.copiedSeq (event :: events))
    (hle : c.copiedSeq + 1 ≤ c.forkSeq) :
    req.Loop (w.putEvent req.targetSessionCtxID (c.copiedSeq + 1) (req.eventCopy event))
      { c with copiedSeq := c.copiedSeq + 1 } i [] (c.copiedSeq + 1) events :=
  { h with
    progress := by
      have hprogress := h.progress.putEvent h.events.record hle
      refine { hprogress with events := ?_, copiedSeq_le := hle }
      rw [putEvent_events_of_ne h.progress.ne, putEvent_events]
      exact h.progress.events.advance h.events.record hle
    events := by
      rw [putEvent_events_of_ne h.progress.ne]
      exact h.events.advance hle }

/-! ### Every call keeps it -/

theorem ofThisFork_of_none (hnone : w.controls req.targetSessionCtxID = none) : req.ofThisFork w = false := by
  unfold ofThisFork
  rw [hnone]
  rfl

section

variable (hbetween : req.Between w) (hnone : w.controls req.targetSessionCtxID = none)
  (hturn : w.turns req.targetSessionCtxID 1 = none) (hevent : w.events req.targetSessionCtxID 1 = none)
include hbetween hnone hturn hevent

theorem target_empty : (∀ i, w.turns req.targetSessionCtxID i = none) ∧
      ∀ i, w.events req.targetSessionCtxID i = none := by
  obtain ⟨hturns, hevents⟩ := hbetween.target (ofThisFork_of_none hnone)
  exact ⟨hturns.eq_none hturn, hevents.eq_none hevent⟩

theorem progress_newControl (hread : req.HasRead w job) (now : String) :
    req.Progress w (req.newControl job now) := by
  obtain ⟨hturns, hevents⟩ := target_empty hbetween hnone hturn hevent
  refine ⟨?_, hread.ne hbetween.source hturn, hread.boundary, Log.copiedTo_empty hturns,
    Log.copiedTo_empty hevents, Nat.zero_le _, Nat.zero_le _⟩
  simp [sameFork, newControl]

end

theorem kept_of_read {next : Next ForkPc ForkResult} (hbetween : req.Between w)
    (hgoto : ∀ p, next = .goto p → req.During registry p w) :
    req.Between (w, next).1 ∧ ∀ p, (w, next).2 = .goto p → req.During registry p (w, next).1 :=
  ⟨hbetween, hgoto⟩

theorem during_of_goto (hduring : req.During registry p w)
    (heq : (.goto p : Next ForkPc ForkResult) = .goto p') : req.During registry p' w := by
  cases heq
  exact hduring

section

variable (hbetween : req.Between w)
include hbetween

theorem during_afterTargetControl (hread : req.HasRead w job)
    (hgoto : req.afterTargetControl registry w.now job (w.controls req.targetSessionCtxID) = .goto p) :
    req.During registry p w := by
  cases hcontrol : w.controls req.targetSessionCtxID with
  | none =>
    rw [hcontrol] at hgoto
    cases hgoto
    split
    · rename_i hlooksUp
      exact ⟨hread, hcontrol, hlooksUp⟩
    · rename_i hlooksUp
      exact ⟨hread, hcontrol, fun h => absurd h hlooksUp⟩
  | some c =>
    rw [hcontrol] at hgoto
    simp only [afterTargetControl] at hgoto
    split at hgoto
    · cases hgoto
    rename_i hsame
    split at hgoto
    · cases hgoto
    rename_i hnotReady
    cases hgoto
    simp only [Bool.not_eq_false] at hsame
    obtain ⟨hprogress, -⟩ := hbetween.control c hcontrol hsame
    have hturn := hread.coversTurns c hcontrol hsame
    have hseq := hread.coversEvents c hcontrol hsame
    exact during_copyTurns hbetween.source _ ⟨hprogress, ⟨c, hcontrol, hsame, rfl, rfl⟩, hnotReady,
      ⟨hread.turns, by omega, hprogress.copiedTurn_le, by omega⟩,
      ⟨hread.events, by omega, hprogress.copiedSeq_le, by omega⟩⟩

theorem covers_turns (hturns : (w.turns req.sourceSessionCtxID).Follows 0 turns)
    (hend : w.turns req.sourceSessionCtxID (turns.length + 1) = none) :
    req.Covers w forkTurnIndex turns.length := by
  intro c hc hsame
  obtain ⟨n, hn⟩ := hbetween.source.1
  obtain ⟨t, ht, -⟩ := (hbetween.control c hc hsame).1.boundary.turn
  rw [hturns.length_eq hn hend]
  exact (hn.bounds ht).2

theorem covers_events (hevents : (w.events req.sourceSessionCtxID).Follows 0 events)
    (hend : w.events req.sourceSessionCtxID (events.length + 1) = none) :
    req.Covers w forkSeq events.length := by
  intro c hc hsame
  obtain ⟨n, hn⟩ := hbetween.source.2
  obtain ⟨e, he, -⟩ := (hbetween.control c hc hsame).1.boundary.event
  rw [hevents.length_eq hn hend]
  exact (hn.bounds he).2

theorem advance_kept (hduring : req.During registry p w) : req.Between (req.advance registry p w).1 ∧
      ∀ p', (req.advance registry p w).2 = .goto p' →
        req.During registry p' (req.advance registry p w).1 := by
  cases p with
  | readSourceControl =>
    refine kept_of_read hbetween fun p' hgoto => ?_
    unfold afterSourceControl at hgoto
    split at hgoto
    · split at hgoto
      · cases hgoto
      · cases hgoto
        exact Log.follows_nil _ _
    · cases hgoto
      exact Log.follows_nil _ _
  | readTurns =>
    refine kept_of_read hbetween fun p' hgoto => during_of_goto ?_ hgoto
    split
    · rename_i turn hturn
      exact Log.Follows.snoc hduring hturn
    · rename_i hend
      exact ⟨hduring, Log.follows_nil _ _, covers_turns hbetween hduring hend⟩
  | readEvents =>
    refine kept_of_read hbetween fun p' hgoto => ?_
    split at hgoto
    · rename_i event hevent
      cases hgoto
      exact ⟨hduring.1, hduring.2.1.snoc hevent, hduring.2.2⟩
    · rename_i hend
      obtain ⟨hturns, hevents, hcovers⟩ := hduring
      unfold afterHistory at hgoto
      split at hgoto
      · cases hgoto
      rename_i hboundary
      cases hgoto
      exact hasRead_of_forkBoundary hbetween.source hturns hevents hcovers
        (covers_events hbetween hevents hend) hboundary
  | readTargetControl =>
    exact kept_of_read hbetween fun p' hgoto => during_afterTargetControl hbetween hduring hgoto
  | lookUp =>
    refine kept_of_read hbetween fun p' hgoto => ?_
    split at hgoto
    · cases hgoto
    rename_i hregistered
    cases hgoto
    exact ⟨hduring.1, hduring.2.1, fun _ => Bool.eq_false_iff.mpr hregistered⟩
  | readFirstTurn =>
    refine kept_of_read hbetween fun p' hgoto => ?_
    split at hgoto
    · cases hgoto
    rename_i hturn
    cases hgoto
    exact ⟨hduring.1, hduring.2, not_isSome_iff_eq_none.mp hturn⟩
  | readFirstEvent =>
    refine kept_of_read hbetween fun p' hgoto => ?_
    obtain ⟨hread, hunclaimed, hturn⟩ := hduring
    split at hgoto
    · cases hgoto
    rename_i hevent
    cases hgoto
    exact ⟨hread, hunclaimed, hturn, not_isSome_iff_eq_none.mp hevent, w.now, rfl⟩
  | writeCreating =>
    obtain ⟨hread, hunclaimed, hturn, hevent, now, rfl⟩ := hduring
    have hprogress := progress_newControl hbetween hunclaimed.1 hturn hevent hread now
    have hwritten := between_writeControl hbetween hprogress (nofun)
    refine ⟨hwritten, fun p' hgoto => during_of_goto ?_ hgoto⟩
    refine during_copyTurns (i := 0) hwritten.source _ ?_
    exact ⟨hprogress.others, stored_writeControl hprogress.same, (nofun),
      ⟨hread.turns, by omega, Nat.zero_le _, hread.turn_le.trans_eq (Nat.zero_add _).symm⟩,
      ⟨hread.events, by omega, Nat.zero_le _, hread.event_le.trans_eq (Nat.zero_add _).symm⟩⟩
  | putTurn turn turns _ c =>
    obtain ⟨hloop, hle⟩ := hduring
    obtain ⟨n, hn⟩ := hbetween.source.1
    have hindex : turn.turnIndex = c.copiedTurn + 1 := hn.numbered _ _ hloop.turns.record
    have hnext := hloop.putTurn hle
    have hsource : (w.putTurn req.targetSessionCtxID (c.copiedTurn + 1)
        (req.turnCopy turn)).HasHistory req.sourceSessionCtxID := by
      unfold World.HasHistory
      rw [putTurn_turns_of_ne hloop.progress.ne]
      exact hbetween.source
    simp only [advance]
    rw [hindex]
    refine ⟨hbetween.put hloop.stored hsource rfl ?_, fun p' hgoto => during_of_goto ?_ hgoto⟩
    · intro c' hprogress hbound _
      exact hprogress.putTurn hloop.turns.record (hle.trans_eq hbound.symm)
    split
    · exact hnext.touch w.now
    · exact during_copyTurns hsource _ hnext
  | checkpointTurns =>
    have hwritten := between_writeControl hbetween hduring.progress (fun h => absurd h hduring.notReady)
    exact ⟨hwritten, fun p' hgoto =>
      during_of_goto (during_copyTurns hwritten.source _ hduring.writeControl) hgoto⟩
  | putEvent event events c =>
    obtain ⟨⟨i, hloop⟩, hle⟩ := hduring
    obtain ⟨m, hm⟩ := hbetween.source.2
    have hseq : event.seq = c.copiedSeq + 1 := hm.numbered _ _ hloop.events.record
    have hnext := hloop.putEvent hle
    have hsource : (w.putEvent req.targetSessionCtxID (c.copiedSeq + 1)
        (req.eventCopy event)).HasHistory req.sourceSessionCtxID := by
      unfold World.HasHistory
      rw [putEvent_events_of_ne hloop.progress.ne]
      exact hbetween.source
    simp only [advance]
    rw [hseq]
    refine ⟨hbetween.put hloop.stored hsource rfl ?_, fun p' hgoto => during_of_goto ?_ hgoto⟩
    · intro c' hprogress _ hbound
      exact hprogress.putEvent hloop.events.record (hle.trans_eq hbound.symm)
    split
    · exact ⟨i, hnext.touch w.now⟩
    · exact during_copyEvents hsource _ hnext
  | checkpointEvents =>
    obtain ⟨i, hloop⟩ := hduring
    have hwritten := between_writeControl hbetween hloop.progress (fun h => absurd h hloop.notReady)
    exact ⟨hwritten, fun p' hgoto =>
      during_of_goto (during_copyEvents hwritten.source _ hloop.writeControl) hgoto⟩
  | writeCopied c =>
    obtain ⟨hprogress, hstored, hcopied⟩ := hduring
    refine ⟨between_writeControl hbetween hprogress fun _ => hcopied, fun p' hgoto => ?_⟩
    cases hgoto
    exact ⟨⟨(hprogress.touch .ready w.now).others,
      ⟨c, writeControl_controls, hprogress.same, rfl, rfl⟩, hcopied⟩, rfl⟩
  | writeReady c =>
    obtain ⟨⟨hprogress, hstored, hcopied⟩, hready⟩ := hduring
    refine ⟨between_writeControl hbetween hprogress fun _ => hcopied, fun p' hgoto => ?_⟩
    simp only [advance] at hgoto
    split at hgoto
    · cases hgoto
      exact ⟨c, writeControl_controls, hprogress.same, hready⟩
    · cases hgoto
  | register =>
    refine ⟨{ hbetween with control := ?_ }, fun p' hgoto => by cases hgoto⟩
    intro c hc hsame
    obtain ⟨hprogress, hready⟩ := hbetween.control c hc hsame
    exact ⟨hprogress.others, hready⟩

end

end Yuanrong.SessionContextManager.ForkRequest
