import Yuanrong.Lib.StepSystem

/-!
# The events of a request

`MemoryStore` buffers the events of a request until its callback is registered. The registration
takes the buffers under the mutex and replays them after it; an event that comes then calls the
callback at once.
-/

namespace Yuanrong.Libruntime

open Option List

def eventEOF : String := "yuanrong_event_EOF"

structure EventCallbackInfo where
  eventCallback : Bool := false
  buffers : List String := []
deriving DecidableEq

/-- `live` is an event whose `AddEventData` is about to call, `replay` is left of `tempBuffers`, and
`erasing` says that the callback was called for the end. -/
structure EventStream where
  entry : Option EventCallbackInfo := none
  registered : Bool := false
  live : Option String := none
  replay : List String := []
  erasing : Bool := false
  added : List String := []
  received : List String := []

namespace EventStream

inductive Event
  | addEventData (eventData : String)
  | addEventCallbackWithData
  | callLive
  | callReplay
  | erase

variable (s : EventStream)

def buffered : List String := s.entry.elim [] (·.buffers)

def doEventCallback (eventData : String) : EventStream :=
  { s with received := s.received ++ [eventData], erasing := s.erasing || eventData = eventEOF }

/-- Events are added one after the other, and the end last. -/
def next : Event → Option EventStream
  | .addEventData eventData =>
    if s.live = none ∧ eventEOF ∉ s.added then
      if s.entry.any (·.eventCallback) then
        some { s with added := s.added ++ [eventData], live := some eventData }
      else
        some { s with
          added := s.added ++ [eventData]
          entry := some { buffers := s.buffered ++ [eventData] } }
    else none
  | .addEventCallbackWithData =>
    if s.registered then none
    else some { s with registered := true, entry := some { eventCallback := true }, replay := s.buffered }
  | .callLive => s.live.map fun eventData => { s with live := none }.doEventCallback eventData
  | .callReplay =>
    match s.replay with
    | [] => none
    | eventData :: rest => some ({ s with replay := rest }.doEventCallback eventData)
  | .erase => if s.erasing then some { s with entry := none, erasing := false } else none

def undisturbed : Event → Bool
  | .addEventData _ => s.replay = []
  | _ => true

def Waiting : Prop :=
  s.entry.any (·.eventCallback) = false ∧ s = { entry := s.entry, added := s.buffered }

structure Calling : Prop where
  registered : s.registered = true
  apart : s.live = none ∨ s.replay = []
  order : s.received ++ s.replay ++ s.live.toList = s.added
  entry : s.entry = some { eventCallback := true } ∨ s.entry = none ∧ eventEOF ∈ s.received
  erasing : s.erasing = true → eventEOF ∈ s.received
  ended : eventEOF ∈ s.received → s.erasing = true ∨ s.entry = none

variable {s} {e : Event}

theorem Waiting.step (h : s.Waiting) (hnext : s.next e = some s') : s'.Waiting ∨ s'.Calling := by
  obtain ⟨hnot, heq⟩ := h
  rw [heq] at hnext
  cases e with
  | addEventData =>
    simp only [next, hnot, Bool.false_eq_true, if_false] at hnext
    obtain ⟨-, rfl⟩ := ite_some_none_eq_some.mp hnext
    exact .inl ⟨rfl, rfl⟩
  | addEventCallbackWithData =>
    cases hnext
    exact .inr ⟨rfl, .inl rfl, append_nil _, .inl rfl, nofun, nofun⟩
  | _ => cases hnext

theorem Calling.doEventCallback (h : s.Calling) {live : Option String}
    {replay : List String} (hapart : live = none ∨ replay = [])
    (horder : s.received ++ eventData :: replay ++ live.toList = s.added) :
    ({ s with live, replay }.doEventCallback eventData).Calling := by
  refine ⟨h.registered, hapart, by simpa [EventStream.doEventCallback] using horder, ?_, ?_, ?_⟩
  · exact h.entry.imp_right fun hend => ⟨hend.1, mem_append_left _ hend.2⟩
  all_goals simp only [EventStream.doEventCallback, Bool.or_eq_true, decide_eq_true_eq, mem_append,
    mem_singleton]
  · exact Or.imp h.erasing Eq.symm
  rintro (hold | rfl)
  · exact (h.ended hold).imp_left .inl
  · exact .inl (.inr rfl)

theorem Calling.step (h : s.Calling) (hok : s.undisturbed e = true) (hnext : s.next e = some s') :
    s'.Calling := by
  cases e with
  | addEventData eventData =>
    obtain ⟨⟨hlive, heof⟩, heq⟩ := ite_none_right_eq_some.mp hnext
    have hreplay : s.replay = [] := of_decide_eq_true hok
    have horder := h.order
    rw [hreplay, hlive] at horder
    have hentry := h.entry.resolve_right fun hend => heof (by simp [← horder, hend.2])
    rw [if_pos (by simp [hentry])] at heq
    cases heq
    exact { h with apart := .inr hreplay, order := by simp [← horder, hreplay] }
  | addEventCallbackWithData => simp [next, h.registered] at hnext
  | callLive =>
    obtain ⟨eventData, hlive, rfl⟩ := map_eq_some_iff.mp hnext
    have hreplay := h.apart.resolve_left (by simp [hlive])
    exact h.doEventCallback (.inl rfl) (by simp [← h.order, hlive, hreplay])
  | callReplay =>
    simp only [next] at hnext
    split at hnext
    case h_1 => cases hnext
    case h_2 hreplay =>
      cases hnext
      have hlive := h.apart.resolve_right (by simp [hreplay])
      exact h.doEventCallback (.inl hlive) (by simp [← h.order, hreplay])
  | erase =>
    obtain ⟨herasing, rfl⟩ := ite_some_none_eq_some.mp hnext
    exact { h with entry := .inr ⟨rfl, h.erasing herasing⟩, erasing := nofun, ended := fun _ => .inr rfl }

end EventStream

def eventStream : StepSystem EventStream EventStream.Event Unit where
  init s := s = {}
  step s e := (s.next e).map (·, ())

/-- When no event is added during the replay, the callback gets them in order, and the end erases
the entry. -/
theorem events_in_order (s : EventStream)
    (hreach : eventStream.Reach (fun s e => s.undisturbed e = true) s) :
    s.received <+: s.added ∧
      (s.registered = true → s.replay = [] → s.live = none → s.received = s.added) ∧
      (eventEOF ∈ s.received → s.erasing = false → s.entry = none) := by
  have h : s.Waiting ∨ s.Calling := by
    refine hreach.invariant (P := fun s => s.Waiting ∨ s.Calling) ?_ ?_
    · rintro s rfl
      exact .inl ⟨rfl, rfl⟩
    intro s e s' l _ hok h hstep
    exact h.elim (·.step (next_of_step hstep)) fun hcalling => .inr (hcalling.step hok (next_of_step hstep))
  rcases h with ⟨-, heq⟩ | h
  · rw [heq]
    exact ⟨ nil_prefix, nofun, nofun⟩
  have horder := h.order
  refine ⟨?_, fun _ hreplay hlive => ?_, fun hend herasing => ?_⟩
  · rw [append_assoc] at horder
    exact ⟨_, horder⟩
  · simpa [hreplay, hlive] using horder
  · exact (h.ended hend).resolve_left (by simp [herasing])

theorem events_in_order_buffered :
    ∃ s, eventStream.Reach (fun s e => s.undisturbed e = true) s ∧ s.received = ["a", eventEOF] ∧
      s.erasing = false ∧ s.entry = none := by
  obtain ⟨s, hreach, hreceived, herasing⟩ := eventStream.reach_of_run EventStream.undisturbed
    (show eventStream.init {} from rfl)
    [.addEventData "a", .addEventCallbackWithData, .callReplay, .addEventData eventEOF, .callLive, .erase]
    (fun s => s.received = ["a", eventEOF] ∧ s.erasing = false) (by decide)
  exact ⟨s, hreach, hreceived, herasing, (events_in_order s hreach).2.2 (by simp [hreceived]) herasing⟩

/-- The second event comes between the registration and the replay of the first one. -/
theorem event_overtakes_replay :
    ∃ s, eventStream.Reachable s ∧ s.added = ["a", "b"] ∧ s.received = ["b", "a"] :=
  eventStream.reachable_of_run (show eventStream.init {} from rfl)
    [.addEventData "a", .addEventCallbackWithData, .addEventData "b", .callLive, .callReplay] _ (by decide)

end Yuanrong.Libruntime
