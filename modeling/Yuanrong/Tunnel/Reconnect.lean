import Mathlib.Data.List.Perm.Subperm
import Yuanrong.Lib.StepSystem

/-!
# Requests of the tunnel over reconnects

The daemon admits a request with a permit of the semaphore it has made for the connection. A request
of a resumable session keeps its permit over a reconnect, after which there is a new semaphore. The
stream of its response is bound to the new connection, but a guard keeps the generation it was made
on: that of the request, until its handler has the response, and then that of the response.
-/

namespace Yuanrong.Tunnel

open List Nat

/-- `admitted` hold permits of the connection's semaphore, `resumed` those of earlier ones. The
client has the frames that are on their way, its `http_tasks` and the requests it has completed. -/
structure Admission where
  maxInflight : Nat
  negotiated : Bool := false
  admitted : List Nat := []
  resumed : List Nat := []
  frames : List Nat := []
  httpTasks : List Nat := []
  completed : List Nat := []
  limitReached : List Nat := []

namespace Admission

inductive Event
  | hello
  | disconnect
  | acquirePermit (id : Nat)
  | httpReq (id : Nat)
  | taskDone (id : Nat)
  | finish (id : Nat)

variable (s : Admission)

/-- What happens, where it can; `httpReq` is `http_req_begin` too. A frame for a request that the
client knows starts one more task, without a look at the limit. -/
def next : Event → Admission
  | .hello =>
    if s.negotiated then s
    else
      { s with
        negotiated := true
        admitted := []
        resumed := s.admitted ++ s.resumed
        -- `resend_pending_requests`
        frames := s.admitted ++ s.resumed }
  | .disconnect => { s with negotiated := false, frames := [] }
  | .acquirePermit id =>
    if s.negotiated ∧ s.admitted.length < s.maxInflight then
      { s with admitted := id :: s.admitted, frames := id :: s.frames }
    else s
  | .httpReq id =>
    if id ∉ s.frames then s
    else if id ∉ s.httpTasks ++ s.completed ∧ s.maxInflight ≤ s.httpTasks.length then
      { s with frames := s.frames.erase id, limitReached := id :: s.limitReached }
    else { s with frames := s.frames.erase id, httpTasks := id :: s.httpTasks }
  | .taskDone id => { s with httpTasks := s.httpTasks.erase id, completed := id :: s.completed }
  | .finish id => { s with admitted := s.admitted.erase id, resumed := s.resumed.erase id }

/-- A connection finds no unfinished request, and a request is not finished before the client's task
for it. -/
def settled : Event → Bool
  | .hello => s.admitted == [] && s.resumed == []
  | .finish id => !s.frames.contains id && !s.httpTasks.contains id
  | _ => true

structure Inv : Prop where
  resumed : s.resumed = []
  limit : s.admitted.length ≤ s.maxInflight
  client : s.frames ++ s.httpTasks <+~ s.admitted
  none : s.limitReached = []

variable {s}

theorem Inv.httpReq (h : s.Inv) (id : Nat) : (s.next (.httpReq id)).Inv := by
  by_cases hmem : id ∈ s.frames
  case neg => rwa [next, if_pos hmem]
  have hperm : s.frames.erase id ++ id :: s.httpTasks ~ s.frames ++ s.httpTasks :=
    perm_middle.trans ((perm_cons_erase hmem).symm.append_right _)
  have hlength := h.client.length_le
  have hframes := length_pos_of_mem hmem
  have hlimit := h.limit
  rw [length_append] at hlength
  rw [next, if_neg (not_not_intro hmem), if_neg (by omega)]
  exact { h with client := hperm.subperm.trans h.client }

theorem Inv.step (h : s.Inv) {e : Event} (hok : s.settled e = true) : (s.next e).Inv := by
  have hclient := h.client
  cases e with
  | hello =>
    simp only [settled, Bool.and_eq_true, beq_iff_eq] at hok
    simp only [next, hok.1, hok.2]
    split
    · exact h
    · rw [hok.1] at hclient
      exact ⟨rfl, zero_le _, (sublist_append_right _ _).subperm.trans hclient, h.none⟩
  | disconnect => exact { h with client := (sublist_append_right _ _).subperm.trans hclient }
  | acquirePermit id =>
    rw [next]
    split
    case isTrue hlt => exact { h with limit := hlt.2, client := (subperm_cons id).mpr hclient }
    case isFalse => exact h
  | httpReq id => exact h.httpReq id
  | taskDone id => exact { h with client := ((erase_sublist.append_left _).subperm).trans hclient }
  | finish id =>
    have hnot : id ∉ s.frames ++ s.httpTasks := by simpa [settled] using hok
    refine ⟨?_, Nat.le_trans length_erase_le h.limit, ?_, h.none⟩
    · exact congrArg (List.erase · id) h.resumed
    · exact erase_of_not_mem hnot ▸ hclient.erase id

end Admission

def admission : StepSystem Admission Admission.Event Unit where
  init s := s = { maxInflight := s.maxInflight }
  step s e := some (s.next e, ())

/-- No more requests than negotiated are unfinished, and the client takes each of them. -/
theorem unfinished_within_max_inflight (s : Admission)
    (hreach : admission.Reach (fun s e => s.settled e = true) s) :
    s.admitted.length + s.resumed.length ≤ s.maxInflight ∧ s.limitReached = [] := by
  have h : s.Inv := by
    refine hreach.invariant ?_ ?_
    · intro s hinit
      rw [hinit]
      exact ⟨rfl, zero_le _, Subperm.refl _, rfl⟩
    · rintro s e s' l - hok h ⟨⟩
      exact h.step hok
  rw [h.resumed]
  exact ⟨h.limit, h.none⟩

/-- A request is finished before the connection is lost, and another follows on the next one. -/
theorem unfinished_within_max_inflight_one : ∃ s, admission.Reach (fun s e => s.settled e = true) s ∧
    s.maxInflight = 1 ∧ s.admitted = [1] ∧ s.completed = [0] ∧
      s.admitted.length + s.resumed.length ≤ s.maxInflight := by
  obtain ⟨s, hreach, hmax, hstate⟩ := admission.reach_of_run Admission.settled
    (show admission.init { maxInflight := 1 } from rfl)
    [.hello, .acquirePermit 0, .httpReq 0, .taskDone 0, .finish 0, .disconnect, .hello, .acquirePermit 1]
    (fun s => s.maxInflight = 1 ∧ s.admitted = [1] ∧ s.completed = [0]) (by decide)
  exact ⟨s, hreach, hmax, hstate.1, hstate.2, (unfinished_within_max_inflight s hreach).1⟩

/-- A request is resumed, and the new semaphore admits another. -/
theorem max_inflight_exceeded : ∃ s, admission.Reachable s ∧
    s.maxInflight < s.admitted.length + s.resumed.length ∧ s.limitReached = [1] :=
  admission.reachable_of_run (show admission.init { maxInflight := 1 } from rfl)
    [.hello, .acquirePermit 0, .httpReq 0, .disconnect, .hello, .acquirePermit 1, .httpReq 1]
    (fun s => s.maxInflight < s.admitted.length + s.resumed.length ∧ s.limitReached = [1]) (by decide)

/-- What the daemon keeps of resumable requests: those without a response, the generation that each
sink is bound to, the responses that a handler has not taken yet, the generation that the guard of a
request or a response has, and the streams that have ended, which are not forgotten before the time
and the number allow it. `begun` records the streams that have begun. -/
structure ResponseStreams where
  generation : Nat := 0
  pendingHttp : List String := []
  responseStreams : String → Option Nat := fun _ => none
  responses : String → Option Nat := fun _ => none
  guards : String → Option Nat := fun _ => none
  terminatedStreams : List (Nat × String) := []
  begun : List String := []

namespace ResponseStreams

inductive Event
  | request (id : String)
  | hello
  | httpRespBegin (id : String)
  | takeResponse (id : String)
  | httpRespEnd (id : String)
  | drop (id : String)

variable (s : ResponseStreams)

def endStream (generation : Nat) (id : String) : ResponseStreams :=
  { s with
    responseStreams := Function.update s.responseStreams id none
    terminatedStreams := (generation, id) :: s.terminatedStreams }

def next : Event → ResponseStreams
  | .request id =>
    if (s.guards id).isSome then s
    else
      { s with
        pendingHttp := id :: s.pendingHttp
        guards := Function.update s.guards id (some s.generation) }
  | .hello =>
    { s with
      generation := s.generation + 1
      -- `rebind_resumable_session`
      responseStreams := fun id => (s.responseStreams id).map fun _ => s.generation + 1 }
  | .httpRespBegin id =>
    if id ∈ s.pendingHttp then
      { s with
        pendingHttp := s.pendingHttp.filter (· ≠ id)
        responseStreams := Function.update s.responseStreams id (some s.generation)
        responses := Function.update s.responses id (some s.generation)
        begun := id :: s.begun }
    else s
  -- the guard of the request is disarmed; that of the response has the generation of its beginning
  | .takeResponse id =>
    match s.responses id with
    | some generation =>
      { s with
        responses := Function.update s.responses id none
        guards := Function.update s.guards id (some generation) }
    | none => s
  | .httpRespEnd id => if (s.responseStreams id).isSome then s.endStream s.generation id else s
  -- of the handler or of the body of the response, whichever has the guard
  | .drop id =>
    match s.guards id with
    | some generation =>
      let s' := { s with
        pendingHttp := s.pendingHttp.filter (· ≠ id), responses := Function.update s.responses id none }
      if id ∈ s.pendingHttp ∨ (s.responseStreams id).isSome then s'.endStream generation id else s'
    | none => s

def dispatchBinaryFromClient (id : String) : Except String Unit :=
  if (s.responseStreams id).isNone ∧ (s.generation, id) ∉ s.terminatedStreams then
    .error ("response data for unknown stream: " ++ id)
  else .ok ()

/-- The stream has its sink, or is remembered under the generation. -/
def Remembered (id : String) (g : Nat) : Prop :=
  (s.responseStreams id).isSome ∨ (g, id) ∈ s.terminatedStreams

/-- The generation of the guard of a stream that has begun, or of a response that is still to be
taken. -/
def Marks (id : String) (g : Nat) : Prop := (s.guards id = some g ∧ id ∈ s.begun) ∨ s.responses id = some g

structure Known : Prop where
  issued : ∀ id, id ∈ s.pendingHttp ∨ id ∈ s.begun → s.guards id ≠ none
  guards : ∀ id g, s.guards id = some g → g ≤ s.generation
  marks : ∀ id g, s.Marks id g → g ≤ s.generation ∧ (g = s.generation → s.Remembered id g)

variable {s} {id : String} {generation : Nat}

theorem Known.endStream (h : s.Known)
    (hmarks : ∀ g, s.Marks id g → g = s.generation → generation = g) : (s.endStream generation id).Known := by
  refine ⟨h.issued, h.guards, fun id' g hmark => ⟨(h.marks id' g hmark).1, fun heq => ?_⟩⟩
  by_cases hid : id' = id
  · subst hid
    exact .inr (hmarks g hmark heq ▸ mem_cons_self)
  · refine ((h.marks id' g hmark).2 heq).imp (fun hsome => ?_) (mem_cons_of_mem _)
    simpa [ResponseStreams.endStream, hid] using hsome

theorem Known.request (h : s.Known) (hnone : s.guards id = none) : Known { s with
    pendingHttp := id :: s.pendingHttp, guards := Function.update s.guards id (some s.generation) } := by
  refine ⟨fun id' hid' => ?_, fun id' g hg => ?_, fun id' g hmark => ?_⟩
  all_goals by_cases hid : id' = id
  · simp [hid]
  · simpa [hid] using h.issued id' (by simpa [hid] using hid')
  · subst hid
    exact Nat.le_of_eq (by simpa using hg.symm)
  · exact h.guards id' g (by simpa [hid] using hg)
  · subst hid
    refine h.marks id' g (hmark.imp_left fun hbegun => ?_)
    exact absurd hnone (h.issued id' (.inr hbegun.2))
  · exact h.marks id' g (by simpa [Marks, hid] using hmark)

theorem Known.httpRespBegin (h : s.Known) (hpending : id ∈ s.pendingHttp) : Known { s with
    pendingHttp := s.pendingHttp.filter (· ≠ id)
    responseStreams := Function.update s.responseStreams id (some s.generation)
    responses := Function.update s.responses id (some s.generation)
    begun := id :: s.begun } := by
  refine ⟨fun id' hid' => ?_, h.guards, fun id' g hmark => ?_⟩
  all_goals by_cases hid : id' = id
  · exact hid ▸ h.issued id (.inl hpending)
  · exact h.issued id' (by simpa [hid] using hid')
  · subst hid
    refine ⟨?_, fun _ => .inl (by simp)⟩
    rcases hmark with ⟨hg, -⟩ | hnew
    · exact h.guards id' g hg
    · exact Nat.le_of_eq (by simpa using hnew.symm)
  · simpa [Remembered, hid] using h.marks id' g (by simpa [Marks, hid] using hmark)

theorem Known.takeResponse (h : s.Known) (hresponse : s.responses id = some generation) : Known { s with
    responses := Function.update s.responses id none
    guards := Function.update s.guards id (some generation) } := by
  have hmark' : ∀ id' g, Marks { s with
      responses := Function.update s.responses id none
      guards := Function.update s.guards id (some generation) } id' g → s.Marks id' g := by
    intro id' g hmark
    by_cases hid : id' = id
    · subst hid
      have hg : generation = g := by simpa [Marks] using And.left (hmark.resolve_right (by simp))
      exact .inr (hg ▸ hresponse)
    · simpa [Marks, hid] using hmark
  refine ⟨fun id' hid' => ?_, fun id' g hg => ?_, fun id' g hmark => h.marks id' g (hmark' id' g hmark)⟩
  all_goals by_cases hid : id' = id
  · simp [hid]
  · simpa [hid] using h.issued id' hid'
  · subst hid
    have heq : generation = g := by simpa using hg
    exact heq ▸ (h.marks id' generation (.inr hresponse)).1
  · exact h.guards id' g (by simpa [hid] using hg)

theorem Known.drop (h : s.Known) (hguard : s.guards id = some generation) :
    (s.next (.drop id)).Known := by
  have h' : Known { s with
      pendingHttp := s.pendingHttp.filter (· ≠ id), responses := Function.update s.responses id none } := by
    refine ⟨fun id' hid' => h.issued id' (hid'.imp_left fun hmem => (mem_filter.mp hmem).1), h.guards, ?_⟩
    intro id' g hmark
    refine h.marks id' g (hmark.imp_right fun hresponse => ?_)
    by_cases hid : id' = id
    · simp [hid] at hresponse
    · simpa [hid] using hresponse
  simp only [next, hguard]
  split
  case isFalse => exact h'
  case isTrue =>
    refine h'.endStream fun g hmark _ => ?_
    rcases hmark with ⟨hg, -⟩ | hresponse
    · exact Option.some.inj (hguard.symm.trans hg)
    · simp at hresponse

theorem Known.step (h : s.Known) (e : Event) : (s.next e).Known := by
  cases e with
  | request id =>
    rw [next]
    split
    case isTrue => exact h
    case isFalse hnone => exact h.request (by simpa using hnone)
  | hello =>
    have hlt : ∀ id g, s.Marks id g → g < s.generation + 1 := fun id g hmark =>
      lt_succ_of_le (h.marks id g hmark).1
    exact ⟨h.issued, fun id g hg => le_succ_of_le (h.guards id g hg), fun id g hmark =>
      ⟨Nat.le_of_lt (hlt id g hmark), fun heq => absurd heq (Nat.ne_of_lt (hlt id g hmark))⟩⟩
  | httpRespBegin id =>
    rw [next]
    split
    case isTrue hpending => exact h.httpRespBegin hpending
    case isFalse => exact h
  | takeResponse id =>
    rw [next]
    split
    case h_1 hresponse => exact h.takeResponse hresponse
    case h_2 => exact h
  | httpRespEnd id =>
    rw [next]
    split
    case isTrue => exact h.endStream fun g _ heq => heq.symm
    case isFalse => exact h
  | drop id =>
    cases hguard : s.guards id with
    | none => simpa only [next, hguard] using h
    | some generation => exact h.drop hguard

end ResponseStreams

def responseStreams : StepSystem ResponseStreams ResponseStreams.Event Unit where
  init s := s = {}
  step s e := some (s.next e, ())

/-- Data of a stream that has begun and whose guard is of this connection is never that of an
unknown one. -/
theorem ended_stream_ignored (s : ResponseStreams) (hreach : responseStreams.Reachable s) (id : String)
    (hbegun : id ∈ s.begun) (hguard : s.guards id = some s.generation) :
    s.dispatchBinaryFromClient id = .ok () := by
  have h : s.Known := by
    refine hreach.invariant ?_ ?_
    · rintro s rfl
      exact ⟨by simp, nofun, by simp [ResponseStreams.Marks]⟩
    · rintro s e s' l - - h ⟨⟩
      exact h.step e
  have hknown := (h.marks id _ (.inl ⟨hguard, hbegun⟩)).2 rfl
  unfold ResponseStreams.dispatchBinaryFromClient
  rw [if_neg]
  rintro ⟨hnone, hnot⟩
  exact hknown.elim (by simp [Option.isNone_iff_eq_none.mp hnone]) hnot

/-- The request is older than the connection, but its handler has taken the response before the
drop. -/
theorem ended_stream_ignored_taken : ∃ s, responseStreams.Reachable s ∧ s.responseStreams "a" = none ∧
    s.dispatchBinaryFromClient "a" = .ok () := by
  obtain ⟨s, hreach, hbegun, hguard, hnone⟩ := responseStreams.reachable_of_run rfl
    [.request "a", .hello, .httpRespBegin "a", .takeResponse "a", .drop "a"]
    (fun s => "a" ∈ s.begun ∧ s.guards "a" = some s.generation ∧ s.responseStreams "a" = none) (by decide)
  exact ⟨s, hreach, hnone, ended_stream_ignored s hreach "a" hbegun hguard⟩

/-- A response outlives its connection and is dropped, or one has begun on the new connection and
the handler returns before it takes it: late data tears the connection down. -/
theorem dropped_stream_unknown :
    (∃ s, responseStreams.Reachable s ∧ (0, "a") ∈ s.terminatedStreams ∧
      s.dispatchBinaryFromClient "a" = .error "response data for unknown stream: a") ∧
    ∃ s, responseStreams.Reachable s ∧ s.begun = ["b"] ∧ (0, "b") ∈ s.terminatedStreams ∧
      s.dispatchBinaryFromClient "b" = .error "response data for unknown stream: b" :=
  ⟨responseStreams.reachable_of_run rfl
      [.request "a", .httpRespBegin "a", .takeResponse "a", .hello, .drop "a"]
      (fun s => (0, "a") ∈ s.terminatedStreams ∧
        s.dispatchBinaryFromClient "a" = .error "response data for unknown stream: a") (by decide),
    responseStreams.reachable_of_run rfl [.request "b", .hello, .httpRespBegin "b", .drop "b"]
      (fun s => s.begun = ["b"] ∧ (0, "b") ∈ s.terminatedStreams ∧
        s.dispatchBinaryFromClient "b" = .error "response data for unknown stream: b") (by decide)⟩

end Yuanrong.Tunnel
