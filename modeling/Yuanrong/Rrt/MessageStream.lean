import Yuanrong.Lib.StepSystem

/-!
# Call results over a control stream that breaks

`run_message_stream_loop` moves messages from the outbound queue into the channel of the stream that
is open. A message that cannot be sent is kept in `pending`; what is in the channel when the stream
breaks goes with it.
-/

namespace Yuanrong.Rrt

inductive Body where
  | callResultReq (requestID : Nat)
  | killReq (signal : Int)
  | heartbeatRsp
  | other (id : Nat)
  | absent
  deriving DecidableEq

def idleReportSignal : Int := 23

def shouldRetryOutboundMsg : Body → Bool
  | .callResultReq _ => true
  | .killReq signal => signal ≠ idleReportSignal
  | .heartbeatRsp => false
  | .other _ => true
  | .absent => false

def Body.isCallResult : Body → Bool
  | .callResultReq _ => true
  | _ => false

def streamChannelSize : Nat := 256

/-- The stream's own channel, until the transport drops its end of it. -/
inductive Stream where
  | opened (channel : List Body)
  | closed
  deriving DecidableEq

/-- `enqueued` and `written` record what was put on the queue and what was written to a stream. -/
structure StreamLoop where
  rx : List Body := []
  pending : Option Body := none
  stream : Option Stream := none
  enqueued : List Body := []
  written : List Body := []
  deriving DecidableEq

inductive StreamEvent where
  /-- A task of the runtime puts a message on the outbound queue. -/
  | enqueue (msg : Body)
  /-- A stream is opened, and the activity state is sent on it. -/
  | connect
  /-- The loop sends what is pending, or else the next message of the queue. -/
  | forward
  /-- A handler answers an inbound message on the stream itself. -/
  | respond (msg : Body)
  /-- The transport writes a message of the channel. -/
  | write
  /-- The transport fails and drops its end of the channel. -/
  | close
  /-- The inbound side ends, or a handler asks for a new stream. -/
  | inboundBreak

namespace StreamLoop

variable {s s' : StreamLoop} {msg : Body}

def unwritten (s : StreamLoop) : List Body :=
  match s.stream with
  | some (.opened channel) => channel
  | _ => []

/-- Sends `msg`, which the loop has taken; if that fails the loop leaves the stream. -/
def send (s : StreamLoop) (msg : Body) : Option StreamLoop :=
  match s.stream with
  | some (.opened channel) =>
    if channel.length < streamChannelSize then
      some { s with stream := some (.opened (channel ++ [msg])) }
    else none
  | some .closed =>
    some { s with pending := if shouldRetryOutboundMsg msg then some msg else none, stream := none }
  | none => none

def step (s : StreamLoop) : StreamEvent → Option StreamLoop
  | .enqueue msg => some { s with rx := s.rx ++ [msg], enqueued := s.enqueued ++ [msg] }
  | .connect =>
    match s.stream with
    | none => some { s with stream := some (.opened [.other 0]) }
    | some _ => none
  | .forward =>
    match s.pending, s.rx with
    | some msg, _ => { s with pending := none }.send msg
    | none, msg :: rest => { s with rx := rest }.send msg
    | none, [] => none
  | .respond msg =>
    match s.stream with
    | some (.opened channel) =>
      if channel.length < streamChannelSize ∧ msg.isCallResult = false then
        some { s with stream := some (.opened (channel ++ [msg])) }
      else none
    | some .closed => some { s with stream := none }
    | none => none
  | .write =>
    match s.stream with
    | some (.opened (msg :: rest)) =>
      some { s with stream := some (.opened rest), written := s.written ++ [msg] }
    | _ => none
  | .close => s.stream.map fun _ => { s with stream := some .closed }
  | .inboundBreak => s.stream.map fun _ => { s with stream := none }

/-- The stream breaks only while no call result is in its channel. -/
def clean (s : StreamLoop) : StreamEvent → Bool
  | .close | .inboundBreak => s.unwritten.all (!·.isCallResult)
  | _ => true

end StreamLoop

def messageStreamLoop : StepSystem StreamLoop StreamEvent Unit where
  init s := s = {}
  step s e := (s.step e).map (·, ())

def callResults (msgs : List Body) : List Body := msgs.filter (·.isCallResult)

@[simp] theorem callResults_append (l l' : List Body) :
    callResults (l ++ l') = callResults l ++ callResults l' := List.filter_append ..

namespace StreamLoop

variable {s s' : StreamLoop}

/-- Every message that is not lost, in the order in which the messages were put on the queue. -/
def kept (s : StreamLoop) : List Body := s.written ++ s.unwritten ++ s.pending.toList ++ s.rx

theorem send_kept (hpending : s.pending = none) (hsend : s.send msg = some s') :
    callResults s'.kept = callResults (s.written ++ s.unwritten ++ msg :: s.rx) ∧
      s'.enqueued = s.enqueued := by
  unfold send at hsend
  split at hsend
  case h_1 channel hstream =>
    split at hsend
    all_goals cases hsend
    simp [kept, unwritten, hstream, hpending]
  case h_2 hstream =>
    cases hsend
    refine ⟨?_, rfl⟩
    -- a message that is not kept is not a call result
    cases msg <;> simp [kept, unwritten, hstream, callResults, shouldRetryOutboundMsg, Body.isCallResult]
  case h_3 => cases hsend

theorem step_kept (h : callResults s.kept = callResults s.enqueued) (hclean : s.clean e = true)
    (hstep : s.step e = some s') : callResults s'.kept = callResults s'.enqueued := by
  cases e with
  | enqueue msg =>
    cases hstep
    simpa [kept, unwritten, ← List.append_assoc] using congrArg (· ++ callResults [msg]) h
  | connect =>
    simp only [step] at hstep
    split at hstep
    all_goals cases hstep
    case h_1 hstream => simpa [kept, unwritten, hstream, callResults, Body.isCallResult] using h
  | forward =>
    simp only [step] at hstep
    split at hstep
    case h_1 msg hpending =>
      obtain ⟨hkept, heq⟩ := send_kept rfl hstep
      rw [hkept, heq, ← h]
      simp [kept, hpending, unwritten]
    case h_2 msg rest hpending hrx =>
      obtain ⟨hkept, heq⟩ := @send_kept { s with rx := rest } s' msg hpending hstep
      rw [hkept, heq, ← h]
      simp [kept, hpending, hrx, unwritten]
    case h_3 => cases hstep
  | respond =>
    simp only [step] at hstep
    split at hstep
    case h_1 channel hstream =>
      obtain ⟨hmsg, rfl⟩ := Option.ite_some_none_eq_some.mp hstep
      simpa [kept, unwritten, hstream, callResults, hmsg.2] using h
    case h_2 hstream =>
      cases hstep
      simpa [kept, unwritten, hstream] using h
    case h_3 => cases hstep
  | write =>
    simp only [step] at hstep
    split at hstep
    all_goals cases hstep
    case h_1 hstream => simpa [kept, unwritten, hstream] using h
  | close | inboundBreak =>
    obtain ⟨stream, hstream, rfl⟩ := Option.map_eq_some_iff.mp hstep
    have hnone : callResults s.unwritten = [] := by
      simpa [clean, callResults, List.filter_eq_nil_iff] using hclean
    rw [kept, callResults_append, callResults_append, callResults_append, hnone] at h
    simpa [kept, unwritten, callResults] using h

end StreamLoop

/-- **No call result is lost**, while no stream breaks with one in its channel: they are written, in
the channel, pending, or queued, in order. -/
theorem callResults_kept (s : StreamLoop)
    (hreach : messageStreamLoop.Reach (fun s e => s.clean e = true) s) :
    callResults s.enqueued = callResults s.written ++ callResults s.unwritten ++
      callResults s.pending.toList ++ callResults s.rx := by
  have h : callResults s.kept = callResults s.enqueued := by
    refine hreach.invariant (P := fun s => callResults s.kept = callResults s.enqueued)
      (fun s hinit => ?_) fun s e s' l _ hclean h hstep => ?_
    · cases hinit
      rfl
    · exact StreamLoop.step_kept h hclean (next_of_step hstep)
  rw [← h]
  simp [StreamLoop.kept]

theorem callResults_kept_reconnected : ∃ s, messageStreamLoop.Reach (fun s e => s.clean e = true) s ∧
      s.written = [.other 0, .callResultReq 1] ∧ s.unwritten = [.other 0, .callResultReq 2] ∧
      callResults s.enqueued = callResults s.written ++ callResults s.unwritten ++
        callResults s.pending.toList ++ callResults s.rx := by
  obtain ⟨s, hreach, hwritten, hunwritten⟩ := messageStreamLoop.reach_of_run StreamLoop.clean rfl
    [.enqueue (.callResultReq 1), .connect, .forward, .write, .write, .close,
      .enqueue (.callResultReq 2), .forward, .connect, .forward]
    (fun s => s.written = [.other 0, .callResultReq 1] ∧ s.unwritten = [.other 0, .callResultReq 2])
    (by decide)
  exact ⟨s, hreach, hwritten, hunwritten, callResults_kept s hreach⟩

/-- The remote end closes the stream while a call result is in the channel: no place holds it. -/
theorem callResult_lost : ∃ s, messageStreamLoop.Reachable s ∧
    s.enqueued = [.callResultReq 1] ∧ s.rx = [] ∧ s.pending = none ∧ s.stream = none ∧ s.written = [] :=
  messageStreamLoop.reachable_of_run rfl
    [.connect, .enqueue (.callResultReq 1), .forward, .inboundBreak] _ (by decide)

end Yuanrong.Rrt
