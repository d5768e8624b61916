import Yuanrong.Lib.StepSystem

/-!
# Commands of the sandbox

The calls share a table of processes under one mutex. `collect_output` sleeps with it and
`cmd_send_stdin` writes to a pipe with it. The entry of a process stays in the table after the
process is reaped.
-/

namespace Yuanrong.Rrt.Cmd

/-- What has a pid: a process of `cmd_start`, or another. -/
inductive Process
  | child (exited : Bool)
  | other
  deriving DecidableEq

/-- What a `write_all` to a pipe comes to, which the kernel and the process decide. -/
inductive WriteResult
  | written
  | failed
  | full
  deriving DecidableEq

structure ProcEntry where
  stdin : Bool := false
  exit : Bool := false
  finished : Bool := false

/-- What a call does next. The entry of the `n`-th `cmd_start` is known by `n`. -/
inductive Call
  | insert (n pid : Nat)
  | list
  | kill (pid : Nat)
  | signal (pid : Nat)
  | poll (pid : Nat) (timed : Bool)
  | waitExit (n pid : Nat) (timed : Bool)
  | collect (pid : Nat)
  | collecting (n left : Nat)
  | sendStdin (pid : Nat) (eof : Bool)
  | writing (n : Nat) (eof : Bool)
  | done
  deriving DecidableEq

def Call.begins : Call → Bool
  | list | kill _ | poll .. | sendStdin .. => true
  | _ => false

def Call.holdsMutex : Call → Bool
  | collecting .. | writing .. => true
  | _ => false

/-- How many steps a call still makes at most. -/
def Call.cost : Call → Nat
  | done => 0
  | insert .. | list | signal _ | writing .. => 1
  | kill _ | sendStdin .. => 2
  | collect _ => 252
  | waitExit .. => 253
  | poll .. => 254
  | collecting _ left => left + 1

/-- `process` has what a pid belongs to until it is reaped, `started` the pids that `cmd_start` got,
and `killed` what got a `SIGKILL`. -/
structure State where
  process : Nat → Option Process := fun _ => none
  started : List Nat := []
  entry : Nat → ProcEntry := fun _ => {}
  procs : Nat → Option Nat := fun _ => none
  calls : List Call := []
  killed : List Process := []

variable (s : State)

namespace State

def setProcess (pid : Nat) (p : Option Process) : State :=
  { s with process := fun q => if q = pid then p else s.process q }

def setEntry (n : Nat) (e : ProcEntry) : State := { s with entry := fun m => if m = n then e else s.entry m }

/-- After a write that fails the pipe stays open; one that finds too little room goes on waiting. -/
def write (n : Nat) (eof : Bool) : WriteResult → State × Call
  | .written => (s.setEntry n { s.entry n with stdin := !eof }, .done)
  | .failed => (s, .done)
  | .full => (s, .writing n eof)

/-- A call for an unknown pid ends at once. -/
def found (pid : Nat) (f : Nat → State × Call) : State × Call :=
  match s.procs pid with
  | some n => f n
  | none => (s, .done)

/-- What a call does with the mutex, until it gives it back or has to wait. -/
def locked (w : WriteResult) : Call → State × Call
  | .insert n pid => ({ s with procs := fun p => if p = pid then some n else s.procs p }, .done)
  | .kill pid => s.found pid fun _ => (s, .signal pid)
  | .poll pid timed => s.found pid fun n => (s, .waitExit n pid timed)
  | .collect pid => s.found pid fun n => (s, .collecting n 250)
  | .sendStdin pid eof => s.found pid fun n => if (s.entry n).stdin then s.write n eof w else (s, .done)
  | _ => (s, .done)

/-- A step of a call's thread, if it is not blocked. Sleeps and timeouts come to an end. -/
def advance (w : WriteResult) : Call → Option (State × Call)
  | .signal pid =>
    match s.process pid with
    | some p => some ({ s with killed := p :: s.killed }, .done)
    | none => some (s, .done)
  | .waitExit n pid timed =>
    if (s.entry n).exit then some (s, .collect pid)
    else if timed then some (s, .done)
    else none
  | .collecting n left =>
    some (s, if left = 0 || (s.entry n).finished then .done else .collecting n (left - 1))
  | .writing n eof => if w = .full then none else some (s.write n eof w)
  | .done => none
  | c => if s.calls.any Call.holdsMutex then none else some (s.locked w c)

def step (i : Nat) (w : WriteResult) : Option State := do
  let c ← s.calls[i]?
  let (s', c') ← s.advance w c
  return { s' with calls := s.calls.set i c' }

def work : Nat := s.calls.foldr (·.cost + ·) 0

structure Owned : Prop where
  process : ∀ pid ∈ s.started, s.process pid ≠ some .other
  procs : ∀ pid, s.procs pid ≠ none → pid ∈ s.started
  insert : ∀ n pid, .insert n pid ∈ s.calls → pid ∈ s.started
  signal : ∀ pid, .signal pid ∈ s.calls → pid ∈ s.started
  killed : .other ∉ s.killed

end State

inductive Event
  | start (pid : Nat) (wantStdin : Bool)
  | call (c : Call)
  | step (i : Nat) (w : WriteResult)
  | exit (pid : Nat)
  | reap (n : Nat)
  | closeOutput (n : Nat)
  | other (pid : Nat)
  | otherGone (pid : Nat)

def next : Event → State
  | .start pid wantStdin =>
    if s.process pid = none then
      let n := s.started.length
      { (s.setProcess pid (some (.child false))).setEntry n { stdin := wantStdin } with
        started := s.started ++ [pid]
        calls := s.calls ++ [.insert n pid] }
    else s
  | .call c => if c.begins then { s with calls := s.calls ++ [c] } else s
  | .step i w => (s.step i w).getD s
  | .exit pid => if s.process pid = some (.child false) then s.setProcess pid (some (.child true)) else s
  | .reap n =>
    match s.started[n]? with
    | some pid =>
      if s.process pid = some (.child true) ∧ (s.entry n).exit = false then
        (s.setProcess pid none).setEntry n { s.entry n with exit := true }
      else s
    | none => s
  | .closeOutput n => s.setEntry n { s.entry n with finished := true }
  | .other pid => if s.process pid = none then s.setProcess pid (some .other) else s
  | .otherGone pid => if s.process pid = some .other then s.setProcess pid none else s

def commands : StepSystem State Event Unit where
  init s := s = {}
  step s e := some (next s e, ())

/-- No write finds too little room in its pipe. -/
def writesFit (_ : State) : Event → Bool
  | .step _ w => w != .full
  | _ => true

/-- No other process gets a pid that `cmd_start` got. -/
def pidsKept : Event → Bool
  | .other pid => pid ∉ s.started
  | _ => true

variable {s s' : State} {c c' : Call} {w : WriteResult}

open State List

theorem step_eq_some (h : s.step i w = some s') : ∃ c s₁ c', s.calls[i]? = some c ∧
    s.advance w c = some (s₁, c') ∧ s' = { s₁ with calls := s.calls.set i c' } := by
  simp only [step, Option.bind_eq_bind, Option.bind_eq_some_iff] at h
  obtain ⟨c, hc, ⟨s₁, c'⟩, hadvance, ⟨⟩⟩ := h
  exact ⟨c, s₁, c', hc, hadvance, rfl⟩

theorem advance_cost (h : s.advance w c = some (s', c')) : c'.cost < c.cost := by
  cases c with
  | sendStdin | writing => cases w <;> grind [advance, locked, found, write, Call.cost]
  | _ => grind [advance, locked, found, Call.cost]

theorem work_set {cs : List Call} (hi : cs[i]? = some c) (hlt : c'.cost < c.cost) :
    (cs.set i c').foldr (·.cost + ·) 0 < cs.foldr (·.cost + ·) 0 := by
  induction cs generalizing i with
  | nil => cases hi
  | cons d cs ih =>
    cases i with
    | zero =>
      cases hi
      simpa using hlt
    | succ i => simpa using ih hi

theorem steps_work {js : List (Nat × WriteResult)} (h : js.foldlM (fun s j => step s j.1 j.2) s = some s') :
    js.length + s'.work ≤ s.work := by
  induction js generalizing s with
  | nil =>
    cases h
    simp
  | cons j js ih =>
    obtain ⟨s₁, hstep, hsteps⟩ := Option.bind_eq_some_iff.mp h
    have hrest := ih hsteps
    obtain ⟨c, s₂, c', hc, hadvance, rfl⟩ := step_eq_some hstep
    have hlt : (s.calls.set j.1 c').foldr (·.cost + ·) 0 < s.work := work_set hc (advance_cost hadvance)
    change js.length + s'.work ≤ (s.calls.set j.1 c').foldr (·.cost + ·) 0 at hrest
    rw [length_cons]
    omega

/-- What the steps of calls and the other events keep, a run keeps. -/
theorem holds_of_reach {P : State → Prop} {ok : State → Event → Prop} (hinit : P {})
    (hstep : ∀ s i w c s' c', P s → ok s (.step i w) → s.calls[i]? = some c →
      s.advance w c = some (s', c') → P { s' with calls := s.calls.set i c' })
    (hnext : ∀ s e, P s → ok s e → (∀ i w, e ≠ .step i w) → P (next s e))
    (hreach : commands.Reach ok s) : P s := by
  refine hreach.invariant ?_ ?_
  · rintro s rfl
    exact hinit
  rintro s e s' l - hok h ⟨⟩
  cases e with
  | step i w =>
    cases hs : s.step i w with
    | none => rwa [next, hs]
    | some s' =>
      obtain ⟨c, s₁, c', hc, hadvance, rfl⟩ := step_eq_some hs
      rw [next, hs]
      exact hstep s i w c s₁ c' h hok hc hadvance
  | _ => exact hnext s _ h hok nofun

theorem write_ne_writing (hfit : w ≠ .full) : (s.write n eof w).2 = .done := by
  cases w with
  | full => exact absurd rfl hfit
  | _ => rfl

theorem no_writer (hreach : commands.Reach (fun s e => writesFit s e = true) s) :
    ∀ n eof, .writing n eof ∉ s.calls := by
  refine holds_of_reach (P := fun s => ∀ n eof, .writing n eof ∉ s.calls) (by simp) ?_ ?_ hreach
  · intro s i w c s' c' h hfit hc hadvance n eof hmem
    have hfit : w ≠ .full := by simpa [writesFit] using hfit
    rcases mem_or_eq_of_mem_set hmem with hold | rfl
    · exact h n eof hold
    cases c with
    | writing => exact h _ _ (mem_of_getElem? hc)
    | sendStdin => grind [advance, locked, found, write_ne_writing]
    | _ => grind [advance, locked, found]
  · intro s e h _ hne n eof hmem
    cases e with
    | step i w => exact hne i w rfl
    | _ => grind [next, Call.begins, setEntry, setProcess]

/-- While writes fit, the steps of the calls come to an end, with calls left only that wait for an
exit. -/
theorem quick_calls_complete (s : State) (hreach : commands.Reach (fun s e => writesFit s e = true) s) :
    (∀ (js : List (Nat × WriteResult)) s', js.foldlM (fun s j => step s j.1 j.2) s = some s' →
        js.length ≤ s.work) ∧
      ((∀ c ∈ s.calls, s.advance .written c = none) → ∀ c ∈ s.calls,
        c = .done ∨ ∃ n pid, c = .waitExit n pid false ∧ (s.entry n).exit = false) := by
  refine ⟨fun js s' h => Nat.le_of_add_right_le (steps_work h), fun hstuck c hc => ?_⟩
  have hfree : ∀ d ∈ s.calls, d.holdsMutex = false := by
    intro d hd
    cases d with
    | collecting => cases hstuck _ hd
    | writing => exact absurd hd (no_writer hreach _ _)
    | _ => rfl
  have hany : s.calls.any Call.holdsMutex = false := by simpa using hfree
  have hblocked := hstuck c hc
  cases c with
  | done => exact .inl rfl
  | waitExit n pid timed =>
    simp only [advance] at hblocked
    repeat' split at hblocked
    case isFalse.isFalse hexit htimed =>
      exact .inr ⟨n, pid, by simpa using htimed, by simpa using hexit⟩
    all_goals cases hblocked
  | signal =>
    simp only [advance] at hblocked
    split at hblocked <;> cases hblocked
  | collecting => cases hblocked
  | writing => exact absurd hc (no_writer hreach _ _)
  | _ => simp [advance, hany] at hblocked

/-- A write to one process and a kill of another complete. -/
theorem quick_calls_complete_two : ∃ s, commands.Reach (fun s e => writesFit s e = true) s ∧ s.work = 4 ∧
    .kill 8 ∈ s.calls ∧ ∀ (js : List (Nat × WriteResult)) s',
      js.foldlM (fun s j => step s j.1 j.2) s = some s' → js.length ≤ 4 := by
  obtain ⟨s, hreach, hwork, hkill⟩ := commands.reach_of_run writesFit rfl
    [.start 7 true, .step 0 .written, .start 8 false, .step 1 .written, .call (.sendStdin 7 false),
      .call (.kill 8)]
    (fun s => s.work = 4 ∧ .kill 8 ∈ s.calls) (by decide)
  exact ⟨s, hreach, hwork, hkill, hwork ▸ (quick_calls_complete s hreach).1⟩

/-- While the process does not read, no call can make a step. -/
theorem kill_blocked : ∃ s, commands.Reachable s ∧ .kill 7 ∈ s.calls ∧
    (s.advance .written (.kill 7)).isNone ∧ ∀ c ∈ s.calls, (s.advance .full c).isNone :=
  commands.reachable_of_run rfl
    [.start 7 true, .step 0 .written, .call (.sendStdin 7 false), .step 1 .full, .call (.kill 7)]
    (fun s => .kill 7 ∈ s.calls ∧ (s.advance .written (.kill 7)).isNone ∧
      ∀ c ∈ s.calls, (s.advance .full c).isNone) (by decide)

theorem State.Owned.set (h : s.Owned) (c' : Call) (hprocess : s'.process = s.process)
    (hstarted : s'.started = s.started)
    (hprocs : ∀ pid, s'.procs pid ≠ none → s.procs pid ≠ none ∨ pid ∈ s.started)
    (hkilled : .other ∉ s'.killed) (hinsert : ∀ n pid, c' ≠ .insert n pid)
    (hsignal : ∀ pid, c' = .signal pid → pid ∈ s.started) (i : Nat) :
    Owned { s' with calls := s.calls.set i c' } := by
  refine ⟨?_, fun pid hpid => ?_, fun n pid hmem => ?_, fun pid hmem => ?_, hkilled⟩
  · rw [hstarted, hprocess]
    exact h.process
  all_goals rw [hstarted]
  · exact (hprocs pid hpid).elim (h.procs pid) fun hmem => hmem
  · rcases mem_or_eq_of_mem_set hmem with hold | heq
    · exact h.insert n pid hold
    · exact absurd heq.symm (hinsert n pid)
  · exact (mem_or_eq_of_mem_set hmem).elim (h.signal pid) fun heq => hsignal pid heq.symm

theorem State.Owned.advance (h : s.Owned) (hc : c ∈ s.calls)
    (hadvance : s.advance w c = some (s', c')) (i : Nat) :
    Owned { s' with calls := s.calls.set i c' } := by
  have hsame : (s' = s ∨ ∃ n e, s' = s.setEntry n e) → (∀ n pid, c' ≠ .insert n pid) →
      (∀ pid, c' ≠ .signal pid) → Owned { s' with calls := s.calls.set i c' } := by
    rintro (rfl | ⟨n, e, rfl⟩) hinsert hsignal
    · exact h.set c' rfl rfl (fun _ => .inl) h.killed hinsert (fun pid heq => absurd heq (hsignal pid)) i
    · refine h.set c' ?_ ?_ (fun _ => ?_) ?_ hinsert (fun pid heq => absurd heq (hsignal pid)) i
      · rfl
      · rfl
      · exact .inl
      · exact h.killed
  cases c with
  | insert n pid =>
    obtain ⟨-, ⟨⟩⟩ := Option.ite_none_left_eq_some.mp hadvance
    refine h.set .done ?_ ?_ (fun p hp => ?_) ?_ nofun nofun i
    · rfl
    · rfl
    · by_cases heq : p = pid
      · exact .inr (heq ▸ h.insert n pid hc)
      · exact .inl (by simpa [heq] using hp)
    · exact h.killed
  | kill pid =>
    obtain ⟨-, hlocked⟩ := Option.ite_none_left_eq_some.mp hadvance
    simp only [locked, found] at hlocked
    split at hlocked
    case h_1 n hn =>
      cases hlocked
      refine h.set (.signal pid) rfl rfl (fun _ => .inl) h.killed nofun ?_ i
      rintro pid' ⟨⟩
      exact h.procs pid (by simp [hn])
    case h_2 =>
      cases hlocked
      exact hsame (.inl rfl) nofun nofun
  | signal pid =>
    simp only [State.advance] at hadvance
    split at hadvance
    case h_1 p hp =>
      cases hadvance
      refine h.set .done ?_ ?_ (fun _ => ?_) ?_ nofun nofun i
      · rfl
      · rfl
      · exact .inl
      -- the pid belongs to a process of `cmd_start`, or to none
      · rw [mem_cons, not_or]
        exact ⟨fun heq => h.process pid (h.signal pid hc) (heq ▸ hp), h.killed⟩
    case h_2 =>
      cases hadvance
      exact hsame (.inl rfl) nofun nofun
  | sendStdin | writing =>
    cases w
    all_goals apply hsame <;> grind [State.advance, locked, found, write]
  | _ => apply hsame <;> grind [State.advance, locked, found]

theorem owned (hreach : commands.Reach (fun s e => pidsKept s e = true) s) : s.Owned := by
  refine holds_of_reach (by constructor <;> simp) ?_ ?_ hreach
  · intro s i w c s' c' h _ hc hadvance
    exact h.advance (mem_of_getElem? hc) hadvance i
  intro s e h hkept hne
  cases e with
  | step i w => exact absurd rfl (hne i w)
  | other pid =>
    simp only [next]
    split
    case isFalse => exact h
    refine { h with process := fun q hq => ?_ }
    have hne : q ≠ pid := by
      rintro rfl
      exact of_decide_eq_true hkept hq
    simpa [setProcess, hne] using h.process q hq
  | _ =>
    -- no pid goes to another process, and a new call neither inserts nor signals but for a new
    -- process
    obtain ⟨hprocess, hprocs, hinsert, hsignal, hkilled⟩ := h
    constructor <;> grind [next, Call.begins, setProcess, setEntry]

/-- Where pids are kept, no process is killed but those of `cmd_start`. -/
theorem kills_own (s : State) (hreach : commands.Reach (fun s e => pidsKept s e = true) s) :
    .other ∉ s.killed := (owned hreach).killed

theorem kills_own_started : ∃ s, commands.Reach (fun s e => pidsKept s e = true) s ∧
    s.killed = [.child false] ∧ .other ∉ s.killed := by
  obtain ⟨s, hreach, hkilled⟩ := commands.reach_of_run pidsKept rfl
    [.start 7 false, .step 0 .written, .other 8, .call (.kill 7), .step 1 .written, .step 1 .written]
    (fun s => s.killed = [.child false]) (by decide)
  exact ⟨s, hreach, hkilled, kills_own s hreach⟩

theorem kills_other : ∃ s, commands.Reachable s ∧ .other ∈ s.killed :=
  commands.reachable_of_run rfl
    [.start 7 false, .step 0 .written, .exit 7, .reap 0, .other 7, .call (.kill 7), .step 1 .written,
      .step 1 .written]
    (fun s => .other ∈ s.killed) (by decide)

end Yuanrong.Rrt.Cmd
