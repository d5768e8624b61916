import Yuanrong.Lib.StepSystem
import Yuanrong.ConcurrencyScheduler.Scheduler

/-!
# The running concurrency scheduler

An event is one section under the scheduler's lock, or one step of a goroutine that expires a
session outside of it: the firing of its timer, the receipt of the cancel token, the store of
`expiring`. Every allocation with a lease is given back once, by its client or when the lease
expires. A timer fires at any time.
-/

namespace Yuanrong.Concurrency

open BasicConcurrencyScheduler

/-- What a request still has to do: the last section of an acquire, or the locked part of an
instance update. -/
inductive Pc
  | acquire (req : InstanceAcquireRequest) (resolved : Bool)
  | instanceUpdate (insQue : QueueName) (ins : Instance) (threadIDPrefix : String)
deriving DecidableEq

/-- `allocs` are the allocations that have been handed out, `ring` the schedulers that are known. -/
structure System where
  bcs : BasicConcurrencyScheduler
  allocs : FinMap Nat InstanceAllocation
  threads : FinMap Nat Pc
  ring : List String

inductive Event
  | acquire (tid : Nat) (req : InstanceAcquireRequest)
  | resume (tid : Nat) (choice : Choice)
  | release (alloc : Nat)
  | timer (g : Nat)
  | expire (g : Nat) (order : List String)
  | cancel (g : Nat)
  | store (g : Nat)
  | addInstance (ins : Instance) (threadIDPrefix : String)
  | delInstance (ins : Instance)
  | instanceUpdate (tid : Nat) (ins : Instance) (threadIDPrefix : String)
  | ownerUpdate (isFuncOwner : Bool)
  | ringChange (ring : List String)
deriving DecidableEq

structure Label where
  reply : Option (Except SchedulerError InstanceAllocation) := none

namespace System

variable (cfg : Config) (s : System)

/-- A goroutine that waits for a token holds the lock for good. -/
def deadlocked : Bool := s.bcs.unbinds.entries.any fun entry => entry.2.pc = .blocked

def locked (result : Option (System × Label)) : Option (System × Label) :=
  if s.deadlocked then none else result

def beginAcquire (req : InstanceAcquireRequest) : Pc :=
  if noNeedQuerySession req then
    .acquire req true
  else
    match s.bcs.peekLocalSession
        (getSessionCacheKey cfg req.instanceSession.sessionID req.sessionCtxID) req with
    | some req => .acquire req true
    | none => .acquire req false

def answer (tid : Nat) (result : BasicConcurrencyScheduler × Except SchedulerError InstanceAllocation) :
    System × Label :=
  let allocs :=
    match result.2 with
    | .ok alloc => s.allocs.insert result.1.nextRef alloc
    | .error _ => s.allocs
  ({ s with
     bcs := { result.1 with nextRef := result.1.nextRef + 1 }
     allocs
     threads := s.threads.erase tid }, { reply := some result.2 })

def resume (tid : Nat) (choice : Choice) : Option (System × Label) :=
  match s.threads.lookup tid with
  | none => none
  | some (.acquire req resolved) =>
    some (s.answer tid (s.bcs.acquireResolved cfg req resolved choice))
  | some (.instanceUpdate insQue ins threadIDPrefix) =>
    some ({ s with
      bcs := s.bcs.handleInstanceUpdate insQue ins threadIDPrefix
      threads := s.threads.erase tid }, {})

def release (alloc : Nat) : Option (System × Label) :=
  match s.allocs.lookup alloc with
  | none => none
  | some insAlloc =>
    some ({ s with
      bcs := (s.bcs.releaseInstanceInternal cfg (s.bcs.queueOf cfg s.ring insAlloc.ins) insAlloc).1
      allocs := s.allocs.erase alloc }, {})

def unbindStep (g : Nat) (pc : UnbindPc) (f : Unbind → Option BasicConcurrencyScheduler) :
    Option (System × Label) :=
  match s.bcs.unbinds.lookup g with
  | none => none
  | some u => if u.pc = pc then (f u).map fun bcs => ({ s with bcs }, {}) else none

def timer (g : Nat) : Option (System × Label) :=
  s.unbindStep g .selecting fun u =>
    some { s.bcs with unbinds := s.bcs.unbinds.insert g { u with pc := .timerFired } }

def cancel (g : Nat) : Option (System × Label) :=
  s.unbindStep g .selecting fun u =>
    match s.bcs.records.lookup u.record with
    | none => none
    | some r =>
      if r.expireCancelCh then
        some { s.bcs.setRecord u.record { r with expireCancelCh := false } with
          unbinds := s.bcs.unbinds.insert g { u with pc := .cancelled } }
      else
        none

def store (g : Nat) : Option (System × Label) :=
  s.unbindStep g .cancelled fun u =>
    match s.bcs.records.lookup u.record with
    | none => none
    | some r =>
      some { s.bcs.setRecord u.record { r with expiring := false } with
        unbinds := s.bcs.unbinds.erase g }

def step : Event → Option (System × Label)
  | .acquire tid req =>
    s.locked (if s.threads.lookup tid = none then
      some ({ s with threads := s.threads.insert tid (s.beginAcquire cfg req) }, {}) else none)
  | .resume tid choice => s.locked (s.resume cfg tid choice)
  | .release alloc => s.locked (s.release cfg alloc)
  | .timer g => s.timer g
  | .expire g order =>
    s.locked (s.unbindStep g .timerFired fun u => some (s.bcs.unbindExpired cfg g u order))
  | .cancel g => s.cancel g
  | .store g => s.store g
  | .addInstance ins threadIDPrefix =>
    s.locked (some ({ s with bcs := s.bcs.addInstance cfg s.ring ins threadIDPrefix }, {}))
  | .delInstance ins => s.locked (some ({ s with bcs := s.bcs.delInstance cfg s.ring ins }, {}))
  | .instanceUpdate tid ins threadIDPrefix =>
    if s.threads.lookup tid = none then
      some ({ s with
        threads := s.threads.insert tid
          (.instanceUpdate (s.bcs.queueOf cfg s.ring ins) ins threadIDPrefix) }, {})
    else
      none
  | .ownerUpdate isFuncOwner =>
    s.locked (some ({ s with bcs := s.bcs.handleFuncOwnerUpdate cfg s.ring isFuncOwner }, {}))
  | .ringChange ring => some ({ s with ring }, {})

structure Init : Prop where
  selfInstanceQueue : s.bcs.selfInstanceQueue = { insAvailThdCount := some ∅ }
  otherInstanceQueue : s.bcs.otherInstanceQueue = {}
  sessionMap : s.bcs.sessionMap = ∅
  elems : s.bcs.elems = ∅
  records : s.bcs.records = ∅
  unbinds : s.bcs.unbinds = ∅
  allocs : s.allocs = ∅
  threads : s.threads = ∅

end System

def scheduler (cfg : Config) : StepSystem System Event Label where
  init := System.Init
  step := System.step cfg

def System.created (isFuncOwner : Bool) : System where
  bcs :=
    { selfInstanceQueue := { insAvailThdCount := some ∅ }
      otherInstanceQueue := {}
      sessionMap := ∅
      isFuncOwner
      elems := ∅
      records := ∅
      unbinds := ∅
      nextRef := 0 }
  allocs := ∅
  threads := ∅
  ring := []

theorem System.init_created (isFuncOwner : Bool) : (System.created isFuncOwner).Init := by
  constructor <;> rfl

theorem reach_of_run (cfg : Config) (ok : System → Event → Bool) (isFuncOwner : Bool) (es : List Event)
    (P : System → Prop) [DecidablePred P]
    (hany : ((scheduler cfg).execIf (fun s e => ok s e = true) (System.created isFuncOwner) es).any
      (P ·) = true) : ∃ s, (scheduler cfg).Reach (fun s e => ok s e = true) s ∧ P s :=
  StepSystem.Reach.exists_of_any (.start (System.init_created isFuncOwner)) hany

theorem reachable_of_run (cfg : Config) (isFuncOwner : Bool) (es : List Event) (P : System → Prop)
    [DecidablePred P] (hany : ((scheduler cfg).exec (System.created isFuncOwner) es).any (P ·) = true) :
    ∃ s, (scheduler cfg).Reachable s ∧ P s :=
  StepSystem.Reach.exists_of_any (.start (System.init_created isFuncOwner)) hany

def plainConfig : Config where
  enableSessionCtx := false
  enableAgentSession := false
  concurrentNum := 2
  schedulerName := "a"

def plainInstance (instanceID : String) (concurrentNum : Int) : Instance where
  instanceID
  concurrentNum
  statusCode := kernelInstanceStatusRunning

def plainRequest (sessionID : String) (concurrency : Int) : InstanceAcquireRequest where
  instanceSession := { sessionID, concurrency }

end Yuanrong.Concurrency
