import Yuanrong.Lib.StepSystem
import Yuanrong.LiteScheduler.Operation

/-!
# The running scheduler

All goroutines over one scheduler: any number of requests, the ticker and the wheel, the loop that
reaps expired allocations, the idle-unbind timers, the instance and ring event loops and the idle
scan. An event is one critical section of one of them. The functions and their specifications stay
what they are.
-/

namespace Yuanrong.Lite

open TimeWheel

structure System where
  ls : LiteScheduler
  threads : FinMap Nat Pc

/-- What is seen of a step: the allocation it hands out, the one the reaper deletes, the answer. -/
structure Label where
  granted : Option Allocation := none
  reaped : Option Allocation := none
  reply : Option InstanceResponse := none
deriving DecidableEq

inductive Event
  | acquire (tid : Nat) (req : LiteRequest)
  | release (tid : Nat) (allocID : String)
  | retain (tid : Nat) (allocID : String) (metrics : Option ReacquireData) (owner : Option String)
  | run (tid : Nat) (choice : Choice)
  | tick (order : List String)
  | wait
  | reap
  | timerLaunch (funcKey : String) (ref : Nat)
  | timerFire (funcKey : String) (ref : Nat)
  | instanceUpdate (funcKey : String) (ins : Instance)
  | instanceDelete (funcKey instanceID : String)
  | scanIdle (funcKey : String) (ring : RingView) (scanTime : Nat)
  | idleReport (item : IdleInstance) (delivered : Bool)
  | ringChange (funcKey : String) (ring : RingView)
  | elapse (d : Nat)

/-- The goroutine of `processExpiryEvents`; requests use the other numbers. -/
def reaperTid : Nat := 0

def readyChan : Nat := 10

namespace LiteScheduler

variable (cfg : Config) (ls : LiteScheduler)

def advance (pc : Pc) (choice : Choice) : Option Outcome :=
  match pc with
  | .sticky req => (ls.getPool req.funcKey).map fun pool => tryLocalSticky cfg ls pool req
  | .dispatch req =>
    (ls.getPool req.funcKey).bind fun pool =>
      if choice.order.isPerm pool.instances.keys then
        some (acquireDispatchOrColdStart cfg ls pool req choice)
      else
        none
  | .coldStart req => some (handleColdStart cfg ls req choice)
  | .poll req deadline =>
    (ls.getPool req.funcKey).bind fun pool =>
      if choice.order.isPerm pool.instances.keys then
        some (tryPollDispatch cfg ls pool req deadline choice)
      else
        none
  | .removeTask alloc =>
    some (.goto (ls.removeExpiryTask alloc.allocationID) (.releaseSlot alloc))
  | .releaseSlot alloc => some (releaseInPool cfg ls alloc)
  | .snapshotSlot alloc unbind => some (snapshotSlot cfg ls alloc unbind)
  | .reapSlot alloc => some (reapInPool ls alloc)
  | .startTimer funcKey sessionKey sessionTTL reply =>
    some (startUnbindTimer ls funcKey sessionKey sessionTTL reply)
  | .validateRetain allocID funcKey instanceID =>
    some (validateRetainTarget ls allocID funcKey instanceID)
  | .dropAlloc allocID reply =>
    some (.goto { ls with allocations := ls.allocations.erase allocID } (.dropTask allocID reply))
  | .dropTask allocID reply => some (.answer (ls.removeExpiryTask allocID) reply)
  | .refresh allocID slot => some (refreshRetainTTL cfg ls allocID slot)
  | .updateTask allocID reply => some (.answer (updateExpiryTask cfg ls allocID) reply)
  | .reacquire params =>
    (ls.getPool params.funcKey).map fun pool => reacquireLocked cfg ls pool params

def poolEvent (funcKey : String) (f : LiteFunctionPool → LiteScheduler) : Option LiteScheduler :=
  (ls.getPool funcKey).map f

/-- What fires goes to the ready channel, on which the wheel blocks when it is full. -/
def tickWheel (order : List String) : Option LiteScheduler :=
  if ls.tickPending ∧ ls.ready.length ≤ readyChan ∧ order.isPerm ls.expiryWheel.fired then
    some { ls with
      expiryWheel := ls.expiryWheel.tick
      tickPending := false
      ready := if order = [] then ls.ready else ls.ready ++ [order] }
  else
    none

/-- The ticker's channel holds one tick; the ticks it has no room for are dropped. -/
def elapse (d : Nat) : LiteScheduler :=
  { ls with
    now := ls.now + d
    tickPending := ls.tickPending ||
      decide (ls.now / ls.expiryWheel.pace < (ls.now + d) / ls.expiryWheel.pace) }

def launchTimer (funcKey : String) (ref : Nat) : Option LiteScheduler :=
  (ls.getPool funcKey).bind fun pool =>
    (pool.timers.lookup ref).bind fun timer =>
      if timer.launched = false ∧ timer.deadline ≤ ls.now then
        some (ls.setPool funcKey
          { pool with timers := pool.timers.insert ref { timer with launched := true } })
      else
        none

def fireTimer (funcKey : String) (ref : Nat) : Option LiteScheduler :=
  (ls.getPool funcKey).bind fun pool =>
    (pool.timers.lookup ref).bind fun timer =>
      if timer.launched then some (ls.setPool funcKey (pool.fireSessionUnbind ref timer)) else none

/-- The delivery of a reported idle instance. A failed one lets the instance take work again. -/
def finishIdleReport (item : IdleInstance) (delivered : Bool) : Option LiteScheduler :=
  if item ∈ ls.reports then
    let rest := { ls with reports := ls.reports.erase item }
    match delivered, ls.getPool item.funcKey with
    | false, some pool => some (rest.setPool item.funcKey (pool.resetReclaiming item.instanceID))
    | _, _ => some rest
  else
    none

end LiteScheduler

namespace System

variable (cfg : Config) (s : System)

def setThread (tid : Nat) (next : Option Pc) : FinMap Nat Pc :=
  match next with
  | some pc => s.threads.insert tid pc
  | none => s.threads.erase tid

def finish (tid : Nat) (o : Outcome) : System × Label :=
  ({ ls := o.ls, threads := s.setThread tid o.next }, { granted := o.granted, reply := o.reply })

def spawn (tid : Nat) (o : Outcome) : Option (System × Label) :=
  if tid ≠ reaperTid ∧ s.threads.lookup tid = none then some (s.finish tid o) else none

def background (ls : Option LiteScheduler) : Option (System × Label) :=
  ls.map fun ls => ({ s with ls }, {})

def reapExpiredAllocation : Option (System × Label) :=
  if s.threads.lookup reaperTid = none then
    match s.ls.batch with
    | [] => none
    | allocID :: rest =>
      match s.ls.allocations.lookup allocID with
      | none => some ({ s with ls := { s.ls with batch := rest } }, {})
      | some alloc =>
        some
          ({ ls := { s.ls with batch := rest, allocations := s.ls.allocations.erase allocID }
             threads := s.threads.insert reaperTid (.reapSlot alloc) }, { reaped := some alloc })
  else
    none

def step (e : Event) : Option (System × Label) :=
  match e with
  | .acquire tid req => s.spawn tid (s.ls.handleAcquire req)
  | .release tid allocID => s.spawn tid (s.ls.handleRelease allocID)
  | .retain tid allocID metrics owner =>
    s.spawn tid (LiteScheduler.handleRetain cfg s.ls allocID metrics owner)
  | .run tid choice =>
    (s.threads.lookup tid).bind fun pc =>
      (LiteScheduler.advance cfg s.ls pc choice).map fun o => s.finish tid o
  | .tick order => s.background (s.ls.tickWheel order)
  | .wait =>
    match s.threads.lookup reaperTid, s.ls.batch, s.ls.ready with
    | none, [], list :: rest =>
      some ({ s with ls := { s.ls with batch := list, ready := rest } }, {})
    | _, _, _ => none
  | .reap => s.reapExpiredAllocation
  | .timerLaunch funcKey ref => s.background (s.ls.launchTimer funcKey ref)
  | .timerFire funcKey ref => s.background (s.ls.fireTimer funcKey ref)
  | .instanceUpdate funcKey ins =>
    s.background (s.ls.poolEvent funcKey fun pool => s.ls.handleInstanceUpdate funcKey pool ins)
  | .instanceDelete funcKey instanceID =>
    s.background (s.ls.poolEvent funcKey fun pool =>
      s.ls.removeInstanceLocked funcKey pool instanceID)
  | .scanIdle funcKey ring scanTime =>
    s.background (s.ls.poolEvent funcKey fun pool =>
      { s.ls.setPool funcKey (pool.scanIdle ring scanTime) with
        reports := s.ls.reports ++ pool.idleReport ring scanTime })
  | .idleReport item delivered => s.background (s.ls.finishIdleReport item delivered)
  | .ringChange funcKey ring =>
    s.background (s.ls.poolEvent funcKey fun pool => s.ls.setPool funcKey (pool.ringChange ring))
  | .elapse d => some ({ s with ls := s.ls.elapse d }, {})

structure Init : Prop where
  pools : ∀ funcKey pool, s.ls.pools.lookup funcKey = some pool →
    ∃ spec, pool = newPool funcKey spec
  allocations : s.ls.allocations = ∅
  expiryWheel : s.ls.expiryWheel = newSimpleTimeWheel liteExpiryScanPace liteExpiryScanSlots
  tickPending : s.ls.tickPending = false
  ready : s.ls.ready = []
  batch : s.ls.batch = []
  threads : s.threads = ∅

end System

def scheduler (cfg : Config) : StepSystem System Event Label where
  init := System.Init
  step := System.step cfg

def deploy (specs : List (String × FunctionSpecification)) : FinMap String LiteFunctionPool :=
  specs.foldr (fun spec pools => pools.insert spec.1 (newPool spec.1 spec.2)) ∅

def System.started (specs : List (String × FunctionSpecification)) : System where
  ls :=
    { pools := deploy specs
      allocations := ∅
      expiryWheel := newSimpleTimeWheel liteExpiryScanPace liteExpiryScanSlots
      tickPending := false
      ready := []
      batch := []
      reports := []
      now := 0 }
  threads := ∅

theorem lookup_deploy (hpool : (deploy specs).lookup f = some pool) : ∃ spec, pool = newPool f spec := by
  induction specs with
  | nil => cases hpool
  | cons spec _ ih =>
    rw [deploy, List.foldr_cons] at hpool
    rcases AList.lookup_of_insert hpool with ⟨rfl, rfl⟩ | hold
    · exact ⟨spec.2, rfl⟩
    · exact ih hold

theorem System.init_started (specs : List (String × FunctionSpecification)) :
    (System.started specs).Init where
  pools _ _ hpool := lookup_deploy hpool
  allocations := rfl
  expiryWheel := rfl
  tickPending := rfl
  ready := rfl
  batch := rfl
  threads := rfl

theorem reach_of_run (cfg : Config) (ok : System → Event → Bool)
    (specs : List (String × FunctionSpecification)) (es : List Event) (P : System → Prop) [DecidablePred P]
    (hany : ((scheduler cfg).execIf (fun s e => ok s e = true) (System.started specs) es).any (P ·) = true) :
    ∃ s, (scheduler cfg).Reach (fun s e => ok s e = true) s ∧ P s :=
  StepSystem.Reach.exists_of_any (.start (System.init_started specs)) hany

theorem reachable_of_run (cfg : Config) (specs : List (String × FunctionSpecification))
    (es : List Event) (P : System → Prop) [DecidablePred P]
    (hany : ((scheduler cfg).exec (System.started specs) es).any (P ·) = true) :
    ∃ s, (scheduler cfg).Reachable s ∧ P s :=
  StepSystem.Reach.exists_of_any (.start (System.init_started specs)) hany

def plainHash : SessionHash where
  sessionHash s := String.ofList (s.toList.filter (· ≠ ':'))
  colon_notMem s := by simp

def plainConfig : Config where
  hash := plainHash
  leaseSpan := 1000
  acquireWaitTimeoutMs := 1000
  enable := true
  enableAllTenants := true
  enabledTenants := []
  enabledFunctions := []

def plainSpec : FunctionSpecification where
  enableSessionCtx := false
  concurrentNum := 4
  schedulePolicy := ""

def plainRequest (session : String) : LiteRequest where
  funcKey := "t/f/1"
  tenantID := "t"
  sessionID := session
  sessionCtxID := ""
  sessionTTL := 1
  concurrency := 2

def plainInstance (id : String) (concurrentNum : Int) : Instance where
  instanceID := id
  funcKey := "t/f/1"
  concurrentNum := concurrentNum
  statusCode := 3

def plainReacquireData (session : String) (concurrency : Int) : ReacquireData where
  functionKey := "t/f/1"
  sessionID := session
  sessionCtxID := ""
  sessionTTL := 1
  concurrency := concurrency

end Yuanrong.Lite
