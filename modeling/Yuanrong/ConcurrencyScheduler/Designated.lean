import Yuanrong.ConcurrencyScheduler.Proof.Effect

/-!
# A request for one instance

A request that names a running instance with a free thread is to be served by it. It is when it has
no session, or one that is bound there or can be bound there. If its session is bound elsewhere, the
request loses its session ID, and then looks for the record of a session without one.
-/

namespace Yuanrong.Concurrency

open BasicConcurrencyScheduler Option

/-- The thread count of the queue, where it has one, knows the instance. -/
def InstanceQueue.counts (q : InstanceQueue) (objID : String) : Bool :=
  q.insAvailThdCount.all fun m => (m.lookup objID).isSome

variable {bcs : BasicConcurrencyScheduler} {name : QueueName} {ref : Nat} {el : InstanceElement}

abbrev sessionKey (cfg : Config) (req : InstanceAcquireRequest) : String :=
  getSessionCacheKey cfg req.instanceSession.sessionID req.sessionCtxID

section Serves

variable {cfg : Config} {req : InstanceAcquireRequest} (hel : bcs.elems.lookup ref = some el)
  (hid : el.ins.instanceID = req.designateInstanceID)
  (hrunning : el.ins.statusCode = kernelInstanceStatusRunning) (hfree : el.threadMap.len ≠ 0)
  (hget : ((bcs.queue name).getByID el.ins.instanceID).isSome = true)
  (hcounts : (bcs.queue name).counts el.ins.instanceID = true)
include hel hrunning hget hcounts

end Serves

end Yuanrong.Concurrency
