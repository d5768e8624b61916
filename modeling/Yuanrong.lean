import Yuanrong.LiteScheduler.Capacity
import Yuanrong.LiteScheduler.Conservation
import Yuanrong.LiteScheduler.IdleExpiry
import Yuanrong.LiteScheduler.LeaseRenewal
import Yuanrong.LiteScheduler.Reacquire
import Yuanrong.LiteScheduler.Reclaiming
import Yuanrong.LiteScheduler.Rotation
import Yuanrong.ConcurrencyScheduler.SessionExpiry
import Yuanrong.ConcurrencyScheduler.OwnershipChange
import Yuanrong.ConcurrencyScheduler.Designated
import Yuanrong.ConcurrencyScheduler.ThreadConservation
import Yuanrong.RequestQueue.TimeoutSweep
import Yuanrong.AutoScaler.ScaleTrigger
import Yuanrong.Lease.Generations
import Yuanrong.SessionStore.StopDrains
import Yuanrong.SessionContextManager.ForkExact
import Yuanrong.SessionContextManager.DeleteComplete
import Yuanrong.Libruntime.OrderedStart
import Yuanrong.Libruntime.StreamOrder
import Yuanrong.Libruntime.ReferenceRelease
import Yuanrong.Libruntime.DependencyResolution
import Yuanrong.Libruntime.WaitPartition
import Yuanrong.Libruntime.RequestEnd
import Yuanrong.Libruntime.ReferenceTaking
import Yuanrong.ConcurrencyScheduler.SpuriousRefusal
import Yuanrong.ConcurrencyScheduler.OnePlace
import Yuanrong.Libruntime.LoadBalancer
import Yuanrong.Tunnel.EnvelopeFormat
import Yuanrong.Libruntime.RenewCoverage
import Yuanrong.Libruntime.InstanceIds
import Yuanrong.Libruntime.InflightBalance
import Yuanrong.LoadBalance.HashRing
import Yuanrong.Rrt.ValueCodec
import Yuanrong.Rrt.MessageStream
import Yuanrong.Rrt.FileChunks
import Yuanrong.PriorityQueue.MaxMinOrder
import Yuanrong.Libruntime.LargeResults
import Yuanrong.Libruntime.EventStream
import Yuanrong.Libruntime.SchedulerManager
import Yuanrong.Libruntime.OrderMinimum
import Yuanrong.Tunnel.Reconnect
import Yuanrong.Libruntime.RequestAttempts
import Yuanrong.Rrt.Activity
import Yuanrong.StateLeaser
import Yuanrong.Libruntime.FunctionGroup
import Yuanrong.SignalManager
import Yuanrong.Libruntime.SessionWait
import Yuanrong.AutoScaler.CreateQueue
import Yuanrong.Rrt.Cmd
