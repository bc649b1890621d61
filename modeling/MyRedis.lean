import MyRedis.Lib.Decimal
import MyRedis.Lib.Streaming
import MyRedis.Lib.BoundedQueue
import MyRedis.Lib.Tagged
import MyRedis.Lib.TransitionSystem
import MyRedis.Lib.Deadline
import MyRedis.Lib.Registry
import MyRedis.Lib.Service
import MyRedis.Model.Prelude
import MyRedis.Model.RespValue
import MyRedis.Model.RespValueQueue
import MyRedis.Model.Connection
import MyRedis.Model.Store
import MyRedis.Model.Dispatcher
import MyRedis.Model.Serialise
import MyRedis.Model.Server
import MyRedis.Model.PubSubChannels
import MyRedis.Model.PubSubCalls
import MyRedis.Model.Requests
import MyRedis.Model.HandlerDispatcher
import MyRedis.Analysis.RespParser
import MyRedis.Analysis.StoreKeys
import MyRedis.Analysis.RespStability
import MyRedis.Analysis.RespRoundTrip
import MyRedis.Analysis.RespFront
import MyRedis.Analysis.RespLayout
import MyRedis.Analysis.RespReencoding
import MyRedis.Analysis.NumberText
import MyRedis.Analysis.RespGrammar
import MyRedis.Analysis.RespCompletion
import MyRedis.Analysis.QueueChunking
import MyRedis.Analysis.PacketBoundaries
import MyRedis.Analysis.ReplyFraming
import MyRedis.Analysis.ExpiryPurge
import MyRedis.Analysis.SnapshotRoundTrip
import MyRedis.Analysis.Protocol
import MyRedis.Analysis.Simulation
import MyRedis.Analysis.Ownership
import MyRedis.Analysis.ReplyIsolation
import MyRedis.Analysis.RoutingTable
import MyRedis.Analysis.SerialEquivalence
import MyRedis.Analysis.MutualBlocking
import MyRedis.Analysis.Wakeups
import MyRedis.Analysis.Handlers
import MyRedis.Analysis.DispatchSafety
import MyRedis.Analysis.KeyLocality
import MyRedis.Analysis.RingFifo
import MyRedis.Analysis.ProbingRefinement
import MyRedis.Analysis.ChainedRefinement
import MyRedis.Analysis.StripeCover
import MyRedis.Analysis.LatestSnapshot
import MyRedis.Analysis.SnapshotOrder
import MyRedis.Analysis.CrashConsistency
import MyRedis.Analysis.ExecutorOrder
import MyRedis.Analysis.ExecutorExclusion
import MyRedis.Analysis.ExpireOptions
import MyRedis.Analysis.RemainingTime
import MyRedis.Analysis.DeadlineArithmetic
import MyRedis.Analysis.ChannelRegistry
import MyRedis.Analysis.SubscriptionCounts
import MyRedis.Analysis.ConcurrentSubscriptions
import MyRedis.Analysis.UninterruptedCalls
import MyRedis.Analysis.RequestGuards
import MyRedis.Analysis.VersionAgreement
import MyRedis.Analysis.RequestEffects
import MyRedis.Analysis.GuardAgreement
import MyRedis.Analysis.ProbeChain
import MyRedis.Analysis.ParserBounds
import MyRedis.Analysis.ClientQuoting
import MyRedis.Analysis.DisabledSnapshots
import MyRedis.Analysis.SnapshotReader
import MyRedis.Analysis.RestoreGate
import MyRedis.Analysis.SnapshotGrammar
import MyRedis.Analysis.PartialWrites
import MyRedis.Analysis.ClientSessions
import MyRedis.Analysis.Recovery
import MyRedis.Analysis.BlockingQueue
import MyRedis.Analysis.RingMemoryOrder
import MyRedis.Analysis.InteractiveSession
import MyRedis.Analysis.StripedCalls
import MyRedis.Analysis.Settling
import MyRedis.Analysis.Reaping
import MyRedis.Analysis.SingleWorker
import MyRedis.Analysis.ServersAgree
