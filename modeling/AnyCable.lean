import AnyCable.Lib.Run
import AnyCable.Lib.GoMap
import AnyCable.Lib.Shards
import AnyCable.Lib.Slice
import AnyCable.Lib.Texts
import AnyCable.Lib.Decimal
import AnyCable.Lib.Untyped
import AnyCable.Lib.Float64
import AnyCable.Lib.Base64
import AnyCable.Lib.Pending
import AnyCable.Lib.Attendance
import AnyCable.Lib.Memo
import AnyCable.Lib.Lines
import AnyCable.Lib.Json
import AnyCable.Lib.EventStream
import AnyCable.Lib.JsonParse
import AnyCable.Lib.Unmarshal
import AnyCable.Lib.Numbered
import AnyCable.Source.Common
import AnyCable.Source.SubscriptionState
import AnyCable.Source.Clock
import AnyCable.Source.Tracker
import AnyCable.Source.Memstream
import AnyCable.Source.StreamLog
import AnyCable.Source.History
import AnyCable.Source.HistoryLog
import AnyCable.Source.Gate
import AnyCable.Source.Hub
import AnyCable.Source.HubEdits
import AnyCable.Source.HubLoops
import AnyCable.Source.Delivery
import AnyCable.Source.InFlight
import AnyCable.Source.Fanout
import AnyCable.Source.Session
import AnyCable.Source.Presence
import AnyCable.Source.Broker
import AnyCable.Source.Node
import AnyCable.Source.NodeEffects
import AnyCable.Source.ReplyEffects
import AnyCable.Source.StreamChanges
import AnyCable.Source.System
import AnyCable.Source.SystemSteps
import AnyCable.Source.GateGains
import AnyCable.Source.SessionCache
import AnyCable.Source.Holders
import AnyCable.Source.Lru
import AnyCable.Source.Encoders
import AnyCable.Source.Structs
import AnyCable.Source.PubSubMessages
import AnyCable.Source.NodeBroadcasts
import AnyCable.Source.PingTimer
import AnyCable.Source.RpcRetry
import AnyCable.Source.SseRequest
import AnyCable.Source.StreamsController
import AnyCable.Source.Router
import AnyCable.Source.Transmissions
import AnyCable.Source.PresenceRequest
import AnyCable.Source.RpcRequests
import AnyCable.Source.Signing
import AnyCable.Guarantees.PingSchedule
import AnyCable.Guarantees.Positions
import AnyCable.Guarantees.LookupAppend
import AnyCable.Guarantees.SubscribeHistory
import AnyCable.Guarantees.DeliveryOrder
import AnyCable.Guarantees.TrackerRace
import AnyCable.Guarantees.SessionRemoval
import AnyCable.Guarantees.SessionRestore
import AnyCable.Guarantees.CutOff
import AnyCable.Guarantees.ReleasedStreams
import AnyCable.Guarantees.ClusterDelivery
import AnyCable.Guarantees.ClosedSession
import AnyCable.Guarantees.DisconnectOnce
import AnyCable.Guarantees.ExactlyOnce
import AnyCable.Guarantees.Registries
import AnyCable.Guarantees.HistoryLimit
import AnyCable.Guarantees.HistoryReplies
import AnyCable.Guarantees.IdentifierIndex
import AnyCable.Guarantees.GateCleanup
import AnyCable.Guarantees.Sharding
import AnyCable.Guarantees.CacheFreshness
import AnyCable.Guarantees.LosslessRestore
import AnyCable.Guarantees.PresenceTables
import AnyCable.Guarantees.PresenceEvents
import AnyCable.Guarantees.PresenceMessages
import AnyCable.Guarantees.Epochs
import AnyCable.Guarantees.NatsBacklog
import AnyCable.Guarantees.StreamConsumers
import AnyCable.Guarantees.NatsSessions
import AnyCable.Guarantees.ResumePosition
import AnyCable.Guarantees.RetryBudget
import AnyCable.Guarantees.SessionExpiry
import AnyCable.Guarantees.EncodingCache
import AnyCable.Guarantees.EventFraming
import AnyCable.Guarantees.PublishedData
import AnyCable.Guarantees.RedisSubscriptions
import AnyCable.Guarantees.NatsSubscriptions
import AnyCable.Guarantees.InternalChannel
import AnyCable.Guarantees.BroadcasterShutdown
import AnyCable.Guarantees.ReferenceCounts
import AnyCable.Guarantees.ChannelStreams
import AnyCable.Guarantees.SessionLock
import AnyCable.Guarantees.MissedSuffix
import AnyCable.Guarantees.MissingMessages
import AnyCable.Guarantees.NumberedStreams
import AnyCable.Guarantees.DirectStreams
import AnyCable.Guarantees.WireMessages
import AnyCable.Guarantees.TransmittedMessages
import AnyCable.Guarantees.PresenceReplies
import AnyCable.Guarantees.SignedMessages
import AnyCable.Guarantees.Establishment
import AnyCable.Guarantees.GateOrder
import AnyCable.Guarantees.CachedValues
import AnyCable.Guarantees.IntervalSums
import AnyCable.Guarantees.RecordLifetime
import AnyCable.Guarantees.OriginChecks
import AnyCable.Source.GoPool
import AnyCable.Guarantees.PoolService
import AnyCable.Lib.Heap
import AnyCable.Source.PriorityQueue
import AnyCable.Guarantees.MutableHeap
import AnyCable.Guarantees.CookieFilter
import AnyCable.Source.StreamSync
import AnyCable.Guarantees.HistorySync
import AnyCable.Lib.Overlay
import AnyCable.Source.EnvMerge
import AnyCable.Guarantees.StateMerging
import AnyCable.Guarantees.ResubscribeBatches
import AnyCable.Lib.Ticker
import AnyCable.Guarantees.DisconnectRate
import AnyCable.Lib.JsonTemplate
import AnyCable.Source.Identity
import AnyCable.Guarantees.ClientIdentity
import AnyCable.Guarantees.SessionLaws
import AnyCable.Guarantees.GrantedStreams
import AnyCable.Guarantees.ChannelStates
