import EliteHubVault.Library.Runs
import EliteHubVault.Library.Table
import EliteHubVault.Library.Upserts
import EliteHubVault.Library.ChangeLog
import EliteHubVault.Library.Correspondence
import EliteHubVault.Library.OrderedMap
import EliteHubVault.Library.SortedSets
import EliteHubVault.Library.InvertedIndex
import EliteHubVault.Library.Ranking
import EliteHubVault.Library.Alternation
import EliteHubVault.Library.Result
import EliteHubVault.Platform.Uuid
import EliteHubVault.Platform.Json
import EliteHubVault.Platform.JsonText
import EliteHubVault.Platform.Ascii
import EliteHubVault.Database.Schema
import EliteHubVault.Database.Triggers
import EliteHubVault.ControlThreat.Specification
import EliteHubVault.ControlThreat.Maintenance
import EliteHubVault.ControlThreat.Recomputation
import EliteHubVault.ControlThreat.Reconstruction
import EliteHubVault.Worker.Constants
import EliteHubVault.Worker.Messages
import EliteHubVault.Worker.Systems
import EliteHubVault.Worker.Powerplay
import EliteHubVault.Worker.Factions
import EliteHubVault.Worker.Stations
import EliteHubVault.Worker.Events
import EliteHubVault.Worker.Frames
import EliteHubVault.Worker.Outbox
import EliteHubVault.Worker.Settled
import EliteHubVault.Worker.SettledFactions
import EliteHubVault.Worker.Replay
import EliteHubVault.Worker.Phases
import EliteHubVault.Worker.NetThreat
import EliteHubVault.Relay.Realtime
import EliteHubVault.Relay.Rows
import EliteHubVault.Relay.Batches
import EliteHubVault.Relay.NoLoss
import EliteHubVault.Relay.Order
import EliteHubVault.Relay.Site
import EliteHubVault.Sse.EventRegistry
import EliteHubVault.Sse.ReadBack
import EliteHubVault.Sse.RedisSubscriptionManager
import EliteHubVault.Sse.KeyState
import EliteHubVault.Sse.KeyRefinement
import EliteHubVault.Sse.Reconnect
import EliteHubVault.Sse.SseBroker
import EliteHubVault.Sse.Wiring
import EliteHubVault.Sse.FanOut
import EliteHubVault.Sse.DemandAccounting
import EliteHubVault.Sse.Disposal
import EliteHubVault.Sse.SseService
import EliteHubVault.Sse.QuotaRelease
import EliteHubVault.Lifecycle.Signals
import EliteHubVault.Lifecycle.WorkerSignals
import EliteHubVault.Lifecycle.Subscriber
import EliteHubVault.Lifecycle.StateEvents
import EliteHubVault.Lifecycle.ConflictEvents
import EliteHubVault.Relay.Publishable
import EliteHubVault.Worker.Mirror
import EliteHubVault.Lifecycle.ConflictSides
import EliteHubVault.Relay.PowerplayReach
import EliteHubVault.Worker.PowerplayPicture
import EliteHubVault.Worker.LastMessage
import EliteHubVault.Worker.StationIdentity
import EliteHubVault.Worker.StrongholdCarriers
import EliteHubVault.Worker.FactionNames
import EliteHubVault.Worker.ControlPresence
import EliteHubVault.Auth.ApiRateLimiter
import EliteHubVault.Sse.ConnectionLimiter
import EliteHubVault.Auth.ApiKeyResolver
import EliteHubVault.Auth.CachedResolution
import EliteHubVault.Auth.Revocation
import EliteHubVault.Sse.WriteQueue
import EliteHubVault.Sse.WriteRuns
import EliteHubVault.Sse.ChannelCodecs
import EliteHubVault.Auth.GeneratedKeys
import EliteHubVault.Auth.RateLimitHeaders
import EliteHubVault.Listener.EnqueueHeartbeatMonitor
import EliteHubVault.Worker.StationServices
import EliteHubVault.Api.FactionsByDistance
import EliteHubVault.Sse.WireFormat
import EliteHubVault.Sse.Keepalives
import EliteHubVault.Sse.OperationOrder
import EliteHubVault.Sse.Lifetime
import EliteHubVault.ControlThreat.Payloads
import EliteHubVault.Platform.RationalText
import EliteHubVault.Relay.Provenance
import EliteHubVault.Sse.QuietSteps
import EliteHubVault.Sse.SteadyKeys
import EliteHubVault.Delivery.Deployment
import EliteHubVault.Delivery.Readers
import EliteHubVault.Delivery.Completeness
import EliteHubVault.Api.RouteAccess
import EliteHubVault.Api.AccessRuns
import EliteHubVault.Sse.SubscriptionParams
import EliteHubVault.Worker.ForeignKeys
import EliteHubVault.Delivery.Mirrors
import EliteHubVault.Delivery.Arrival
