import MagicLaw.Lib.Machine
import MagicLaw.Audit.Chain
import MagicLaw.Audit.Tamper
import MagicLaw.Audit.Log
import MagicLaw.Audit.Writers
import MagicLaw.Audit.Concurrent
import MagicLaw.Lib.KeyedTable
import MagicLaw.Lib.Lines
import MagicLaw.Lib.Blocks
import MagicLaw.Lib.Program
import MagicLaw.Outbox.Storage
import MagicLaw.Outbox.Worker
import MagicLaw.Outbox.NoLoss
import MagicLaw.Outbox.Accounting
import MagicLaw.Routing.ReorderWindow
import MagicLaw.Routing.Conservation
import MagicLaw.Routing.SequenceOrder
import MagicLaw.Routing.Store
import MagicLaw.Routing.Accepted
import MagicLaw.Routing.Serial
import MagicLaw.Inbound.Gate
import MagicLaw.Lib.Tasks
import MagicLaw.Inbound.Redelivery
import MagicLaw.Inbound.Once
import MagicLaw.Inbound.Accounts
import MagicLaw.Outbox.Loops
import MagicLaw.Lib.Interference
import MagicLaw.Outbox.Order
import MagicLaw.WeChat.ILink
import MagicLaw.Lib.Processes
import MagicLaw.WeChat.Daemon
import MagicLaw.WeChat.Cursor
import MagicLaw.WeChat.Sends
import MagicLaw.WeChat.NewerToken
import MagicLaw.WeChat.Agreement
import MagicLaw.WeChat.Cli
import MagicLaw.WeChat.Provenance
import MagicLaw.WeChat.PeerIsolation
import MagicLaw.Feishu.Webhook
import MagicLaw.Feishu.Authenticity
import MagicLaw.WeChat.Pollers
import MagicLaw.Outbox.Classification
import MagicLaw.Api.Clients
import MagicLaw.Pipeline.Preferences
import MagicLaw.Pipeline.Replies
import MagicLaw.Pipeline.Flights
import MagicLaw.Lib.Spacing
import MagicLaw.Feishu.Delivery
import MagicLaw.Pipeline.CostGuard
import MagicLaw.Push.Jobs
import MagicLaw.Push.Bindings
import MagicLaw.Push.Authorization
import MagicLaw.Lib.Owners
import MagicLaw.Push.OncePerTarget
import MagicLaw.Push.Csv
import MagicLaw.Push.Reports
import MagicLaw.Push.Outcomes
import MagicLaw.Push.Addresses
import MagicLaw.Push.Records
import MagicLaw.Lib.DerivedKeys
import MagicLaw.Outbox.Recovery
import MagicLaw.Outbox.Replay
import MagicLaw.Inbound.Exclusive
import MagicLaw.WeChat.MessageIds
import MagicLaw.Lib.JoinedKeys
import MagicLaw.Pipeline.CompositeKeys
import MagicLaw.WeChat.PollLoops
import MagicLaw.WeChat.Acceptance
import MagicLaw.WeChat.StaleToken
import MagicLaw.WeChat.CliDelivery
import MagicLaw.WeChat.Pacing
import MagicLaw.Resilience.CircuitBreaker
import MagicLaw.Resilience.Gate
import MagicLaw.Outbox.Gated
import MagicLaw.Routing.Persistence
import MagicLaw.Mcp.Transport
import MagicLaw.WeChat.Media
import MagicLaw.Ai.CliAgent
import MagicLaw.Outbox.RetryDelay
import MagicLaw.Routing.Release
import MagicLaw.Resilience.Bulkhead
import MagicLaw.Pipeline.Commands
import MagicLaw.Pipeline.Attribution
import MagicLaw.Api.Lifetime
import MagicLaw.Feishu.TokenRefresh
import MagicLaw.DingTalk.Token
import MagicLaw.Runtime.TaskSupervisor
import MagicLaw.Lib.Flags
import MagicLaw.Cli.Parser
import MagicLaw.Runtime.DbPool
import MagicLaw.Lib.Boundaries
import MagicLaw.Ai.Sanitize
import MagicLaw.Lib.Replace
import MagicLaw.Ai.CommandLine
import MagicLaw.Lib.Channel
import MagicLaw.Mcp.Protocol
import MagicLaw.Mcp.Tools
import MagicLaw.Mcp.Server
import MagicLaw.Lib.TextLines
import MagicLaw.Push.Files
import MagicLaw.Push.Imports
import MagicLaw.Runtime.Singleton
import MagicLaw.Api.HttpAuth
import MagicLaw.Pipeline.PreferenceStores
import MagicLaw.Runtime.DailyLogger
import MagicLaw.Lib.Paths
import MagicLaw.WeChat.MediaSend
import MagicLaw.WeChat.Login
import MagicLaw.Feishu.Replies
import MagicLaw.Runtime.PoolWakeups
