import TrafficDirector.Lib.OrdMap
import TrafficDirector.Lib.Machine
import TrafficDirector.Lib.Resend
import TrafficDirector.Lib.Framing
import TrafficDirector.Lib.Script
import TrafficDirector.Packet
import TrafficDirector.Codec
import TrafficDirector.Window
import TrafficDirector.Registry
import TrafficDirector.Session.Wire
import TrafficDirector.Session.Handshake
import TrafficDirector.Session.Subscriptions
import TrafficDirector.Session.Outage
import TrafficDirector.Session.Forward
import TrafficDirector.ReferenceCodec
import TrafficDirector.Session.Replay
import TrafficDirector.Session.Transition
import TrafficDirector.Session.Retention
import TrafficDirector.Session.Delivery
import TrafficDirector.Session.Disconnect
import TrafficDirector.Session.Survival
import TrafficDirector.Session.Ledger
import TrafficDirector.Session.Order
import TrafficDirector.Net.System
import TrafficDirector.Net.Acks
import TrafficDirector.Session.Framed
import TrafficDirector.Session.Handover
import TrafficDirector.Session.Leftover
import TrafficDirector.Migrate
import TrafficDirector.Migrate.Ownership
import TrafficDirector.Session.Entry
import TrafficDirector.Session.Requests
import TrafficDirector.Migrate.Outage
import TrafficDirector.Session.Keepalive
import TrafficDirector.Session.Waiting
import TrafficDirector.Session.Timed
import TrafficDirector.Session.Silence
import TrafficDirector.Session.Pacing
import TrafficDirector.Session.Retries
import TrafficDirector.Net.Topics
import TrafficDirector.Server
import TrafficDirector.Migrate.Thaw
import TrafficDirector.Session.Answers
import TrafficDirector.Migrate.Freeze
import TrafficDirector.Net.Identifiers
import TrafficDirector.Session.Grants
import TrafficDirector.Session.Completion
import TrafficDirector.Session.Publishes
import TrafficDirector.Session.Aliases
import TrafficDirector.Lib.Json
import TrafficDirector.Migrate.Size
import TrafficDirector.Lib.Edits
import TrafficDirector.Window.Exchanges
import TrafficDirector.Session.Resubscribe
import TrafficDirector.Session.Freshness
import TrafficDirector.Session.Buffering
import TrafficDirector.Lib.Oneshot
import TrafficDirector.Migrate.FreezeAll
import TrafficDirector.Server.Drain
import TrafficDirector.Session.Resumption
import TrafficDirector.TdInit
import TrafficDirector.Migrate.Proceeds
import TrafficDirector.Migrate.Skipped
import TrafficDirector.Lib.Coupled
import TrafficDirector.Session.Versions
import TrafficDirector.Session.Twins
import TrafficDirector.Session.Patch
import TrafficDirector.Session.Withheld
import TrafficDirector.TdInit.Status
import TrafficDirector.Window.Vectors
import TrafficDirector.Lib.JsonReader
import TrafficDirector.Migrate.Snapshot
import TrafficDirector.Migrate.Contents
import TrafficDirector.Lib.Polling
import TrafficDirector.Session.Arrival
import TrafficDirector.Net.Transparent
import TrafficDirector.TdInit.Reaping
import TrafficDirector.Server.Deployment
import TrafficDirector.Lib.Receiver
import TrafficDirector.Net.Downlink
import TrafficDirector.Net.Once
import TrafficDirector.Net.Deliveries
import TrafficDirector.Migrate.Projection
import TrafficDirector.Server.Projection
