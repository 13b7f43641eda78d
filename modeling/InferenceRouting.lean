import InferenceRouting.Background.Course
import InferenceRouting.Background.Interval
import InferenceRouting.Background.Scheduler
import InferenceRouting.Background.Scope
import InferenceRouting.Background.Session
import InferenceRouting.Background.Shutdown
import InferenceRouting.Breaker.Basic
import InferenceRouting.Breaker.Registry
import InferenceRouting.Breaker.Run
import InferenceRouting.Breaker.Session
import InferenceRouting.Breaker.Traffic
import InferenceRouting.Clock
import InferenceRouting.Cluster.Message
import InferenceRouting.Cluster.Node
import InferenceRouting.Cluster.Payload
import InferenceRouting.Cluster.Probe
import InferenceRouting.Cluster.Run
import InferenceRouting.Cluster.Selection
import InferenceRouting.Cluster.Session
import InferenceRouting.Cluster.StaticNode
import InferenceRouting.Cluster.Tracker
import InferenceRouting.Config.Basic
import InferenceRouting.Config.Layers
import InferenceRouting.Config.Validation
import InferenceRouting.Credential.History
import InferenceRouting.Credential.Rotation
import InferenceRouting.Credential.Secret
import InferenceRouting.Credential.Slot
import InferenceRouting.Environment
import InferenceRouting.Error
import InferenceRouting.Fleet.Basic
import InferenceRouting.Fleet.Overview
import InferenceRouting.Fleet.Request
import InferenceRouting.Fleet.Session
import InferenceRouting.Http.Address
import InferenceRouting.Http.Call
import InferenceRouting.Http.Endpoint
import InferenceRouting.Http.Script
import InferenceRouting.Http.Target
import InferenceRouting.Json.Portable
import InferenceRouting.Json.Tree
import InferenceRouting.Json.Value
import InferenceRouting.Json.Writer
import InferenceRouting.Metrics
import InferenceRouting.Number.Binary64
import InferenceRouting.Number.Shortest
import InferenceRouting.Pool.Basic
import InferenceRouting.Pool.Run
import InferenceRouting.Pool.Session
import InferenceRouting.Setting.Basic
import InferenceRouting.Setting.Scalar
import InferenceRouting.Setting.Toml.Document
import InferenceRouting.Setting.Toml.Reader
import InferenceRouting.Setting.Toml.Scalar
import InferenceRouting.Setting.Toml.Writer
import InferenceRouting.Setting.Variable
import InferenceRouting.Setting.Yaml.Reader
import InferenceRouting.Setting.Yaml.Scalar
import InferenceRouting.Setting.Yaml.Writer
import InferenceRouting.Text.Blank
import InferenceRouting.Text.Decimal
import InferenceRouting.Text.Quoted
import InferenceRouting.Text.Span
import InferenceRouting.Text.Unprintable
import InferenceRouting.Proofs.Keyed
import InferenceRouting.Proofs.Setting.Overlay
import InferenceRouting.Proofs.Setting.Absent
import InferenceRouting.Proofs.Config.Export
import InferenceRouting.Proofs.Number.Rounding
import InferenceRouting.Proofs.Json.Strings
import InferenceRouting.Proofs.Json.Numerals
import InferenceRouting.Proofs.Json.ReadBack
import InferenceRouting.Proofs.Json.Order
import InferenceRouting.Proofs.Json.Values
import InferenceRouting.Proofs.Background.Jobs
import InferenceRouting.Proofs.Background.Scopes
import InferenceRouting.Proofs.Background.Cancellation
import InferenceRouting.Proofs.Credential.Records
import InferenceRouting.Proofs.Credential.Cooling
import InferenceRouting.Proofs.Credential.Exhaustion
import InferenceRouting.Proofs.Credential.Numbered
import InferenceRouting.Proofs.Credential.Loading
import InferenceRouting.Proofs.Credential.Spellings
import InferenceRouting.Proofs.Credential.Sources
import InferenceRouting.Proofs.Credential.Turns
import InferenceRouting.Proofs.Credential.Choice
import InferenceRouting.Proofs.Cluster.Candidates
import InferenceRouting.Proofs.Cluster.Records
import InferenceRouting.Proofs.Cluster.Duplicates
import InferenceRouting.Proofs.Cluster.Announcements
import InferenceRouting.Proofs.Cluster.Availability
import InferenceRouting.Proofs.Cluster.Feeds
import InferenceRouting.Proofs.Cluster.Ticks
import InferenceRouting.Proofs.Cluster.Sessions
import InferenceRouting.Proofs.Cluster.Staleness
import InferenceRouting.Proofs.Cluster.Gauge
import InferenceRouting.Proofs.Cluster.Wire
import InferenceRouting.Proofs.Cluster.Independence
import InferenceRouting.Proofs.Cluster.Addresses
import InferenceRouting.Proofs.Cluster.Ranking
import InferenceRouting.Proofs.Cluster.Payloads
import InferenceRouting.Proofs.Pool.Service
import InferenceRouting.Proofs.Pool.Stock
import InferenceRouting.Proofs.Pool.Operations
import InferenceRouting.Proofs.Pool.Upkeep
import InferenceRouting.Proofs.Pool.Callers
import InferenceRouting.Proofs.Pool.Soundness
import InferenceRouting.Proofs.Pool.Ownership
import InferenceRouting.Proofs.Pool.Capacity
import InferenceRouting.Proofs.Pool.Order
import InferenceRouting.Proofs.Pool.Standing
import InferenceRouting.Proofs.Pool.Links
import InferenceRouting.Proofs.Pool.Turnover
import InferenceRouting.Proofs.Pool.Conservation
import InferenceRouting.Proofs.Pool.Age
import InferenceRouting.Proofs.Pool.Health
import InferenceRouting.Proofs.Pool.Shutdown
import InferenceRouting.Proofs.Pool.Sweep
import InferenceRouting.Proofs.Pool.Gauges
import InferenceRouting.Proofs.Breaker.Transitions
import InferenceRouting.Proofs.Breaker.Probes
import InferenceRouting.Proofs.Breaker.CoolDown
import InferenceRouting.Proofs.Breaker.Plain
import InferenceRouting.Proofs.Breaker.Lateness
import InferenceRouting.Proofs.Breaker.Window
import InferenceRouting.Proofs.Breaker.Recovery
import InferenceRouting.Proofs.Breaker.Entries
import InferenceRouting.Proofs.Breaker.Handling
import InferenceRouting.Proofs.Breaker.Mirrors
import InferenceRouting.Proofs.Breaker.Isolation
import InferenceRouting.Proofs.Breaker.Totals
import InferenceRouting.Proofs.Breaker.Phases
import InferenceRouting.Proofs.Breaker.Gauge
import InferenceRouting.Proofs.Breaker.Neutral
import InferenceRouting.Proofs.Breaker.Keys
import InferenceRouting.Proofs.Breaker.Timers
import InferenceRouting.Proofs.Config.Horizon
import InferenceRouting.Proofs.Fleet.Charge
import InferenceRouting.Proofs.Fleet.Attempts
import InferenceRouting.Proofs.Fleet.Connections
import InferenceRouting.Proofs.Fleet.Course
import InferenceRouting.Proofs.Fleet.Verdicts
import InferenceRouting.Proofs.Fleet.Unsent
import InferenceRouting.Proofs.Fleet.Results
import InferenceRouting.Proofs.Fleet.FanOut
import InferenceRouting.Proofs.Fleet.Sessions
import InferenceRouting.Proofs.Retry
