import CacheAside.Api.Body
import CacheAside.Api.Error
import CacheAside.Api.Handler
import CacheAside.Api.Router
import CacheAside.Api.WriteBody
import CacheAside.Basic
import CacheAside.Cache.Audit
import CacheAside.Cache.Basic
import CacheAside.Cache.Keep
import CacheAside.Cache.Recency
import CacheAside.Config
import CacheAside.Decimal.Quotient
import CacheAside.Decimal.Shortest
import CacheAside.Dispatch.Basic
import CacheAside.Dispatch.Operation
import CacheAside.Dispatch.Task
import CacheAside.Http.MediaType
import CacheAside.Http.Message
import CacheAside.Http.Target
import CacheAside.Json.Quote
import CacheAside.Json.Reader
import CacheAside.Log.Event
import CacheAside.Log.Filter
import CacheAside.Log.Logged
import CacheAside.Main
import CacheAside.Net.Address
import CacheAside.Pool.Basic
import CacheAside.Pool.Schedule
import CacheAside.Pool.Start
import CacheAside.Program
import CacheAside.Redis.Address
import CacheAside.Redis.Failure
import CacheAside.Redis.Script
import CacheAside.Redis.Session
import CacheAside.Redis.Transcript
import CacheAside.Redis.Value
import CacheAside.Server.Error
import CacheAside.Server.Lifecycle
import CacheAside.Server.Reporter
import CacheAside.Stats
import CacheAside.Store.Backend
import CacheAside.Store.Error
import CacheAside.Store.Faults
import CacheAside.Store.Location
import CacheAside.Store.Memory
import CacheAside.Store.Reconnect
import CacheAside.Store.Request
import CacheAside.Store.Script
import CacheAside.Text.Form
import CacheAside.Text.Numeral
import CacheAside.Text.Unseen
import CacheAside.Text.Utf8
import CacheAside.Url.Basic
import CacheAside.Proofs.Cache.Chain
import CacheAside.Proofs.Cache.Layout
import CacheAside.Proofs.Cache.Operations
import CacheAside.Proofs.Cache.Refinement
import CacheAside.Proofs.Cache.Representation
import CacheAside.Proofs.Cache.Holding
import CacheAside.Proofs.Config.Environment
import CacheAside.Proofs.Dispatch.Ending
import CacheAside.Proofs.Dispatch.Deployment
import CacheAside.Proofs.Dispatch.Staleness
import CacheAside.Proofs.Dispatch.Transparency
import CacheAside.Proofs.Cache.Nesting
import CacheAside.Proofs.Dispatch.Accounting
import CacheAside.Proofs.Dispatch.Inclusion
import CacheAside.Proofs.Dispatch.Uninterrupted
import CacheAside.Proofs.Pool.Serving
import CacheAside.Proofs.Api.Exchange
import CacheAside.Proofs.Pool.Change
import CacheAside.Proofs.Pool.History
import CacheAside.Proofs.Pool.Delivery
import CacheAside.Proofs.Dispatch.Interleaving
import CacheAside.Proofs.Dispatch.Independence
import CacheAside.Proofs.Pool.Batch
import CacheAside.Proofs.Dispatch.Failure
import CacheAside.Proofs.Store.Reconnection
import CacheAside.Proofs.Store.Sessions
import CacheAside.Proofs.Pool.Solo
import CacheAside.Proofs.Dispatch.Ledger
import CacheAside.Proofs.Pool.Joining
import CacheAside.Proofs.Server.Lifecycle
import CacheAside.Proofs.Api.Abreast
import CacheAside.Proofs.Server.Restart
import CacheAside.Proofs.Text.Encoding
import CacheAside.Proofs.Json.Grammar
import CacheAside.Proofs.Json.Reading
import CacheAside.Proofs.Json.Writing
import CacheAside.Proofs.Api.Decoding
import CacheAside.Proofs.Text.Form
import CacheAside.Proofs.Text.Numeral
import CacheAside.Proofs.Api.RoundTrip
import CacheAside.Proofs.Json.Unambiguity
import CacheAside.Proofs.Api.Answers
import CacheAside.Proofs.Api.Acceptance
import CacheAside.Proofs.Server.Limits
import CacheAside.Proofs.Url.Credentials
import CacheAside.Proofs.Redis.Anonymity
import CacheAside.Proofs.Program.Wording
import CacheAside.Proofs.Program.Disclosure
import CacheAside.Proofs.Cache.Containment
import CacheAside.Proofs.Cache.Retention
import CacheAside.Proofs.Cache.Auditing
import CacheAside.Proofs.Cache.Arena
import CacheAside.Proofs.Dispatch.Outage
import CacheAside.Proofs.Pool.Chronicle
import CacheAside.Proofs.Pool.Draining
import CacheAside.Proofs.Pool.Release
import CacheAside.Proofs.Api.Agreement
import CacheAside.Proofs.Redis.Naming
