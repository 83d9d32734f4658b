import JobQueue.Json.Record
import JobQueue.Json.Decode
import JobQueue.Envelope
import JobQueue.Event.Text
import JobQueue.Settings.Text
import JobQueue.Settings.Address
import JobQueue.Schedule
import JobQueue.Submission
import JobQueue.Time.Backoff
import JobQueue.Metrics
import JobQueue.Session.Steps
import JobQueue.Proofs.Store.WellFormed
import JobQueue.Proofs.Store.Leases
import JobQueue.Proofs.Store.Order
import JobQueue.Proofs.Store.OneWay
import JobQueue.Proofs.Store.Overlap
import JobQueue.Proofs.Site.Budget
import JobQueue.Proofs.Json.Shape
import JobQueue.Proofs.Json.Value
import JobQueue.Proofs.Codec.Envelope
import JobQueue.Proofs.Codec.Payload
import JobQueue.Proofs.Site.Faithful
import JobQueue.Proofs.Site.Works
import JobQueue.Proofs.Site.InTime
import JobQueue.Proofs.Pool.Concurrency
import JobQueue.Proofs.Pool.Verdicts
import JobQueue.Proofs.Site.Accounts
import JobQueue.Proofs.Site.Shared
import JobQueue.Proofs.Site.Conservation
import JobQueue.Proofs.Service.Stop
import JobQueue.Proofs.Store.Commuting
import JobQueue.Proofs.Submission
import JobQueue.Proofs.Codec.Stored
import JobQueue.Proofs.Pool.Contexts
import JobQueue.Proofs.Time.Backoff
import JobQueue.Proofs.Store.Retention
import JobQueue.Proofs.Schedule
import JobQueue.Proofs.Codec.Parsed
import JobQueue.Proofs.Settings.Weights
import JobQueue.Proofs.Settings.Layers
