import CatalogOperator.Activity
import CatalogOperator.Catalog.PackageList
import CatalogOperator.Catalog.Reconcilers
import CatalogOperator.Catalog.Validity
import CatalogOperator.Cluster
import CatalogOperator.Config
import CatalogOperator.EnvList
import CatalogOperator.Fault
import CatalogOperator.Json
import CatalogOperator.Manifest.Basic
import CatalogOperator.Manifest.Conversion
import CatalogOperator.Manifest.Document
import CatalogOperator.Manifest.Fields
import CatalogOperator.Manifest.Text
import CatalogOperator.Markup.Dialect
import CatalogOperator.Markup.Document
import CatalogOperator.Markup.Layout
import CatalogOperator.Markup.Line
import CatalogOperator.Markup.Node
import CatalogOperator.Markup.Scalar.Block
import CatalogOperator.Markup.Scalar.Plain
import CatalogOperator.Markup.Scalar.Quoted
import CatalogOperator.Markup.Schema
import CatalogOperator.Markup.Token
import CatalogOperator.Markup.Token.Lexer
import CatalogOperator.Number.Basic
import CatalogOperator.Number.Double
import CatalogOperator.Number.Shortest
import CatalogOperator.ObjectKey
import CatalogOperator.Operator.Basic
import CatalogOperator.Operator.Controller
import CatalogOperator.Operator.Lifecycle
import CatalogOperator.Operator.Schedule
import CatalogOperator.Phase
import CatalogOperator.Proofs.Activity.Endings
import CatalogOperator.Proofs.Activity.Interference
import CatalogOperator.Proofs.Activity.Invariants
import CatalogOperator.Proofs.Activity.Stretches
import CatalogOperator.Proofs.Manifest.Acceptance
import CatalogOperator.Proofs.Manifest.Document
import CatalogOperator.Proofs.Manifest.Same
import CatalogOperator.Proofs.Number.Rounding
import CatalogOperator.Proofs.Operator.Backoff
import CatalogOperator.Proofs.Operator.Freshness
import CatalogOperator.Proofs.Operator.History
import CatalogOperator.Proofs.Operator.Locality
import CatalogOperator.Proofs.Operator.Routing
import CatalogOperator.Proofs.Operator.Scope
import CatalogOperator.Proofs.Operator.Start
import CatalogOperator.Proofs.Operator.Steps
import CatalogOperator.Proofs.Operator.Tidiness
import CatalogOperator.Proofs.Operator.Turns
import CatalogOperator.Proofs.Proxy.Settling
import CatalogOperator.Proofs.Reconcile.Attempt
import CatalogOperator.Proofs.Reconcile.Call
import CatalogOperator.Proofs.Reconcile.Convergence
import CatalogOperator.Proofs.Reconcile.Dispatch
import CatalogOperator.Proofs.Reconcile.Drift
import CatalogOperator.Proofs.Reconcile.Failures
import CatalogOperator.Proofs.Reconcile.Handlers
import CatalogOperator.Proofs.Reconcile.Lifecycle
import CatalogOperator.Proofs.Reconcile.Neighbours
import CatalogOperator.Proofs.Reconcile.Notes
import CatalogOperator.Proofs.Reconcile.Packages
import CatalogOperator.Proofs.Reconcile.Provision
import CatalogOperator.Proofs.Reconcile.Record
import CatalogOperator.Proofs.Reconcile.Validation
import CatalogOperator.Proofs.Reconcile.WriteBack
import CatalogOperator.Proofs.Status.Condition
import CatalogOperator.Proofs.Store.Changes
import CatalogOperator.Proofs.Store.Mirror
import CatalogOperator.Proofs.Store.Objects
import CatalogOperator.Proofs.WorkQueue.Desk
import CatalogOperator.Proofs.WorkQueue.Discipline
import CatalogOperator.Proofs.WorkQueue.RateLimit
import CatalogOperator.Proofs.WorkQueue.Standing
import CatalogOperator.Proofs.WorkQueue.Waiting
import CatalogOperator.Proxy.Environment
import CatalogOperator.Proxy.ProxyStore
import CatalogOperator.Proxy.Sync
import CatalogOperator.Reconcile.Basic
import CatalogOperator.Reconcile.Dispatcher
import CatalogOperator.Reconcile.Shared
import CatalogOperator.Scripted.Deployer
import CatalogOperator.Scripted.Listener
import CatalogOperator.Scripted.Reconciler
import CatalogOperator.Scripted.Routing
import CatalogOperator.Scripted.Tracing
import CatalogOperator.Scripted.Waiting
import CatalogOperator.Source.Derived
import CatalogOperator.Source.PackageIndex
import CatalogOperator.Source.Reconcilers
import CatalogOperator.Status.ErrorTracker
import CatalogOperator.Store.Basic
import CatalogOperator.Table
import CatalogOperator.Text.Blank
import CatalogOperator.Text.Digit
import CatalogOperator.Text.Quoted
import CatalogOperator.Time.Calendar
import CatalogOperator.Time.Iso
import CatalogOperator.Time.Moment
import CatalogOperator.Trace
import CatalogOperator.Value.Basic
import CatalogOperator.Value.Literal
import CatalogOperator.Value.Order
import CatalogOperator.Value.Same
import CatalogOperator.Watch.Event
import CatalogOperator.Watch.Router
import CatalogOperator.WorkQueue
import CatalogOperator.Proofs.Proxy.Staleness
import CatalogOperator.Proofs.Proxy.Projection
import CatalogOperator.Proofs.Proxy.Arrangement
import CatalogOperator.Proofs.Operator.Retries
import CatalogOperator.Proofs.Manifest.RoundTrip
import CatalogOperator.Proofs.Manifest.Refusal
import CatalogOperator.Proofs.Activity.Timing
import CatalogOperator.Proofs.Reconcile.Deadline
import CatalogOperator.Proofs.Reconcile.Guard
import CatalogOperator.Proofs.Watch.Delivery
import CatalogOperator.Proofs.Watch.FanOut
import CatalogOperator.Proofs.Status.Stamps
import CatalogOperator.Proofs.Proxy.Merging
import CatalogOperator.Proofs.Status.Interleaving
import CatalogOperator.Proofs.Reconcile.Copies
import CatalogOperator.Proofs.Text.Trimming
import CatalogOperator.Proofs.Catalog.Listing
