import Infractl.Api.Handler
import Infractl.Api.Isolation
import Infractl.Api.Lifetime
import Infractl.Api.ListHandler
import Infractl.Api.PutMaps
import Infractl.Api.SecretRoundTrip
import Infractl.Api.SystemColumns
import Infractl.Auth.Authentic
import Infractl.Auth.Keycloak
import Infractl.Auth.Middleware
import Infractl.Auth.Routing
import Infractl.Auth.SigningKeys
import Infractl.Auth.Tenancy
import Infractl.Auth.TenantPaths
import Infractl.Auth.TokenClaims
import Infractl.Auth.UUIDText
import Infractl.Events.AuditWalk
import Infractl.Events.Bus
import Infractl.Events.Handler
import Infractl.Events.Listener
import Infractl.Events.Notification
import Infractl.Events.PgBus
import Infractl.Events.Publish
import Infractl.Events.Store
import Infractl.Grpc.GenericServer
import Infractl.Grpc.Interceptors
import Infractl.Lib.Acyclic
import Infractl.Lib.Answers
import Infractl.Lib.Base64
import Infractl.Lib.Buckets
import Infractl.Lib.Clock
import Infractl.Lib.DepthFirst
import Infractl.Lib.FanOut
import Infractl.Lib.FiniteMap
import Infractl.Lib.GoInterface
import Infractl.Lib.GoJson
import Infractl.Lib.Heap
import Infractl.Lib.History
import Infractl.Lib.Json
import Infractl.Lib.KeyedTable
import Infractl.Lib.LastWriter
import Infractl.Lib.Ledger
import Infractl.Lib.Linearize
import Infractl.Lib.Mirror
import Infractl.Lib.Paging
import Infractl.Lib.Run
import Infractl.Lib.Sql
import Infractl.Lib.Tally
import Infractl.Lib.Trail
import Infractl.Lib.Unwinding
import Infractl.Platform.Catalog
import Infractl.Platform.Organization
import Infractl.Platform.Provisioning
import Infractl.Platform.SecretBytes
import Infractl.Platform.Secrets
import Infractl.Platform.Webhook
import Infractl.Platform.WebhookLoop
import Infractl.Proto.Adapter
import Infractl.Proto.RoundTrip
import Infractl.Providers.Hooks
import Infractl.Providers.Lifecycle
import Infractl.Providers.Registrations
import Infractl.Providers.Registry
import Infractl.Providers.Shutdown
import Infractl.Store.Concurrency
import Infractl.Store.Cutting
import Infractl.Store.Existence
import Infractl.Store.Filter
import Infractl.Store.FilterClause
import Infractl.Store.FilterMeaning
import Infractl.Store.FilterText
import Infractl.Store.Finalizers
import Infractl.Store.Forest
import Infractl.Store.ForestRace
import Infractl.Store.Generation
import Infractl.Store.GenericStore
import Infractl.Store.Interleaving
import Infractl.Store.JSONColumns
import Infractl.Store.ListIsolation
import Infractl.Store.Listing
import Infractl.Store.LostUpdate
import Infractl.Store.Model
import Infractl.Store.Nesting
import Infractl.Store.Noninterference
import Infractl.Store.Outcomes
import Infractl.Store.OwnRows
import Infractl.Store.PageRace
import Infractl.Store.PageWalk
import Infractl.Store.Pagination
import Infractl.Store.ParentWalk
import Infractl.Store.Protection
import Infractl.Store.References
import Infractl.Store.Retry
import Infractl.Store.RowLife
import Infractl.Store.SoloRun
import Infractl.Store.SpecBlind
import Infractl.Store.Statements
import Infractl.Store.TokenWalk
import Infractl.Work.Budget
import Infractl.Work.Claims
import Infractl.Work.Fencing
import Infractl.Work.InMemoryQueue
import Infractl.Work.Interchange
import Infractl.Work.Interface
import Infractl.Work.Locking
import Infractl.Work.Loop
import Infractl.Work.LoopStop
import Infractl.Work.Pace
import Infractl.Work.PgCalls
import Infractl.Work.PgQueue
import Infractl.Work.Stranded
import Infractl.Work.TaskCodec
import Infractl.Work.Tasks
import Infractl.Work.Terminal
import Infractl.Work.ValkeyPending
import Infractl.Work.ValkeyQueue
import Infractl.Work.ValkeyStreams
import Infractl.Work.Waiting
import Infractl.Workflow.Dispatch
import Infractl.Workflow.LookupExact
import Infractl.Workflow.LostStatus
import Infractl.Workflow.Reporting
import Infractl.Workflow.StatusOrder
import Infractl.Workflow.SubmitTrace
import Infractl.Workflow.Tracking
