import Superviseur.Library.PyFloat
import Superviseur.Library.Trace
import Superviseur.Library.EState
import Superviseur.Library.Unicode
import Superviseur.Library.UuidText
import Superviseur.Library.Groups
import Superviseur.Library.Precedence
import Superviseur.Library.Validation
import Superviseur.Library.OrderedDict
import Superviseur.Library.Windows
import Superviseur.Common.Expressions
import Superviseur.Common.Models
import Superviseur.Alarms.Machine
import Superviseur.Alarms.Rules
import Superviseur.Alarms.Messages
import Superviseur.Alarms.Store
import Superviseur.Alarms.Engine
import Superviseur.Alarms.Transitions
import Superviseur.Alarms.Agreement
import Superviseur.Alarms.Runs
import Superviseur.Alarms.LifeCycle
import Superviseur.Alarms.Publication
import Superviseur.Alarms.Restart
import Superviseur.Alarms.Outage
import Superviseur.Collector.BacnetDriver
import Superviseur.Collector.Registry
import Superviseur.Collector.Writer
import Superviseur.Collector.Acceptance
import Superviseur.Collector.Bounds
import Superviseur.Collector.AuditTrail
import Superviseur.Alarms.Commands
import Superviseur.Api.Commands
import Superviseur.Api.Synoptics
import Superviseur.Api.SynopticStore
import Superviseur.Api.Validated
import Superviseur.Api.RestoredDocument
import Superviseur.Api.LostUpdate
import Superviseur.Api.VersionHistory
import Superviseur.Api.ListedName
import Superviseur.Api.Users
import Superviseur.Api.LastAdmin
import Superviseur.Collector.Recorder
import Superviseur.Collector.Conservation
import Superviseur.Collector.Latest
import Superviseur.Collector.Discovery
import Superviseur.Collector.Feed
import Superviseur.Collector.Rediscovery
import Superviseur.Collector.Status
import Superviseur.Collector.Online
import Superviseur.Collector.HotReload
import Superviseur.Collector.Import
import Superviseur.Collector.ConfigSync
import Superviseur.Collector.Isolation
import Superviseur.Collector.Cov
import Superviseur.Collector.Coverage
import Superviseur.Api.Realtime
import Superviseur.Api.Snapshot
import Superviseur.Api.Subscriptions
import Superviseur.Api.SynopticDoc
import Superviseur.Front.Viewer
import Superviseur.Front.Mounted
import Superviseur.Front.LiveConnection
import Superviseur.Front.LiveRuns
import Superviseur.Front.LiveValues
import Superviseur.Api.SynopticExpr
import Superviseur.Front.Expressions
import Superviseur.Front.RuleLanguage
import Superviseur.Alarms.Standing
import Superviseur.Alarms.Reload
import Superviseur.Alarms.UpToDate
import Superviseur.Alarms.Rows
import Superviseur.Alarms.FailedReload
import Superviseur.Alarms.Mirror
import Superviseur.Alarms.EventStream
import Superviseur.Front.AlarmFeed
import Superviseur.Front.AlarmList
import Superviseur.Alarms.Notifier
import Superviseur.Alarms.AntiFlood
import Superviseur.Api.DocumentSchema
import Superviseur.Api.DocumentRoundTrip
import Superviseur.Front.Page
import Superviseur.Front.SafeStyle
import Superviseur.Front.Style
import Superviseur.Api.Exceptions
import Superviseur.Front.Navigation
import Superviseur.Api.RuleCoherence
import Superviseur.Api.Lockout
import Superviseur.Library.LinearHistory
import Superviseur.Front.EditorHistory
import Superviseur.Front.EditorSteps
import Superviseur.Library.JsonData
import Superviseur.Front.Geometry
import Superviseur.Front.EditorState
import Superviseur.Front.EditorIntegrity
import Superviseur.Front.EditorSave
import Superviseur.Front.EditorConflicts
import Superviseur.Front.Batcher
import Superviseur.Front.BatcherRuns
import Superviseur.Library.Latch
import Superviseur.Library.Leading
import Superviseur.Front.AlarmWidget
import Superviseur.Front.AlarmTop
import Superviseur.Library.Versions
import Superviseur.Front.AlarmConvergence
import Superviseur.Alarms.RuleShare
import Superviseur.Alarms.Delay
import Superviseur.Alarms.Hysteresis
import Superviseur.Alarms.Staleness
import Superviseur.Alarms.Recipients
import Superviseur.Collector.Offline
import Superviseur.Collector.Silence
import Superviseur.Collector.Fidelity
import Superviseur.Collector.Shutdown
import Superviseur.Collector.ReadPaths
import Superviseur.Api.Identifiers
import Superviseur.Api.DerivedSlugs
import Superviseur.Collector.Normalizer
import Superviseur.Common.DocumentedGrammar
import Superviseur.Library.Ebnf
import Superviseur.Front.DocumentedParsers
import Superviseur.Front.ExpressionTrees
import Superviseur.Front.PrintedExpressions
import Superviseur.Api.LockoutPolicy
import Superviseur.Api.PointsTree
import Superviseur.Api.HistoryBuckets
import Superviseur.Api.WriteBounds
import Superviseur.Front.EditorGestures
import Superviseur.Front.Resizing
import Superviseur.Front.Routes
import Superviseur.Front.TrendSeries
import Superviseur.Front.TrendAlignment
import Superviseur.Front.TrendThinning
import Superviseur.Front.Distribution
import Superviseur.Front.WidgetLook
import Superviseur.Front.Clipboard
import Superviseur.Front.PropertyPanel
import Superviseur.Front.TrendWidget
import Superviseur.Front.AlarmOrder
import Superviseur.Library.Comparators
import Superviseur.Library.Objects
import Superviseur.Collector.ObjectGraph
import Superviseur.Collector.LoadedObjects
import Superviseur.Front.AppShell
import Superviseur.Front.AppRuns
import Superviseur.Api.Sessions
import Superviseur.Api.Access
import Superviseur.Front.ApiClient
import Superviseur.Collector.DiscoveryTrigger
import Superviseur.Alarms.Delivery
import Superviseur.Collector.Inventory
import Superviseur.Collector.Notifications
import Superviseur.Common.Bus
import Superviseur.Collector.Supervision
import Superviseur.Api.Listings
import Superviseur.Front.LivePage
