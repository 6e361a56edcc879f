import Storyhook.Service.BothEnds
import Storyhook.Store.RepairForecast
import Storyhook.Store.Repair
import Storyhook.Domain.BlockInert
import Storyhook.Domain.BlockerFloor
import Storyhook.Domain.EpicProjection
import Storyhook.Domain.PrefixBisection
import Storyhook.Domain.ConflictRender
import Storyhook.Domain.RemoteCanonical
import Storyhook.Domain.Closure
import Storyhook.Domain.BlockerAdmission
import Storyhook.Library.Pattern
import Storyhook.Library.Transaction
import Storyhook.Service.BlockDelivery
import Storyhook.Service.BlockDeliveryRuns
import Storyhook.Store.EventLog
import Storyhook.Store.LinkBackfill
import Storyhook.Domain.CatalogFold
import Storyhook.Domain.ProjectedStates
import Storyhook.Domain.States
import Storyhook.Service.CatalogEdits
import Storyhook.Service.Holds
import Storyhook.Domain.Hierarchy
import Storyhook.Service.Hierarchy
import Storyhook.Service.ParentCycles
import Storyhook.Service.ReadModel
import Storyhook.Api.Preferences
import Storyhook.Api.TokenClock
import Storyhook.Daemon.Body
import Storyhook.Daemon.BodyDecode
import Storyhook.Daemon.Conn
import Storyhook.Domain.AttachmentIds
import Storyhook.Domain.Certification
import Storyhook.Domain.CommentSnippet
import Storyhook.Domain.CriticalPath
import Storyhook.Domain.FamilyRelationships
import Storyhook.Domain.Intervention
import Storyhook.Domain.ParallelGroups
import Storyhook.Domain.ReadyOrder
import Storyhook.Domain.RequiredStates
import Storyhook.Library.Schedule
import Storyhook.Service.Attribution
import Storyhook.Service.AttributionEvidence
import Storyhook.Service.AttributionProgress
import Storyhook.Service.BatchAuthority
import Storyhook.Service.BatchAuthorityRuns
import Storyhook.Service.EngineAdmission
import Storyhook.Service.EngineLaneRuns
import Storyhook.Service.RelationRemoval
import Storyhook.Store.Attribution
import Storyhook.Store.AttributionAllowance
import Storyhook.Store.AttributionRuns
import Storyhook.Service.Unclaim
import Storyhook.Service.VerificationGeneration
import Storyhook.Daemon.Framing
import Storyhook.Domain.IntegrityIssues
import Storyhook.Service.UnattestedEndpoints
import Storyhook.Service.BatchChain
import Storyhook.Api.Host
import Storyhook.Decompose.Nesting
import Storyhook.Decompose.Waves
import Storyhook.Api.Handoff
import Storyhook.Store.AttributionVerdicts
import Storyhook.Service.EngineBreakerRuns
import Storyhook.Service.GateTotals
import Storyhook.Domain.StoryRefFollows
import Storyhook.Service.BoardSchedule
import Storyhook.Service.Undo
import Storyhook.Daemon.FeedPolls
import Storyhook.Daemon.WatchRuns
import Storyhook.Daemon.HoldRuns
import Storyhook.Store.ClosureRuns
import Storyhook.Service.AutomationRuns
import Storyhook.Service.HandoffRuns
