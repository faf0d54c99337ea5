import Sico.AgentLoop.CallIDs
import Sico.AgentLoop.EngineRefinement
import Sico.AgentLoop.EventProtocol
import Sico.Capabilities.Secrets
import Sico.Capabilities.Expansion
import Sico.Capabilities.ArgvSubstitution
import Sico.Chat.Connections
import Sico.Chat.History
import Sico.Chat.LostMessage
import Sico.Chat.Messages
import Sico.Chat.OngoingTurns
import Sico.Chat.TurnIDs
import Sico.IDGen.Uniqueness
import Sico.LlmHubs.ChatStream
import Sico.LlmHubs.Responses
import Sico.LlmHubs.GeminiSubset
import Sico.LlmHubs.ServerSentEvents
import Sico.NestedCalls.AtMostOnce
import Sico.Plans.Addressing
import Sico.Plans.Cancellation
import Sico.Plans.Persistence
import Sico.Plans.ToolCallIDs
import Sico.Playbooks.Consolidation
import Sico.Playbooks.Embeddings
import Sico.Playbooks.Pruning
import Sico.Playbooks.SerializationRoundTrip
import Sico.Preparation.RowLimits
import Sico.Rbac.Groupings
import Sico.Rbac.Membership
import Sico.Rbac.PolicyReload
import Sico.Sandbox.AllocatableListed
import Sico.Sandbox.LeaseCoherence
import Sico.Sandbox.LeaseExclusion
import Sico.Sandbox.NonAvailableTimer
import Sico.Sandbox.ShrinkConfirmation
import Sico.Sandbox.LeaseText
import Sico.ScheduledTask.Notifications
import Sico.ScheduledTask.Workers
import Sico.Sources.Reader
import Sico.Sources.Retention
import Sico.Sources.SelectionAgreement
import Sico.Sources.Sharing
import Sico.Sources.Resolution
import Sico.Storage.Isolation
import Sico.TaskRuntime.BatchTermination
import Sico.TaskRuntime.BuildContexts
import Sico.Chat.WorkspaceStaging
import Sico.TaskRuntime.WorkstationRetrieval
import Sico.TaskRuntime.Collection
import Sico.TaskRuntime.BulkSettlement
import Sico.TaskRuntime.CommandSessions
import Sico.TaskRuntime.EnsureReady
import Sico.TaskRuntime.EnvironmentUse
import Sico.TaskRuntime.FirstSuccess
import Sico.TaskRuntime.PayloadFrame
import Sico.TaskRuntime.ReportedStatus
import Sico.TaskRuntime.SingleOwner
import Sico.TaskRuntime.SnapshotUpdate
import Sico.TaskRuntime.ToolBrowsing
import Sico.TaskRuntime.ToolPromotion
import Sico.TaskRuntime.BatchStatus
import Sico.TaskRuntime.TwoPhaseStop
import Sico.TaskRuntime.ExecutionPlan
import Sico.TaskRuntime.SubmissionKeys
import Sico.TaskRuntime.Finalization
import Sico.TaskRuntime.OutputSidecar
import Sico.TaskRuntime.Retries
import Sico.TaskRuntime.RetryBound
import Sico.TaskRuntime.RerunSources
import Sico.AgentLoop.StructuredModel
import Sico.Storage.LegacyMigration
import Sico.Listings.Pagination
import Sico.Foundation.JsonSorted
import Sico.Foundation.Links
import Sico.TaskRuntime.ParentStep
import Sico.LlmHubs.StrictSchema
import Sico.TaskRuntime.Lifecycle
