import Aegora.PyJson
import Aegora.Runs
import Aegora.ToolExecutor
import Aegora.ToolGate
import Aegora.Approvals
import Aegora.ApprovalExecution
import Aegora.ApprovalDiscipline
import Aegora.MemoryPolicy
import Aegora.GovernanceLookup
import Aegora.CapabilityCeiling
import Aegora.ReleaseConfig
import Aegora.ReleaseAccess
import Aegora.VersionedTable
import Aegora.MemoryModels
import Aegora.NativePg
import Aegora.NativePgLaws
import Aegora.MemoryMigration
import Aegora.MemoryService
import Aegora.MemoryLifecycle
import Aegora.MemoryProtection
import Aegora.OrderedQuery
import Aegora.MemoryTenants
import Aegora.MemoryRecall
import Aegora.EngineEquivalence
import Aegora.EngineResume
import Aegora.PlannerBudget
import Aegora.GatewayRuns
import Aegora.DraftFrames
import Aegora.ConflictedMemories
import Aegora.SkillTable
import Aegora.SkillPublishing
import Aegora.SkillHashes
import Aegora.EmbeddingRows
import Aegora.FaqImport
import Aegora.EmbeddingFreshness
import Aegora.McpSessions
import Aegora.McpCalls
import Aegora.OpenViking
import Aegora.OpenVikingLaws
import Aegora.ProviderAgreement
import Aegora.VikingIsolation
import Aegora.Transactions
import Aegora.WorkflowVersions
import Aegora.WorkflowProjection
import Aegora.MemoryTransactions
import Aegora.MemoryHistory
import Aegora.LruCache
import Aegora.ReleaseCache
import Aegora.CacheTransparency
import Aegora.ReleaseRequests
import Aegora.ReleaseVersions
import Aegora.ReflectionCrashes
import Aegora.DraftsOnce
import Aegora.AdminWrites
import Aegora.AdmittedTools
import Aegora.SkillScopes
import Aegora.SessionTurns
import Aegora.SerialTurns
import Aegora.ContentSync
import Aegora.ContentMirror
import Aegora.HandlerRetries
import Aegora.LineageGate
import Aegora.Occurrences
import Aegora.FallbackDrafts
import Aegora.McpToolIds
import Aegora.Utf8
import Aegora.UrlText
import Aegora.StdioRunnerIds
import Aegora.CandidateQueue
import Aegora.MemoryExtraction
import Aegora.ExtractionAccounts
import Aegora.ExtractionRetries
import Aegora.MemoryForgetting
import Aegora.FaqHashes
import Aegora.SkillIndex
import Aegora.PlannerDecisions
import Aegora.ConfiguredDecisions
import Aegora.ApprovalRequests
import Aegora.ArgRedaction
import Aegora.ApprovalResume
import Aegora.SavedMemories
import Aegora.AuthzNarrowing
import Aegora.PromptArtifacts
import Aegora.ScopeLattice
import Aegora.ContextViews
import Aegora.RankedMerge
import Aegora.RankFusion
import Aegora.ReflectionClusters
import Aegora.MemoryRanking
import Aegora.ThreadPool
import Aegora.ToolBatches
import Aegora.McpPoolLimits
import Aegora.DiscoveredPolicies
import Aegora.JsonLoads
import Aegora.JsonRoundTrip
import Aegora.RuntimeInvalidation
import Aegora.ModelUsage
import Aegora.EmbeddingLoop
import Aegora.ToolPolicyRefresh
import Aegora.RoleChanges
import Aegora.DiscoveryFrame
import Aegora.SeedReleases
import Aegora.EvalProvider
import Aegora.EvalAgreement
import Aegora.SkillSelection
import Aegora.ChatClient
import Aegora.RemoteEncoder
import Aegora.TextLines
import Aegora.WecomChunks
import Aegora.UnusableTools
import Aegora.StrapiList
import Aegora.EnvFiles
import Aegora.VikingWrites
import Aegora.WecomFeedback
import Aegora.EndpointWrites
import Aegora.LoginSessions
import Aegora.ConnectionVersions
import Aegora.SeedRoles
import Aegora.TurnItems
import Aegora.GatewayReplies
import Aegora.RunAudit
import Aegora.Interleaving
import Aegora.AgentDrafts
import Aegora.DataOpsJobs
import Aegora.ChatPage
import Aegora.EventStream
import Aegora.ChatStream
import Aegora.WecomReplies
import Aegora.SessionSkills
