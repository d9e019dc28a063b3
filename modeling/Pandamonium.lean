import Pandamonium.Analysis.ReplayDelivery
import Pandamonium.Analysis.DrainSequencing
import Pandamonium.Analysis.EffectFloor
import Pandamonium.Analysis.PendingApproval
import Pandamonium.Analysis.MetadataStrictness
import Pandamonium.Analysis.TaskHistory
import Pandamonium.Analysis.ActiveBinding
import Pandamonium.Analysis.SingleTask
import Pandamonium.Analysis.BrokerHistory
import Pandamonium.Analysis.UpdateHistory
import Pandamonium.Analysis.TokenAccounts
import Pandamonium.Analysis.BackupCodes
import Pandamonium.Analysis.ActionReplay
import Pandamonium.Analysis.EventMirror
import Pandamonium.Analysis.ExtractionInside
import Pandamonium.Analysis.MemoryUpdates
import Pandamonium.Analysis.ReadFailures
import Pandamonium.Analysis.JobHistory
import Pandamonium.Analysis.ReviewedDatasets
import Pandamonium.Analysis.RevisionHistory
import Pandamonium.Analysis.PlanExecutions
import Pandamonium.Analysis.BridgeRestart
import Pandamonium.Analysis.EventTriggers
import Pandamonium.Analysis.ManualCompaction
import Pandamonium.Analysis.FeedbackSubmissions
import Pandamonium.Analysis.FolderMigration
import Pandamonium.Analysis.StreamedToolCalls
import Pandamonium.Analysis.SlotPriority
import Pandamonium.Analysis.SingleExecution
import Pandamonium.Analysis.SharedFetches
import Pandamonium.Analysis.UploadDuplicates
import Pandamonium.Analysis.PersistedMessages
import Pandamonium.Analysis.SplitAnswers
import Pandamonium.Analysis.AdminRemains
import Pandamonium.Analysis.RestoredPrivileges
import Pandamonium.Analysis.SweptSessions
import Pandamonium.Analysis.AtomicReplacement
import Pandamonium.Analysis.RenamedOwners
import Pandamonium.Analysis.PromotionGate
import Pandamonium.Analysis.StreamedSegments
import Pandamonium.Analysis.CalendarRoundTrip
import Pandamonium.Analysis.NativeCalls
import Pandamonium.Analysis.RollbackChains
import Pandamonium.Analysis.UnknownOutcomes
import Pandamonium.Analysis.TrimmedBudget
import Pandamonium.Analysis.SanitizedCalls
import Pandamonium.Analysis.ClassCeilings
import Pandamonium.Analysis.CompactedHistory
import Pandamonium.Analysis.AuditedMemories
import Pandamonium.Analysis.FinishedJobs
import Pandamonium.Analysis.MasterEvents
import Pandamonium.Analysis.BackupContents
import Pandamonium.Analysis.FormRoundTrip
import Pandamonium.Analysis.StrippedProse
import Pandamonium.Analysis.RepeatedStaging
import Pandamonium.Analysis.LeastRuns
import Pandamonium.Analysis.ReservedUploads
import Pandamonium.Analysis.CappedSchemas
import Pandamonium.Analysis.FallbackStreams
import Pandamonium.Analysis.HarmonyPieces
import Pandamonium.Analysis.JsonNesting
import Pandamonium.Analysis.LaneReset
import Pandamonium.Analysis.RateWindows
import Pandamonium.Analysis.RedactedPreview
import Pandamonium.Analysis.ResultSizes
import Pandamonium.Analysis.StepfunCalls
import Pandamonium.Analysis.VersionPrecedence
import Pandamonium.Analysis.RepeatedCalls
