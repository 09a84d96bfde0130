import OpenApe.Ports.ShellSegmentsSound
import OpenApe.Ports.YoloAgreement
import OpenApe.Ports.ExtensionFrame
import OpenApe.Ports.ExtensionCoverage
import OpenApe.Ports.MergedCoverage
import OpenApe.Ports.YoloVeto
import OpenApe.Ports.CodeSingleUse
import OpenApe.Ports.RefreshRotation
import OpenApe.Ports.ClientAssertion
import OpenApe.Ports.ProgramCoverage
import OpenApe.Ports.ProgramPolicies
import OpenApe.Ports.TimedApprovals
import OpenApe.Ports.ProxySsrf
import OpenApe.Ports.ProxyMatcher
import OpenApe.Ports.ScopedShapes
import OpenApe.Ports.ReferenceOnce
import OpenApe.Ports.ShapeWrites
import OpenApe.Ports.WorkspaceSafety
import OpenApe.Ports.WorkspaceIntegrity
import OpenApe.Ports.InboxDecisions
import OpenApe.Ports.InboxCache
import OpenApe.Ports.InboxOutbox
import OpenApe.Ports.SandboxSafety
import OpenApe.Ports.ArchiveReading
import OpenApe.Ports.ReuseCoverage
import OpenApe.Ports.CodingTask
import OpenApe.Ports.InboxMessages
import OpenApe.Ports.ShapeRendering
import OpenApe.Ports.ShapeArguments
import OpenApe.Ports.WideningScope
import OpenApe.Ports.RepositoryAccess
import OpenApe.Ports.RunRetention
import OpenApe.Ports.JournalHistory
import OpenApe.Ports.RecoveryCodes
import OpenApe.Ports.Clock
import OpenApe.Ports.DesktopSummary
import OpenApe.Ports.FamilyListing
import OpenApe.Ports.GrantListing
import OpenApe.Ports.LockExact
import OpenApe.Ports.GrantWithdrawal
import OpenApe.Ports.CapabilityWidth
import OpenApe.Ports.CommandLine
import OpenApe.Ports.FileEdit
import OpenApe.Ports.TaskFolders
import OpenApe.Ports.ChatStream
import OpenApe.Ports.MergeRisk
import OpenApe.Ports.GroupTags
import OpenApe.Ports.PatchRoundTrip
import OpenApe.Ports.MirrorProtection
import OpenApe.Ports.PlansRollback
import OpenApe.Ports.VaultContexts
import OpenApe.Ports.CanonicalJson
import OpenApe.Ports.RateLimits
import OpenApe.Ports.VaultApprovals
