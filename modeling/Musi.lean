import Musi.Js.JsonRoundTrip
import Musi.Js.Number
import Musi.Js.JsonWire
import Musi.Js.JsonLines
import Musi.Js.Throw
import Musi.Js.Buckets
import Musi.Merge.ThreeWay
import Musi.System.Runs
import Musi.LintRatchet.Kernel.CodepointCompare
import Musi.LintRatchet.Kernel.Types
import Musi.LintRatchet.Kernel.PosixHost
import Musi.LintRatchet.Kernel.Patterns
import Musi.LintRatchet.Kernel.BaselineHash
import Musi.LintRatchet.Kernel.MetricsComplexity
import Musi.LintRatchet.Kernel.MetricStrategies
import Musi.LintRatchet.Kernel.GroupBaselineMerge
import Musi.LintRatchet.Kernel.ItemMerge
import Musi.LintRatchet.Kernel.GroupBaselineParse
import Musi.LintRatchet.Kernel.EntryBaseline
import Musi.LintRatchet.Kernel.Merge
import Musi.LintRatchet.Kernel.MergeFloor
import Musi.LintRatchet.Kernel.MergeSymmetry
import Musi.LintRatchet.Kernel.MergeFastPaths
import Musi.LintRatchet.Kernel.BaselineSpec
import Musi.LintRatchet.Kernel.Baseline
import Musi.LintRatchet.Kernel.RegistryValidation
import Musi.LintRatchet.Kernel.RegistryOrder
import Musi.LintRatchet.Kernel.StableJson
import Musi.Js.PosixPath
import Musi.System.Search
import Musi.LintRatchet.Kernel.RuleSource
import Musi.LintRatchet.Kernel.RuleSourceClosure
import Musi.LintRatchet.Kernel.RuleSourceReachability
import Musi.LintRatchet.Kernel.ItemCodec
import Musi.LintRatchet.Kernel.BaselineRoundTrip
import Musi.LintRatchet.Kernel.BaselineFacts
import Musi.LintRatchet.Kernel.OneRatchet
import Musi.LintRatchet.Kernel.CanonicalValue
import Musi.LintRatchet.Kernel.MergeRounds
import Musi.LintRatchet.Kernel.MergeIdentity
import Musi.LintRatchet.Kernel.MergeItems
import Musi.LintRatchet.Kernel.DriverSymmetry
import Musi.LintRatchet.Kernel.DriverFloor
import Musi.LintRatchet.Kernel.CodecRoundTrip
import Musi.LintRatchet.Kernel.CanonicalLossless
import Musi.LintRatchet.Kernel.DriverGate
import Musi.LintRatchet.Kernel.MetricFacts
import Musi.LintRatchet.Kernel.BaselineCompare
import Musi.LintRatchet.Kernel.BaselineUpdate
import Musi.LintRatchet.Kernel.UpdateFacts
import Musi.LintRatchet.Kernel.UpdateSafety
import Musi.LintRatchet.Kernel.MigrationSafety
import Musi.LintRatchet.Kernel.CurrentCollectionScheduler
import Musi.LintRatchet.Kernel.MessageIdentity
import Musi.LintRatchet.Kernel.CurrentCollector
import Musi.LintRatchet.Kernel.CollectorFindings
import Musi.LintRatchet.Kernel.CollectorOrder
import Musi.LintRatchet.Kernel.CollectorIndependence
import Musi.LintRatchet.Governance.DebtLog
import Musi.LintRatchet.Governance.UpdateRetry
import Musi.LintRatchet.Governance.DebtAccounting
import Musi.LintRatchet.Governance.DebtLogRoundTrip
import Musi.LintRatchet.Governance.AccountingFacts
import Musi.LintRatchet.Governance.ChainSoundness
import Musi.LintRatchet.Governance.DebtAgreement
import Musi.LintRatchet.Governance.GateStrictness
import Musi.LintRatchet.Governance.UpdateRecords
import Musi.LintRatchet.Governance.LifecycleAgreement
import Musi.EslintConfig.RestrictedSyntaxBuilder
import Musi.EslintConfig.ChainFacts
import Musi.EslintConfig.RestrictedSyntaxResolution
import Musi.EslintConfig.RestrictedSyntaxComposition
import Musi.Shell.Text
import Musi.Verify.SuccessMarker
import Musi.Verify.MarkerFreshness
import Musi.Verify.MemoryBudget
import Musi.Verify.MemoryAdmission
import Musi.Verify.AdmissionSafety
import Musi.Verify.ParallelSteps
import Musi.Verify.SlotPlanning
import Musi.Verify.SlotAccounting
import Musi.Verify.ParallelRuns
import Musi.Verify.SlotOutcomes
import Musi.Verify.ParallelAccounting
import Musi.Verify.EvidenceTransaction
import Musi.Verify.EvidenceSafety
import Musi.Verify.EvidenceRuns
import Musi.System.PrefixCode
import Musi.Verify.RepositoryState
import Musi.Verify.PrecommitFingerprint
import Musi.LintRatchet.Kernel.RuleSourceIdentity
import Musi.LintRatchet.GitRail.InfoAttributes
import Musi.System.Brackets
import Musi.LintRatchet.GitRail.AttributesFold
import Musi.LintRatchet.GitRail.AttributesStability
import Musi.LintRatchet.GitRail.AttributesDrivers
import Musi.LintRatchet.Kernel.RepoRoot
import Musi.LintRatchet.Kernel.MessageStability
import Musi.LintRatchet.Kernel.GroupBaselineCompare
import Musi.LintRatchet.Kernel.Gate
import Musi.DriftAi.PathUtil
import Musi.DriftAi.FeatureHash
import Musi.Js.Order
import Musi.DriftAi.NearDuplicates
import Musi.DriftAi.NearDuplicatesExact
import Musi.DriftAi.ExactCloneHash
import Musi.Js.Joined
import Musi.DriftAi.NearDuplicatesNaive
import Musi.DriftAi.MinhashLsh
import Musi.DriftAi.MinhashCandidates
import Musi.Js.Values
import Musi.DriftAi.EnvDefineEvaluation
import Musi.DriftAi.BranchPrediction
import Musi.ImportClosure.RuntimeImports
import Musi.ImportClosure.EnvironmentPolicy
import Musi.ImportClosure.ClosureMemo
import Musi.Js.RelativePath
import Musi.System.Worklist
import Musi.ImportClosure.ClosureWalk
import Musi.ImportClosure.ClosureWalkExact
import Musi.ImportClosure.ClosureViolations
import Musi.System.StrongComponents
import Musi.DriftAi.ImportCycles
import Musi.DriftAi.ImportCyclesFinish
import Musi.DriftAi.ImportCyclesComponents
import Musi.System.EditDistance
import Musi.DriftAi.Levenshtein
import Musi.DriftAi.GhostTokens
import Musi.DriftAi.GhostMatch
import Musi.DriftAi.GhostBuckets
import Musi.DriftAi.GhostBucketsExact
import Musi.CodeIntel.WorkspaceResolver
import Musi.CodeIntel.GraphQueries
import Musi.CodeIntel.GraphQueriesExact
import Musi.CodeIntel.ImportGraph
import Musi.Js.TokenCounts
import Musi.DriftAi.SiblingNaming
import Musi.DriftAi.SiblingNamingExact
import Musi.DriftAi.DolosCsv
import Musi.DriftAi.DolosCsvExact
import Musi.MigrationSafety.SqlLexer
import Musi.MigrationSafety.SqlPatterns
import Musi.MigrationSafety.SqlScanExact
import Musi.DriftAi.HotspotsHistory
import Musi.DriftAi.HotspotsHistoryExact
import Musi.DriftAi.HotspotsCoupling
import Musi.DriftAi.HotspotsCouplingTally
import Musi.DriftAi.HotspotsCouplingRanking
import Musi.DriftAi.HotspotsCouplingExact
import Musi.DriftAi.LineScanner
import Musi.DriftAi.LineScannerExact
import Musi.DriftAi.Suppressions
import Musi.DriftAi.SuppressionPaths
import Musi.DriftAi.SuppressionsExact
import Musi.DriftTriage.VerdictCollect
import Musi.DriftTriage.VerdictCollectExact
import Musi.Js.JsonSyntax
import Musi.System.Propagation
import Musi.PathPolicy.FixtureHelperCalls
import Musi.PathPolicy.FixtureHelperCallsExact
import Musi.System.Components
import Musi.DriftTriage.TriageReport
import Musi.DriftTriage.TriagePackets
import Musi.DriftTriage.TriagePacketsExact
import Musi.Js.Text
import Musi.Bash.Words
import Musi.Bash.Script
import Musi.Bash.Run
import Musi.Harness.CommandPolicy
import Musi.Harness.CommandPolicyExact
import Musi.DriftAi.CoverageCorrelation
import Musi.DriftAi.CoverageCorrelationExact
import Musi.Bash.References
import Musi.Bash.Arrays
import Musi.Harness.VerifySteps
import Musi.Harness.VerifyStepsExact
import Musi.LintRatchet.Kernel.CodepointOrder
import Musi.AiHooks.ThrottleState
import Musi.AiHooks.ThrottleRuns
import Musi.AiHooks.TargetDir
import Musi.AiHooks.TargetDirExact
import Musi.EslintRules.MaxLines
import Musi.System.Flow
import Musi.EslintRules.SwallowedErrorsPaths
import Musi.Harness.HookSettings
import Musi.Harness.HookSettingsExact
import Musi.LintRatchet.Governance.UnionMerge
import Musi.LintRatchet.Governance.EditCheck
import Musi.LintRatchet.Governance.EditCheckSweep
import Musi.LintRatchet.Governance.EditCheckHook
import Musi.LintRatchet.Kernel.GeneratedBaseline
import Musi.LintRatchet.Governance.UpdateGate
