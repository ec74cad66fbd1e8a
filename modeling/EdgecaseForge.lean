import EdgecaseForge.TransitionRuns
import EdgecaseForge.DictCore
import EdgecaseForge.FlashCartState
import EdgecaseForge.FlashCartThreads
import EdgecaseForge.FlashCartStore
import EdgecaseForge.FlashCartInventory
import EdgecaseForge.FlashCartPayments
import EdgecaseForge.FlashCartIdentity
import EdgecaseForge.FlashCartSerial
import EdgecaseForge.FlashCartBooks
import EdgecaseForge.FlashCartCheckouts
import EdgecaseForge.FlashCartStatus
import EdgecaseForge.FlashCartCoherence
import EdgecaseForge.TextCore
import EdgecaseForge.TextUtf8
import EdgecaseForge.DecimalDigits
import EdgecaseForge.DecimalLiteral
import EdgecaseForge.FloatCore
import EdgecaseForge.FloatText
import EdgecaseForge.FloatArith
import EdgecaseForge.ExceptCore
import EdgecaseForge.EffectCore
import EdgecaseForge.ShaCore
import EdgecaseForge.JsonCore
import EdgecaseForge.JsonEncode
import EdgecaseForge.JsonScan
import EdgecaseForge.JsonRoundTrip
import EdgecaseForge.JsonLocal
import EdgecaseForge.JsonLines
import EdgecaseForge.JsonEncodable
import EdgecaseForge.JsonRepr
import EdgecaseForge.ProviderErrors
import EdgecaseForge.FileTree
import EdgecaseForge.JsonFiles
import EdgecaseForge.ExecutionResults
import EdgecaseForge.DifferentialEvidence
import EdgecaseForge.CaseEvidence
import EdgecaseForge.ScanReports
import EdgecaseForge.ProgressReader
import EdgecaseForge.CaseEvaluation
import EdgecaseForge.DiskPrograms
import EdgecaseForge.DifferentialNodes
import EdgecaseForge.ScanArtifacts
import EdgecaseForge.WrittenFiles
import EdgecaseForge.CandidateKills
import EdgecaseForge.CaseRuns
import EdgecaseForge.TreeAgreement
import EdgecaseForge.ProgressEvidence
import EdgecaseForge.CaseArtifacts
import EdgecaseForge.FrozenBenchmark
import EdgecaseForge.CaseRows
import EdgecaseForge.CaseLedger
import EdgecaseForge.LedgerText
import EdgecaseForge.LedgerFile
import EdgecaseForge.LedgerRoundTrip
import EdgecaseForge.ByteFraming
import EdgecaseForge.ProgressAccepted
import EdgecaseForge.TreeTampering
import EdgecaseForge.DifferentialConsistency
import EdgecaseForge.ScanExecution
import EdgecaseForge.RegexCore
import EdgecaseForge.CrashLocations
import EdgecaseForge.FailureKinds
import EdgecaseForge.FailureClassification
import EdgecaseForge.PyNumbers
import EdgecaseForge.ProviderPosts
import EdgecaseForge.ProviderAnswers
import EdgecaseForge.AttemptRounds
import EdgecaseForge.AttemptAccounts
import EdgecaseForge.SyntaxTrees
import EdgecaseForge.RetryOracle
import EdgecaseForge.RepositoryContext
import EdgecaseForge.RouteFacts
import EdgecaseForge.RepositoryMaps
import EdgecaseForge.IgnoredFiles
import EdgecaseForge.GreedyPrefix
import EdgecaseForge.ContextBudgets
import EdgecaseForge.Medians
import EdgecaseForge.PySums
import EdgecaseForge.SuiteSummaries
import EdgecaseForge.Adjudications
import EdgecaseForge.AdjudicationFiles
import EdgecaseForge.ScoredLedgers
import EdgecaseForge.ScoreOrder
import EdgecaseForge.JsonDecoded
import EdgecaseForge.JsonEquality
import EdgecaseForge.Overlays
import EdgecaseForge.OverlayPayloads
import EdgecaseForge.OverlayRuns
import EdgecaseForge.Eligibility
import EdgecaseForge.ConfirmedEvidence
import EdgecaseForge.SuiteRuns
import EdgecaseForge.QuietPrograms
import EdgecaseForge.FrozenSuites
import EdgecaseForge.SuiteInvariant
import EdgecaseForge.SuiteLoops
import EdgecaseForge.SuiteHistories
import EdgecaseForge.ResumedSuites
import EdgecaseForge.MapFingerprint
import EdgecaseForge.RouteDiscovery
import EdgecaseForge.RetryAcceptance
import EdgecaseForge.FlashCartRejections
import EdgecaseForge.RouteReach
import EdgecaseForge.RouteGather
import EdgecaseForge.StateWrites
import EdgecaseForge.AsyncTwins
import EdgecaseForge.ContractLinks
import EdgecaseForge.StrictSchemas
import EdgecaseForge.TokenAccounts
import EdgecaseForge.CallOrder
import EdgecaseForge.SuiteFingerprints
import EdgecaseForge.ToolSchemas
import EdgecaseForge.FencedAnswers
import EdgecaseForge.OverlayFailures
import EdgecaseForge.ContainedErrors
import EdgecaseForge.RankedRuns
import EdgecaseForge.FlashCartProgress
import EdgecaseForge.FlashCartEvents
import EdgecaseForge.LockstepRuns
import EdgecaseForge.FlashCartVariants
import EdgecaseForge.FlashCartSteady
import EdgecaseForge.FlashCartTwins
import EdgecaseForge.FlashCartMutants
import EdgecaseForge.FlashCartDetections
import EdgecaseForge.RefinedRuns
import EdgecaseForge.FlashCartRaces
import EdgecaseForge.FlashCartOversells
import EdgecaseForge.FlashCartUnlocked
import EdgecaseForge.FlashCartDuplicates
import EdgecaseForge.Occurrences
import EdgecaseForge.CoupledPrograms
import EdgecaseForge.TreeOperations
import EdgecaseForge.CaseBuilds
import EdgecaseForge.CaseEdits
import EdgecaseForge.BuiltCases
import EdgecaseForge.RebuiltCases
import EdgecaseForge.NeutralRuns
import EdgecaseForge.NeutralKills
import EdgecaseForge.JsonBytes
import EdgecaseForge.RecentCalls
import EdgecaseForge.Preflights
import EdgecaseForge.CheckedManifests
import EdgecaseForge.PreflightChecks
import EdgecaseForge.PassedPreflights
import EdgecaseForge.PreflightHistories
import EdgecaseForge.ArtifactHashes
import EdgecaseForge.PytestRuns
import EdgecaseForge.NeutralIntegrity
import EdgecaseForge.ContainedRuns
import EdgecaseForge.NeutralSandboxes
