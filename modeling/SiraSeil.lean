import SiraSeil.Library.Sorting
import SiraSeil.Library.Dict
import SiraSeil.Library.Raising
import SiraSeil.Library.Envelope
import SiraSeil.Library.SubsetSearch
import SiraSeil.Library.Thresholds
import SiraSeil.Library.WeightedMean
import SiraSeil.Domain.Enums
import SiraSeil.Domain.Values
import SiraSeil.Domain.Hashing
import SiraSeil.Domain.Money
import SiraSeil.DecisionEngine.Bounds
import SiraSeil.DecisionEngine.RankStability
import SiraSeil.DecisionEngine.Models
import SiraSeil.DecisionEngine.Recall
import SiraSeil.DecisionEngine.Gates
import SiraSeil.DecisionEngine.Scores
import SiraSeil.DecisionEngine.Materials
import SiraSeil.DecisionEngine.Plans
import SiraSeil.DecisionEngine.Evaluation
import SiraSeil.DecisionEngine.Counterfactual
import SiraSeil.DecisionEngine.Minimality
import SiraSeil.DecisionEngine.Readings
import SiraSeil.DecisionEngine.PrivateFacts
import SiraSeil.DecisionEngine.GateTruth
import SiraSeil.DecisionEngine.Bundles
import SiraSeil.DecisionEngine.PlanIdentity
import SiraSeil.DecisionEngine.Selection
import SiraSeil.DecisionEngine.EvidenceUse
import SiraSeil.DecisionEngine.Ablation
import SiraSeil.DecisionEngine.ActorConflicts
import SiraSeil.DecisionEngine.InputOrder
import SiraSeil.DecisionEngine.Identities
import SiraSeil.DecisionEngine.LowerIsBetter
import SiraSeil.DecisionEngine.PreferenceMean
import SiraSeil.SiraApi.GraphLedger
import SiraSeil.SiraApi.LedgerCoverage
import SiraSeil.DecisionEngine.SetOrder
import SiraSeil.DecisionEngine.Aliases
import SiraSeil.DecisionEngine.Partition
import SiraSeil.DecisionEngine.References
import SiraSeil.DecisionEngine.Conflicts
import SiraSeil.Domain.BilateralExchange
import SiraSeil.Domain.ExchangeContracts
import SiraSeil.Library.Table
import SiraSeil.Persistence.BilateralRepository
import SiraSeil.Library.Interleaving
import SiraSeil.Persistence.CommandLog
import SiraSeil.SiraApi.ExchangeService
import SiraSeil.SiraApi.ExchangeRuns
import SiraSeil.SiraApi.ProjectionDelivery
import SiraSeil.SiraApi.ExchangeAgreement
import SiraSeil.Library.Transactions
import SiraSeil.Persistence.QualificationRepository
import SiraSeil.SiraWorker.QualificationWorker
import SiraSeil.SiraApi.ExchangeHandoffs
import SiraSeil.SiraApi.HandoffRetries
import SiraSeil.SiraApi.ReplayedCommands
import SiraSeil.SiraApi.QualificationService
import SiraSeil.SiraApi.ServiceOperations
import SiraSeil.Persistence.ActiveBundles
import SiraSeil.Persistence.QualificationKernel
import SiraSeil.Persistence.QualificationMoves
import SiraSeil.SiraWorker.WorkerOperations
import SiraSeil.SiraWorker.QualificationRuns
import SiraSeil.SiraWorker.GenerationFencing
import SiraSeil.SiraWorker.BundleActivation
import SiraSeil.SiraWorker.SnapshotDecisions
import SiraSeil.SiraWorker.BundleInvalidation
import SiraSeil.SiraWorker.MissionStates
import SiraSeil.SiraWorker.ChangefeedConsumer
import SiraSeil.SiraWorker.EngagementRuns
import SiraSeil.SiraWorker.Introductions
import SiraSeil.SiraWorker.ClosedEngagements
import SiraSeil.SiraApi.QualificationMutations
import SiraSeil.SiraApi.MutationReplays
import SiraSeil.SiraWorker.OutboxDispatcher
import SiraSeil.Persistence.PurchaseRepository
import SiraSeil.SiraApi.DecisionService
import SiraSeil.SiraApi.PurchaseApprovals
import SiraSeil.SiraApi.PurchaseRuns
import SiraSeil.SiraApi.PurchaseInvariants
import SiraSeil.SiraApi.ApprovalStages
import SiraSeil.SiraApi.PurchaseRecords
import SiraSeil.SiraApi.ApprovalOutcomes
import SiraSeil.SiraApi.DiscoveryCalls
import SiraSeil.SiraApi.RepeatedDiscovery
import SiraSeil.SiraApi.PaymentHandoffs
import SiraSeil.SiraApi.NextActions
import SiraSeil.SiraApi.Consents
import SiraSeil.SiraAgents.KernelModels
import SiraSeil.SiraAgents.ToolBroker
import SiraSeil.SiraAgents.ContextAssembler
import SiraSeil.Persistence.CognitiveRepository
import SiraSeil.SiraApi.CognitiveEngine
import SiraSeil.SiraApi.TurnAuthority
import SiraSeil.SiraApi.TurnJournal
import SiraSeil.SiraApi.TurnBudgets
import SiraSeil.SiraApi.TurnEffects
import SiraSeil.SiraApi.Cancellation
import SiraSeil.Library.Holding
import SiraSeil.Library.DepthFirst
import SiraSeil.Stackfile.Models
import SiraSeil.Stackfile.Patches
import SiraSeil.Stackfile.DependencyCycles
import SiraSeil.Stackfile.PatchHistories
import SiraSeil.SiraApi.ToolExecutions
import SiraSeil.Library.KeyedTree
import SiraSeil.Domain.Decimals
import SiraSeil.Domain.JsonText
import SiraSeil.Domain.CanonicalJson
import SiraSeil.Domain.PythonJson
import SiraSeil.Persistence.SellerRepository
import SiraSeil.SiraApi.SellerService
import SiraSeil.SiraApi.SellerAccess
import SiraSeil.Library.Fresh
import SiraSeil.SiraApi.EvidenceUploads
import SiraSeil.DecisionEngine.Closure
import SiraSeil.DecisionEngine.Autonomy
import SiraSeil.DecisionEngine.BundleCosts
import SiraSeil.DecisionEngine.EvidenceMixing
import SiraSeil.DecisionEngine.BundleRisk
import SiraSeil.SiraChangefeed.Handler
import SiraSeil.DecisionEngine.EvidenceTable
import SiraSeil.Domain.PrivatePlane
import SiraSeil.Domain.Releases
import SiraSeil.Domain.DecimalArithmetic
import SiraSeil.Domain.OfferTotals
import SiraSeil.Library.Paging
import SiraSeil.SiraApi.MissionEvents
import SiraSeil.Library.DepthFirstRuns
import SiraSeil.SiraApi.GuestSecurity
import SiraSeil.Library.TreePaths
import SiraSeil.Domain.Publication
import SiraSeil.Library.Regex
import SiraSeil.Library.Words
import SiraSeil.SiraAgents.Guardrails
import SiraSeil.Persistence.MissionRepository
import SiraSeil.Persistence.ExperimentRuns
import SiraSeil.Stackfile.Documents
import SiraSeil.Stackfile.CompactLocks
import SiraSeil.Domain.EqualJson
import SiraSeil.Stackfile.StoredSnapshots
import SiraSeil.Domain.Quantize
import SiraSeil.Domain.DecimalText
import SiraSeil.Domain.ExactMoney
import SiraSeil.Library.Grouping
import SiraSeil.SiraApi.CommercialTerms
import SiraSeil.Integrations.AutomatedReasoning
import SiraSeil.SiraChangefeed.Webhook
import SiraSeil.Domain.Rules
import SiraSeil.DecisionEngine.Candidates
import SiraSeil.Library.Tiling
import SiraSeil.Library.Backtracking
import SiraSeil.Domain.EvidenceParsing
import SiraSeil.Domain.InstructionMarkers
import SiraSeil.SiraApi.DraftValidation
import SiraSeil.SiraWorker.AttemptHistories
