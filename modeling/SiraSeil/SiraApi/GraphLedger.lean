-- SUMMARY: The Decision Ledger of one decision: component results, solution plans, the frozen payload and its hash.
import SiraSeil.DecisionEngine.Counterfactual
import SiraSeil.Domain.Hashing

/-!
# The Decision Ledger

`sira_api/graph_ledger.py` serializes a decision into the ledger contract. The
engine works with canonical product ids and assesses evidence that no record
supports; the ledger joins its plans and assessments again by the product ids
and evidence ids that the candidates were written with.
-/

namespace SiraApi

open Domain Sorting DecisionEngine

/-- Identifiers that the database owns and the graph does not know. -/
structure DecisionLedgerMetadata where
  decisionId : String
  decisionVersion : Int
  supersedesDecisionId : Option String
  requestId : String
  purchaseBriefId : String
  purchaseBriefVersion : Int
  requirementBriefId : String
  requirementBriefVersion : Int
  companyProfileVersion : Int
  stackSnapshot : Int
  policyVersion : Int
  createdAt : Datetime
  selectedStackPatchId : Option String := none

/-! ## Texts -/

/-- `_timestamp` -/
def timestamp (value : Datetime) : Py String :=
  if value.aware then .ok (String.ofList (Rfc8785.datetimeText value.micros))
  else .error (.value "Decision Ledger timestamps must be timezone-aware")

/-- The quotient rounded to an integer, ties to the even one. -/
def roundHalfEven (n d : Nat) : Nat :=
  if 2 * (n % d) < d ∨ (2 * (n % d) = d ∧ n / d % 2 = 0) then n / d else n / d + 1

/-- `ExactRatio.display` of a score between zero and 100: the quotient has fifty
    significant digits before it is rounded to two places. -/
def display (q : ℚ) : String :=
  let n := q.num.toNat
  let shift := 50 + (Nat.toDigits 10 q.den).length
  let digits := (Nat.toDigits 10 (n * 10 ^ shift / q.den)).length
  let places := shift + 50 - digits
  let quotient := roundHalfEven (n * 10 ^ places) q.den
  let cents := roundHalfEven (quotient * 100) (10 ^ places)
  toString (cents / 100) ++ "." ++ Money.twoDigits (cents % 100)

/-- `_ratio(value, display=True)` -/
def displayedRatio (q : ℚ) : Value :=
  .obj [("numerator", .int q.num), ("denominator", .nat q.den), ("display", .str (display q))]

/-- `_unavailable` -/
def unavailable (reasonCode : String) : Value :=
  .obj [("status", .str "BOUND_UNAVAILABLE"), ("reason_code", .str reasonCode)]

/-! ## Gates and evidence -/

/-- `_reason` of a reason that is present. -/
def reason (value : GateReason) : Value :=
  .obj [("reason_code", .str value.reasonCode), ("status", .str value.status.value),
    ("detail", .str value.detail)]

/-- `_gate` -/
def gate (value : GateResult) : Value :=
  .obj [("gate_id", .str value.gateId), ("truth", .str value.truth.value),
    ("reasons", .seq (value.reasons.map reason)),
    ("evaluated_predicates", .strs value.evaluatedPredicates),
    ("permitted_resolution", .opt .str value.permittedResolution)]

/-- The entry of an assessment and the record it rests on. -/
def assessmentEntry (value : EvidenceAssessment) (source : EvidenceRecord) : Value :=
  .obj [("evidence_id", .str value.evidenceId), ("record_id", .str value.recordId),
    ("field", .str value.field), ("source_class", .str source.sourceClass),
    ("verification_method", .str source.verificationMethod),
    ("scope_match", .bool value.scopeMatch), ("reconstructable", .bool value.reconstructable),
    ("freshness_current", .opt .bool value.freshnessCurrent), ("disputed", .bool value.disputed),
    ("revoked", .bool value.revoked), ("state", .str value.state.value),
    ("reasons", .strs value.reasons),
    ("age_bounds", .opt EvidenceAgeBounds.toValue value.ageBounds)]

/-- `_evidence_assessment`. A missing record is a `KeyError`, although the engine
    assesses such evidence too. -/
def evidenceAssessment (evidenceById : Dict String EvidenceRecord) (value : EvidenceAssessment) :
    Py Value := do
  return assessmentEntry value (← getItem evidenceById value.evidenceId value.evidenceId)

/-! ## Solution plans -/

/-- A bound, or the reason why there is none. -/
def boundOr {α : Type} (missingReason : String) (f : α → Value) : Option α → Value
  | some a => f a
  | none => unavailable missingReason

/-- `_dimensions` -/
def dimensions (value : PlanDimensions) : Value :=
  let missingReason := value.boundUnavailableReasons.head?.getD "BOUND_INPUT_UNAVAILABLE"
  let cost := value.totalCost
  .obj [
    ("preference", boundOr missingReason (fun p =>
      .obj [("conservative", displayedRatio p.conservative),
        ("optimistic", displayedRatio p.optimistic)]) value.preference),
    ("stack_risk", .obj [
      ("lower", boundOr missingReason (fun r => .str r.lower.value) value.stackRisk),
      ("base", boundOr missingReason (fun r => .str r.base.value) value.stackRisk),
      ("upper", boundOr missingReason (fun r => .str r.upper.value) value.stackRisk)]),
    ("total_cost", .obj [("low", boundOr missingReason Money.toValue cost.low),
      ("base", boundOr missingReason Money.toValue cost.base),
      ("high", boundOr missingReason Money.toValue cost.high)]),
    ("cost_line_items", .seq (cost.lineItems.map lineItemValue)),
    ("payment_required", .bool cost.paymentRequired),
    ("hard_coverage", .obj [("numerator", .nat value.hardCoverage.numerator),
      ("denominator", .nat value.hardCoverage.denominator)]),
    ("decision_material_coverage", .obj [
      ("conservative", .ratio value.decisionMaterialCoverage.conservative),
      ("optimistic", .ratio value.decisionMaterialCoverage.optimistic)]),
    ("maximum_evidence_age_ratio", value.maximumEvidenceAgeRatio.toValue),
    ("universe_coverage", .ratio value.universeCoverage),
    ("unresolved_count", .nat value.unresolvedCount),
    ("conflicting_count", .nat value.conflictingCount),
    ("bound_unavailable_reasons", .strs value.boundUnavailableReasons)]

/-- A component is named after the candidate that has its product id, if there is one. -/
def solutionComponent (candidateByProduct : Dict String RawCandidateRecord)
    (component : PlanComponent) : Value :=
  let candidate := candidateByProduct.get? component.componentId
  .obj [("component_id", .str component.componentId),
    ("source_type", .str (if candidate.isSome then "PRODUCT_EVIDENCE" else "CURRENT_INSTANCE")),
    ("source_id", .str (candidate.elim component.componentId (·.recordId))),
    ("action_type", .str component.action.value)]

def scoreEntry (score : ScoreComponent) (coverageWeight : Nat) : Value :=
  .obj [("criterion_id", .str score.criterionId), ("weight", .nat score.weight),
    ("coverage_weight", .nat coverageWeight),
    ("conservative_satisfaction", .ratio score.conservativeSatisfaction),
    ("optimistic_satisfaction", .ratio score.optimisticSatisfaction),
    ("conservative_contribution", .ratio score.contributionConservative),
    ("optimistic_contribution", .ratio score.contributionOptimistic),
    ("evidence_ids", .strs score.evidenceIds), ("evidence_state", .str score.evidenceState.value),
    ("prior_label", .opt .str score.priorLabel)]

/-- `{item.criterion_id: item.coverage_weight for item in decision_input.preferences}` -/
def coverageWeights (input : DecisionGraphInput) : Dict String Nat :=
  .ofList (input.preferences.map (fun c => (c.criterionId, c.coverageWeight)))

/-- One score of `_solution_plan`. -/
def scoreComponent (input : DecisionGraphInput) (score : ScoreComponent) : Py Value := do
  return scoreEntry score (← getItem (coverageWeights input) score.criterionId score.criterionId)

/-- `{id: rank for rank, id in enumerate(ranked_plan_ids, start=1)}` -/
def rankById (rankedPlanIds : List String) : Dict String Nat :=
  .ofList (rankedPlanIds.zipIdx 1)

/-- `_solution_plan` -/
def solutionPlan (decision : DecisionGraphDecision) (input : DecisionGraphInput)
    (selectedStackPatchId : Option String) (plan : EvaluatedPlan) : Py Value := do
  let candidateByProduct := Dict.ofList (input.candidates.map (fun c => (c.productId, c)))
  let scores ← plan.scoreComponents.mapM (scoreComponent input)
  return .obj [("solution_plan_id", .str plan.planId), ("action_type", .str plan.action.value),
    ("components", .seq (plan.components.map (solutionComponent candidateByProduct))),
    ("component_hash", .str plan.componentHash),
    ("construction_lifecycle", .str plan.constructionLifecycle.value),
    ("lifecycle", .str plan.lifecycle.value), ("status", .str plan.status.value),
    ("primary_reason", .opt reason plan.primaryReason),
    ("gate_results", .seq (plan.gateResults.map gate)), ("score_components", .seq scores),
    ("dimensions", dimensions plan.dimensions),
    ("stable_action_ids", .strs plan.stableActionIds),
    ("rank", .opt .nat ((rankById decision.base.rankedPlanIds).get? plan.planId)),
    ("ordering_frontier_member", .bool plan.orderingFrontierMember),
    ("resolution_frontier_member", .bool plan.resolutionFrontierMember),
    ("quote_required", .bool plan.quoteRequired),
    ("quote_policy_reason", .str plan.quotePolicyReason.value),
    ("permitted_resolution", .opt .str plan.permittedResolution),
    ("autonomous_execution_allowed", .bool plan.autonomousExecutionAllowed),
    ("stack_patch_id", if some plan.planId = decision.base.selectedPlanId
      then .opt .str selectedStackPatchId else .null)]

/-! ## Component results -/

structure ComponentResult where
  componentId : String
  name : String
  packId : String
  packVersion : Nat
  publisherAuthority : PackAuthority
  status : CandidateStatus
  primaryReason : Option GateReason
  gateResults : List GateResult
  evidenceAssessments : List Value

def ComponentResult.toValue (r : ComponentResult) : Value :=
  .obj [("component_id", .str r.componentId), ("name", .str r.name), ("pack_id", .str r.packId),
    ("pack_version", .nat r.packVersion), ("current_instance_id", .null),
    ("publisher_authority", .str r.publisherAuthority.value), ("status", .str r.status.value),
    ("primary_reason", .opt reason r.primaryReason),
    ("gate_results", .seq (r.gateResults.map gate)),
    ("evidence_assessments", .seq r.evidenceAssessments)]

/-- A plan whose last component is a pack, under the product id of that component. -/
def packPlan? (plan : EvaluatedPlan) : Option (String × EvaluatedPlan) :=
  match plan.components.getLast? with
  | none => none
  | some component =>
    if component.sourceType = .pack then some (component.componentId, plan) else none

/-- `plan_by_product` -/
def planByProduct (plans : List EvaluatedPlan) : Dict String EvaluatedPlan :=
  .ofList (plans.filterMap packPlan?)

/-- `recalled_record_ids` -/
def recalledRecordIds (evaluation : DecisionGraphEvaluation) : List String :=
  evaluation.identityRecords.flatMap (·.recordIds)

/-- The candidates that get an entry: recalled, and the first with their product id. -/
def emit (recalled : List String) : List String → List RawCandidateRecord → List RawCandidateRecord
  | _, [] => []
  | emitted, candidate :: candidates =>
    if candidate.recordId ∉ recalled ∨ candidate.productId ∈ emitted then
      emit recalled emitted candidates
    else candidate :: emit recalled (candidate.productId :: emitted) candidates

def emittedCandidates (evaluation : DecisionGraphEvaluation) (input : DecisionGraphInput) :
    List RawCandidateRecord :=
  emit (recalledRecordIds evaluation) [] (sortedBy (·.recordId) input.candidates)

/-- The assessments of the evidence that a candidate cites, by evidence id and field. -/
def relevantAssessments (index : AssessmentIndex) (candidate : RawCandidateRecord) :
    List EvidenceAssessment :=
  let relevant := (factPairs candidate.facts).filterMap index.get?
  sortedBy (fun a => toLex (a.evidenceId, a.field))
    ((assessmentIndex relevant).items.map Prod.snd)

/-- One round of the loop of `build_decision_ledger`. -/
def componentResult (evaluation : DecisionGraphEvaluation) (input : DecisionGraphInput)
    (names : Dict String String) (candidate : RawCandidateRecord) : Py ComponentResult := do
  let plan ← getItem (planByProduct evaluation.plans) candidate.productId candidate.productId
  let evidenceById := Dict.ofList (input.evidence.map (fun e => (e.evidenceId, e)))
  let assessments ← (relevantAssessments (assessmentIndex evaluation.evidenceAssessments)
    candidate).mapM (evidenceAssessment evidenceById)
  return {
    componentId := candidate.productId
    name := (names.get? candidate.packId).getD candidate.packId
    packId := candidate.packId
    packVersion := candidate.packVersion
    publisherAuthority := candidate.authority
    status := plan.status
    primaryReason := plan.primaryReason
    gateResults := plan.gateResults
    evidenceAssessments := assessments }

def componentResults (evaluation : DecisionGraphEvaluation) (input : DecisionGraphInput)
    (names : Dict String String) : Py (List ComponentResult) :=
  (emittedCandidates evaluation input).mapM (componentResult evaluation input names)

/-! ## The payload -/

def frozenVersions (versions : FrozenVersions) : Value :=
  .obj [("request", .str versions.requestVersion),
    ("company_profile", .str versions.companyProfileVersion),
    ("stackfile", .str versions.stackfileVersion), ("registry", .str versions.registryVersion),
    ("pack_set", .str versions.packSetVersion), ("offer_set", .str versions.offerSetVersion),
    ("taxonomy", .str versions.taxonomyVersion),
    ("normalization", .str versions.normalizationVersion), ("policy", .str versions.policyVersion),
    ("fx", .str versions.fxVersion), ("pipeline", .str versions.pipelineVersion),
    ("engine", .str versions.engineVersion)]

def stabilitySummary : RankStability → String
  | .stable => "The selected plan remains first across the supported uncertainty bounds."
  | .unstable => "One or more plans can outrank the selection within supported bounds."
  | .undetermined => "At least one ordering bound is unavailable."

def frontierEntry (planId : String) : Value :=
  .obj [("criterion_id", .str "ordering_frontier"), ("reason_code", .str "ORDERING_OVERLAP"),
    ("option_ids", .strs [planId]),
    ("permitted_resolution", .str "Collect fresher decision-material evidence.")]

def evaluationEntry (evaluation : DecisionGraphEvaluation) (evaluatedAt : String) : Value :=
  .obj [("evaluation_id", .str evaluation.evaluationId), ("evaluated_at", .str evaluatedAt),
    ("evaluation_payload_hash", .str evaluation.evaluationPayloadHash),
    ("frozen_versions", frozenVersions evaluation.versions),
    ("ranked_solution_plan_ids", .strs evaluation.rankedPlanIds),
    ("ordering_frontier_plan_ids", .strs evaluation.orderingFrontierPlanIds),
    ("bound_unavailable_plan_ids", .strs evaluation.boundUnavailablePlanIds)]

def evaluatedUniverse (evaluation : DecisionGraphEvaluation) (input : DecisionGraphInput) : Value :=
  let coverage := evaluation.coverage
  let included := sortedSet (recalledRecordIds evaluation)
  .obj ([("raw_record_count", .nat coverage.rawRecordCount),
    ("product_evidence_option_count", .nat coverage.packCandidateCount),
    ("canonical_product_count", .nat coverage.canonicalProductCount),
    ("duplicate_count", .nat coverage.duplicateCount),
    ("generated_solution_plan_count", .nat coverage.generatedSolutionPlanCount),
    ("evaluated_solution_plan_count", .nat coverage.evaluatedSolutionPlanCount),
    ("excluded_count", .nat coverage.excludedCount), ("included_record_ids", .strs included),
    ("excluded_record_ids", .strs (sortedSet
      ((input.candidates.map (·.recordId)).filter (fun id => id ∉ included)))),
    ("identity_merges", .seq (evaluation.identityMerges.map IdentityMerge.toValue)),
    ("coverage_statement", .str coverage.statement)] ++
    if evaluation.recallExclusions.isEmpty then []
    else [("exclusion_reasons", .seq (evaluation.recallExclusions.map RecallExclusion.toValue))])

def counterfactualEntry (record : CounterfactualRecord) : Value :=
  .obj [("outcome", .str record.outcome.value), ("removed_fact_ids", .strs record.removedFactIds),
    ("alternative_fact_id_sets", .seq (record.alternativeFactIdSets.map Value.strs)),
    ("tested_limit", .nat record.testedLimit),
    ("before_evaluation_payload_hash", .str record.beforeEvaluationPayloadHash),
    ("after_evaluation_payload_hash", .opt .str record.afterEvaluationPayloadHash),
    ("generic_evaluation_payload_hash", .str record.genericEvaluationPayloadHash),
    ("before_selected_plan_id", .opt .str record.beforeSelectedPlanId),
    ("after_selected_plan_id", .opt .str record.afterSelectedPlanId),
    ("generic_selected_plan_id", .opt .str record.genericSelectedPlanId),
    ("changed_gate_ids", .strs record.changedGateIds), ("record_hash", .str record.recordHash)]

/-- The fields of the ledger before its hash, from the parts that can raise. -/
def ledgerFields (decision : DecisionGraphDecision) (input : DecisionGraphInput)
    (metadata : DecisionLedgerMetadata) (results : List ComponentResult) (plans : List Value)
    (evaluatedAt createdAt : String) : List (String × Value) :=
  let evaluation := decision.base
  [("schema_version", .str "1.0.0"), ("decision_id", .str metadata.decisionId),
    ("decision_version", .int metadata.decisionVersion), ("decision_state", .str "CURRENT"),
    ("supersedes_decision_id", .opt .str metadata.supersedesDecisionId),
    ("request_id", .str metadata.requestId), ("purchase_brief_id", .str metadata.purchaseBriefId),
    ("purchase_brief_version", .int metadata.purchaseBriefVersion),
    ("requirement_brief_id", .str metadata.requirementBriefId),
    ("requirement_brief_version", .int metadata.requirementBriefVersion),
    ("company_profile_version", .int metadata.companyProfileVersion),
    ("stack_snapshot", .int metadata.stackSnapshot),
    ("policy_version", .int metadata.policyVersion),
    ("evaluation", evaluationEntry evaluation evaluatedAt),
    ("evaluated_universe", evaluatedUniverse evaluation input),
    ("component_results", .seq (results.map ComponentResult.toValue)),
    ("solution_plans", .seq plans),
    ("decision_outcome", .str (if evaluation.selectedPlanId.isSome then "SELECTED_SOLUTION_PLAN"
      else "NO_ELIGIBLE_SUPPORTED_ACTION")),
    ("selected_solution_plan_id", .opt .str evaluation.selectedPlanId),
    ("rank_stability", .obj [("status", .str evaluation.rankStability.value),
      ("summary", .str (stabilitySummary evaluation.rankStability)),
      ("evidence_frontier", .seq (evaluation.orderingFrontierPlanIds.map frontierEntry))]),
    ("counterfactuals", .seq [counterfactualEntry decision.counterfactual]),
    ("created_at", .str createdAt)] ++
  if input.actorConflictResolutions.isEmpty then []
  else [("actor_conflict_resolutions",
    .seq (input.actorConflictResolutions.map ActorConflictResolution.toValue))]

structure DecisionLedger where
  componentResults : List ComponentResult
  fields : List (String × Value)
  decisionHash : String

variable (rt : Runtime)

/-- `build_decision_ledger` -/
def buildDecisionLedger (decision : DecisionGraphDecision) (input : DecisionGraphInput)
    (metadata : DecisionLedgerMetadata) (names : Dict String String) : Py DecisionLedger := do
  let results ← componentResults decision.base input names
  let evaluatedAt ← timestamp decision.base.evaluatedAt
  let plans ← decision.base.plans.mapM (solutionPlan decision input metadata.selectedStackPatchId)
  let createdAt ← timestamp metadata.createdAt
  let fields := ledgerFields decision input metadata results plans evaluatedAt createdAt
  return ⟨results, fields, ← contentHash rt (.obj fields)⟩

end SiraApi
