-- SUMMARY: One evaluation of the Decision Graph: its stages, the hashes of its frozen inputs and its canonical payload.
import SiraSeil.DecisionEngine.Plans

/-!
# One evaluation

`evaluate_decision_graph_once` runs recall, evidence assessment, plan building
and ranking, and hashes a canonical payload from which generated metadata is
left out.
-/

namespace DecisionEngine

open Domain Sorting Raising

variable (rt : Runtime)

/-! ## The evaluation record -/

structure EvaluationCoverage where
  rawRecordCount : Nat
  packCandidateCount : Nat
  canonicalProductCount : Nat
  duplicateCount : Nat
  generatedSolutionPlanCount : Nat
  evaluatedSolutionPlanCount : Nat
  excludedCount : Nat
  statement : String

def EvaluationCoverage.toValue (c : EvaluationCoverage) : Value :=
  .obj [("raw_record_count", .nat c.rawRecordCount),
    ("pack_candidate_count", .nat c.packCandidateCount),
    ("canonical_product_count", .nat c.canonicalProductCount),
    ("duplicate_count", .nat c.duplicateCount),
    ("generated_solution_plan_count", .nat c.generatedSolutionPlanCount),
    ("evaluated_solution_plan_count", .nat c.evaluatedSolutionPlanCount),
    ("excluded_count", .nat c.excludedCount), ("statement", .str c.statement)]

structure DecisionGraphEvaluation where
  evaluationId : String
  generatedAt : Datetime
  versions : FrozenVersions
  evaluatedAt : Datetime
  frozenInputHashes : List (String × String)
  removedPrivateFactIds : Ids
  identityRecords : List IdentityRecord
  identityMerges : List IdentityMerge
  recallExclusions : List RecallExclusion
  evidenceAssessments : List EvidenceAssessment
  plans : List EvaluatedPlan
  rankedPlanIds : List String
  selectedPlanId : Option String
  rankStability : RankStability
  orderingFrontierPlanIds : List String
  boundUnavailablePlanIds : List String
  coverage : EvaluationCoverage
  evaluationPayloadHash : String

/-! ## The canonical payload -/

def GateReason.toValue (r : GateReason) : Value :=
  .obj [("code", .str r.reasonCode), ("status", .str r.status.value), ("detail", .str r.detail)]

def GateResult.toValue (g : GateResult) : Value :=
  .obj [("gate_id", .str g.gateId), ("truth", .str g.truth.value),
    ("reasons", .seq (g.reasons.map GateReason.toValue)),
    ("predicates", .strs g.evaluatedPredicates),
    ("permitted_resolution", .opt .str g.permittedResolution)]

def ScoreComponent.toValue (s : ScoreComponent) : Value :=
  .obj [("criterion_id", .str s.criterionId), ("weight", .nat s.weight),
    ("conservative", .ratio s.conservativeSatisfaction),
    ("optimistic", .ratio s.optimisticSatisfaction), ("evidence_ids", .strs s.evidenceIds),
    ("evidence_state", .str s.evidenceState.value), ("prior_label", .opt .str s.priorLabel)]

/-- A cost line as `_canonical_plan` writes it. -/
def lineItemValue (i : CostLineItem) : Value :=
  .obj [("type", .str i.lineItemType.value), ("low", i.low.toValue), ("base", i.base.toValue),
    ("high", i.high.toValue), ("schedule_version", .opt .str i.scheduleVersion)]

/-- The bounds of a plan as `_canonical_plan` writes them. Universe coverage and the
    counts of unresolved and conflicting gates are not part of it. -/
def PlanDimensions.toValue (d : PlanDimensions) : Value :=
  let risk (f : RiskBounds → StackRisk) : Value := .opt (fun r => .str (f r).value) d.stackRisk
  .obj [
    ("preference", .opt (fun (p : PreferenceScoreBounds) =>
      .obj [("conservative", .ratio p.conservative), ("optimistic", .ratio p.optimistic)])
      d.preference),
    ("risk", .obj [("lower", risk (·.lower)), ("base", risk (·.base)), ("upper", risk (·.upper)),
      ("triggered_rule_ids", .strs d.triggeredRiskRuleIds), ("input_hash", .str d.riskInputHash)]),
    ("tco", .obj [("low", .opt Money.toValue d.totalCost.low),
      ("base", .opt Money.toValue d.totalCost.base),
      ("high", .opt Money.toValue d.totalCost.high), ("horizon_days", .nat d.totalCost.horizonDays),
      ("payment_required", .bool d.totalCost.paymentRequired),
      ("line_items", .seq (d.totalCost.lineItems.map lineItemValue))]),
    ("coverage", .obj [("conservative", .ratio d.decisionMaterialCoverage.conservative),
      ("optimistic", .ratio d.decisionMaterialCoverage.optimistic)]),
    ("age", .obj [("lower", .ratio d.maximumEvidenceAgeRatio.lower),
      ("upper", .ratio d.maximumEvidenceAgeRatio.upper)]),
    ("hard_coverage", .obj [("numerator", .nat d.hardCoverage.numerator),
      ("denominator", .nat d.hardCoverage.denominator)]),
    ("bound_unavailable_reasons", .strs d.boundUnavailableReasons)]

/-- `_canonical_plan` -/
def canonicalPlan (plan : EvaluatedPlan) : Value :=
  .obj [("action", .str plan.action.value), ("stable_action_ids", .strs plan.stableActionIds),
    ("component_hash", .str plan.componentHash), ("lifecycle", .str plan.lifecycle.value),
    ("status", .str plan.status.value),
    ("primary_reason", .opt GateReason.toValue plan.primaryReason),
    ("gates", .seq (plan.gateResults.map GateResult.toValue)),
    ("scores", .seq (plan.scoreComponents.map ScoreComponent.toValue)),
    ("bounds", plan.dimensions.toValue),
    ("ordering_frontier_member", .bool plan.orderingFrontierMember),
    ("resolution_frontier_member", .bool plan.resolutionFrontierMember),
    ("quote_required", .bool plan.quoteRequired),
    ("quote_policy_reason", .str plan.quotePolicyReason.value),
    ("permitted_resolution", .opt .str plan.permittedResolution),
    ("autonomous_execution_allowed", .bool plan.autonomousExecutionAllowed)]

def canonicalIdentity (i : IdentityRecord) : Value :=
  .obj [("seller_id", .str i.sellerId), ("product_id", .str i.productId),
    ("edition", .str i.edition), ("region", .str i.region), ("record_ids", .strs i.recordIds),
    ("pack_ids", .strs i.packIds), ("offer_ids", .strs i.offerIds)]

/-- The first plan with an id. -/
def findPlan (plans : List EvaluatedPlan) (planId : String) : Option EvaluatedPlan :=
  plans.find? (fun plan => plan.planId = planId)

/-- `next(plan.stable_action_ids for plan in plans if plan.plan_id == plan_id)` -/
def actionIdsOf (plans : List EvaluatedPlan) (planId : String) : Py Value :=
  match findPlan plans planId with
  | some plan => .ok (.strs plan.stableActionIds)
  | none => .error .stopIteration

/-- The stable action ids of the selected plan, if there is one. -/
def selectedActionIds (evaluation : DecisionGraphEvaluation) : Option (List String) :=
  (evaluation.selectedPlanId.bind (findPlan evaluation.plans)).map (·.stableActionIds)

/-- `evaluation_canonical_payload` -/
def evaluationCanonicalPayload (evaluation : DecisionGraphEvaluation) : Py Value := do
  let ranked ← evaluation.rankedPlanIds.mapM (actionIdsOf evaluation.plans)
  let frontier ← evaluation.orderingFrontierPlanIds.mapM (actionIdsOf evaluation.plans)
  let unavailable ← evaluation.boundUnavailablePlanIds.mapM (actionIdsOf evaluation.plans)
  return .obj [("versions", evaluation.versions.toValue),
    ("evaluated_at", .datetime evaluation.evaluatedAt),
    ("frozen_input_hashes", .seq (evaluation.frozenInputHashes.map (fun p => .strs [p.1, p.2]))),
    ("removed_private_fact_ids", .strs evaluation.removedPrivateFactIds.items),
    ("identities", .seq (evaluation.identityRecords.map canonicalIdentity)),
    ("identity_merges", .seq (evaluation.identityMerges.map IdentityMerge.toValue)),
    ("recall_exclusions", .seq (evaluation.recallExclusions.map RecallExclusion.toValue)),
    ("evidence_assessments",
      .seq (evaluation.evidenceAssessments.map EvidenceAssessment.toValue)),
    ("plans", .seq (evaluation.plans.map canonicalPlan)),
    ("ranked_stable_action_ids", .seq ranked),
    ("selected_stable_action_ids", .opt .strs (selectedActionIds evaluation)),
    ("rank_stability", .str evaluation.rankStability.value),
    ("ordering_frontier_stable_action_ids", .seq frontier),
    ("bound_unavailable_stable_action_ids", .seq unavailable),
    ("coverage", evaluation.coverage.toValue)]

/-! ## Frozen input hashes -/

/-- The artifacts of `_frozen_input_hashes`, in the order of their names. -/
def frozenArtifacts (input : DecisionGraphInput) : List (String × Value) :=
  (if input.actorConflictResolutions.isEmpty then []
    else [("actor_conflict_resolutions",
      .seq ((sortedBy (·.field) input.actorConflictResolutions).map
        ActorConflictResolution.toValue))]) ++
  [("buyer_facts", .seq ((sortedBy (·.factId) (activeBuyerFacts input)).map FrozenFact.toValue)),
    ("candidate_records",
      .seq ((sortedBy (·.recordId) input.candidates).map RawCandidateRecord.toValue)),
    ("current_actions",
      .seq ((sortedBy (·.actionId) input.currentActions).map CurrentActionRecord.toValue)),
    ("evidence", .seq ((sortedBy (·.evidenceId) input.evidence).map EvidenceRecord.toValue)),
    ("evidence_policies",
      .seq ((sortedBy (·.field) input.evidencePolicies).map EvidencePolicy.toValue)),
    ("gates", .seq ((sortedBy (·.gateId) input.gates).map GateRule.toValue)),
    ("identity_normalization", input.identityNormalization.toValue),
    ("offers", .seq ((sortedBy (·.offerId) input.offers).map OfferCost.toValue)),
    ("outcome_observations",
      .seq ((sortedBy (fun o => toLex (o.subjectId, o.criterionId)) input.outcomeValues).map
        OutcomeObservation.toValue)),
    ("preferences",
      .seq ((sortedBy (·.criterionId) input.preferences).map PreferenceCriterion.toValue))] ++
  (match input.recallPolicy with
    | none => []
    | some policy => [("recall_policy", policy.toValue)]) ++
  [("risk_rules", .obj [("complete_input_coverage", .bool input.riskRuleSetComplete),
    ("rules", .seq ((sortedBy (·.ruleId) input.riskRules).map RiskRule.toValue))])]

/-- `_frozen_input_hashes` -/
def frozenInputHashes (input : DecisionGraphInput) : Py (List (String × String)) :=
  (frozenArtifacts input).mapM (fun p => do return (p.1, ← contentHash rt p.2))

/-! ## The evaluation -/

/-- The coverage statement of `evaluate_decision_graph_once`. -/
def coverageStatement (recallResult : RecallResult) (currentActionCount : Nat) : String :=
  "Best supported action among " ++ toString recallResult.identities.length ++
    " canonical products and " ++ toString currentActionCount ++
    " current-stack/contract actions" ++
    (if recallResult.exclusions.isEmpty then ""
      else "; " ++ toString recallResult.exclusions.length ++
        " catalog records excluded by frozen recall policy")

def evaluationCoverage (input : DecisionGraphInput) (recallResult : RecallResult)
    (planCount : Nat) :
    EvaluationCoverage where
  rawRecordCount := recallResult.rawRecordCount
  packCandidateCount := input.candidates.length
  canonicalProductCount := recallResult.identities.length
  duplicateCount := recallResult.merges.length
  generatedSolutionPlanCount := planCount
  evaluatedSolutionPlanCount := planCount
  excludedCount := recallResult.exclusions.length
  statement := coverageStatement recallResult input.currentActions.length

/-- What the four stages of an evaluation produce. -/
structure Pipeline where
  recallResult : RecallResult
  assessments : List EvidenceAssessment
  plans : List EvaluatedPlan
  ranking : Ranking

/-- Recall, evidence assessment, plan building and ranking. -/
def runPipeline (input : DecisionGraphInput) : Py Pipeline := do
  let recallResult ← recallAndDeduplicate rt input
  let assessments ← assessEvidence rt input recallResult
  let built ← buildSolutionPlans rt input recallResult assessments
  let (plans, ranking) ← rankAndFrontiers built
  return ⟨recallResult, assessments, plans, ranking⟩

/-- The evaluation before its payload is hashed. -/
def provisionalEvaluation (input : DecisionGraphInput) (pipeline : Pipeline)
    (inputHashes : List (String × String)) (evaluationId : String) (generatedAt : Datetime) :
    DecisionGraphEvaluation where
  evaluationId := evaluationId
  generatedAt := generatedAt
  versions := input.versions
  evaluatedAt := input.evaluatedAt
  frozenInputHashes := inputHashes
  removedPrivateFactIds := input.removedPrivateFactIds
  identityRecords := pipeline.recallResult.identities
  identityMerges := pipeline.recallResult.merges
  recallExclusions := pipeline.recallResult.exclusions
  evidenceAssessments := pipeline.assessments
  plans := pipeline.plans
  rankedPlanIds := pipeline.ranking.rankedIds
  selectedPlanId := pipeline.ranking.rankedIds.head?
  rankStability := pipeline.ranking.stability
  orderingFrontierPlanIds := pipeline.ranking.orderingFrontier
  boundUnavailablePlanIds := pipeline.ranking.unavailable
  coverage := evaluationCoverage input pipeline.recallResult pipeline.plans.length
  evaluationPayloadHash := ""

/-- `evaluate_decision_graph_once` -/
def evaluateDecisionGraphOnce (input : DecisionGraphInput) (evaluationId : String)
    (generatedAt : Datetime) : Py DecisionGraphEvaluation := do
  let pipeline ← runPipeline rt input
  let inputHashes ← frozenInputHashes rt input
  let provisional := provisionalEvaluation input pipeline inputHashes evaluationId generatedAt
  let hash ← contentHash rt (← evaluationCanonicalPayload provisional)
  return { provisional with evaluationPayloadHash := hash }

variable {rt}

theorem runPipeline_eq_ok {input : DecisionGraphInput} {pipeline : Pipeline}
    (h : runPipeline rt input = .ok pipeline) :
    recallAndDeduplicate rt input = .ok pipeline.recallResult ∧
      assessEvidence rt input pipeline.recallResult = .ok pipeline.assessments ∧
      ∃ built, buildSolutionPlans rt input pipeline.recallResult pipeline.assessments = .ok built ∧
        rankEligible built = .ok pipeline.ranking ∧
        pipeline.plans = built.map (·.placed pipeline.ranking) := by
  unfold runPipeline at h
  obtain ⟨recallResult, hrecall, h⟩ := bind_eq_ok.mp h
  obtain ⟨assessments, hassessments, h⟩ := bind_eq_ok.mp h
  obtain ⟨built, hbuilt, h⟩ := bind_eq_ok.mp h
  obtain ⟨⟨plans, ranking⟩, hranked, h⟩ := bind_eq_ok.mp h
  obtain rfl := pure_eq_ok.mp h
  unfold rankAndFrontiers at hranked
  obtain ⟨ranking', hranking, hplans⟩ := bind_eq_ok.mp hranked
  obtain ⟨rfl, rfl⟩ := Prod.mk.inj (pure_eq_ok.mp hplans)
  exact ⟨hrecall, hassessments, built, hbuilt, hranking, rfl⟩

theorem evaluateDecisionGraphOnce_eq_ok {input : DecisionGraphInput} {evaluationId : String}
    {generatedAt : Datetime} {evaluation : DecisionGraphEvaluation} :
    evaluateDecisionGraphOnce rt input evaluationId generatedAt = .ok evaluation ↔
      ∃ pipeline, runPipeline rt input = .ok pipeline ∧
      ∃ inputHashes, frozenInputHashes rt input = .ok inputHashes ∧
      ∃ payload, evaluationCanonicalPayload
        (provisionalEvaluation input pipeline inputHashes evaluationId generatedAt) = .ok payload ∧
      ∃ hash, contentHash rt payload = .ok hash ∧
        { provisionalEvaluation input pipeline inputHashes evaluationId generatedAt with
          evaluationPayloadHash := hash } = evaluation := by
  simp only [evaluateDecisionGraphOnce, bind_eq_ok, pure_eq_ok]

theorem evaluateDecisionGraphOnce_relabel {input : DecisionGraphInput} {id id' : String}
    {at_ at' : Datetime} {evaluation : DecisionGraphEvaluation}
    (h : evaluateDecisionGraphOnce rt input id at_ = .ok evaluation) :
    evaluateDecisionGraphOnce rt input id' at' =
      .ok { evaluation with evaluationId := id', generatedAt := at' } := by
  obtain ⟨pipeline, hpipeline, inputHashes, hhashes, payload, hpayload, hash, hhash, rfl⟩ :=
    evaluateDecisionGraphOnce_eq_ok.mp h
  exact evaluateDecisionGraphOnce_eq_ok.mpr
    ⟨pipeline, hpipeline, inputHashes, hhashes, payload, hpayload, hash, hhash, rfl⟩

end DecisionEngine
