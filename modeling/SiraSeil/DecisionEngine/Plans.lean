-- SUMMARY: Evaluated plans built from their materials, their authoritative ranking, and the ordering and resolution frontiers.
import SiraSeil.DecisionEngine.Materials

/-!
# Plans

Every material becomes one evaluated plan, whatever its action. The eligible
plans with complete bounds are ranked; the first of them is selected, its
stability is assessed against all other eligible plans, and the frontiers decide
which plans need a quote.
-/

namespace DecisionEngine

open Domain Sorting Raising

variable (rt : Runtime)

/-! ## Evaluated plans -/

inductive PlanSource
  | pack | currentInstance
  deriving DecidableEq

structure PlanComponent where
  componentId : String
  sourceType : PlanSource
  action : SolutionAction

inductive QuoteReason
  | selectedPlan | orderingFrontier | resolutionFrontier | preliminaryTopThree | none
  deriving DecidableEq

def QuoteReason.value : QuoteReason → String
  | selectedPlan => "SELECTED_PLAN"
  | orderingFrontier => "ORDERING_FRONTIER"
  | resolutionFrontier => "RESOLUTION_FRONTIER"
  | preliminaryTopThree => "PRELIMINARY_TOP_THREE"
  | none => "NONE"

structure EvaluatedPlan where
  planId : String
  action : SolutionAction
  components : List PlanComponent
  componentHash : String
  constructionLifecycle : PlanLifecycle
  lifecycle : PlanLifecycle
  status : CandidateStatus
  primaryReason : Option GateReason
  gateResults : List GateResult
  scoreComponents : List ScoreComponent
  dimensions : PlanDimensions
  stableActionIds : List String
  orderingFrontierMember : Bool := false
  resolutionFrontierMember : Bool := false
  quoteRequired : Bool := false
  quotePolicyReason : QuoteReason := .none
  permittedResolution : Option String := none
  autonomousExecutionAllowed : Bool := false

/-- The resolutions the blocking gates permit, or else the one of the material. -/
def planResolution (material : PlanMaterial) (gates : List GateResult) : Option String :=
  let resolutions := sortedSet
    ((gates.filter (fun gate => !gate.reasons.isEmpty)).filterMap (·.permittedResolution))
  match resolutions with
  | [] => material.permittedResolution
  | _ => some (String.intercalate "+" resolutions)

/-- A status that evidence or a decision could still lift. -/
def resolvable : CandidateStatus → Bool
  | .conditional | .staleEvidence | .insufficientEvidence | .advisoryOnly => true
  | _ => false

/-- The lifecycle of a plan from its status, bounds and permitted resolution. -/
def planLifecycle (status : CandidateStatus) (bounds : Option OrderingBounds)
    (resolution : Option String) : PlanLifecycle :=
  if status.rankable then
    if bounds.isSome then .executable else .blocked
  else if resolvable status && resolution.any (· != "") then .resolutionPending
  else .blocked

/-- One round of the loop of `build_solution_plans`. -/
def buildPlan (input : DecisionGraphInput) (assessments : List EvidenceAssessment)
    (evaluatedCount discoveredCount : Nat) (material : PlanMaterial) : Py EvaluatedPlan := do
  let gates ← evaluateGates rt input material assessments
  let (status, primaryReason) := primaryStatus gates
  let (scores, dimensions, _) ←
    materialDimensions rt input material gates assessments evaluatedCount discoveredCount
  let componentHash ← contentHash rt (.obj [("action", .str material.action.value),
    ("ordered_component_ids", .strs material.componentIds)])
  let resolution := planResolution material gates
  let bounds ← dimensions.orderingBounds
  let id ← planId rt material.action material.componentIds
  return {
    planId := id
    action := material.action
    components := material.componentIds.map (fun componentId =>
      ⟨componentId, if material.authority.isSome then .pack else .currentInstance, material.action⟩)
    componentHash := componentHash
    constructionLifecycle := .candidate
    lifecycle := planLifecycle status bounds resolution
    status := status
    primaryReason := primaryReason
    gateResults := gates
    scoreComponents := scores
    dimensions := dimensions
    stableActionIds := material.action.lower :: material.componentIds
    permittedResolution := resolution }

/-- What a plan keeps of the material it was built from. -/
structure BuiltFrom (rt : Runtime) (input : DecisionGraphInput)
    (assessments : List EvidenceAssessment) (material : PlanMaterial) (plan : EvaluatedPlan) :
    Prop where
  gates : evaluateGates rt input material assessments = .ok plan.gateResults
  status : plan.status = (primaryStatus plan.gateResults).1
  id : planId rt material.action material.componentIds = .ok plan.planId
  action : plan.action = material.action
  components : plan.components = material.componentIds.map (fun componentId =>
    ⟨componentId, if material.authority.isSome then .pack else .currentInstance, material.action⟩)
  actionIds : plan.stableActionIds = material.action.lower :: material.componentIds
  cost : plan.dimensions.totalCost = material.cost

theorem builtFrom_of_buildPlan {rt : Runtime} {input : DecisionGraphInput}
    {assessments : List EvidenceAssessment} {evaluated discovered : Nat} {material : PlanMaterial}
    {plan : EvaluatedPlan}
    (h : buildPlan rt input assessments evaluated discovered material = .ok plan) :
    BuiltFrom rt input assessments material plan := by
  unfold buildPlan at h
  obtain ⟨gates, hgates, h⟩ := bind_eq_ok.mp h
  obtain ⟨⟨scores, dimensions, riskIds⟩, hdimensions, h⟩ := bind_eq_ok.mp h
  obtain ⟨componentHash, -, h⟩ := bind_eq_ok.mp h
  obtain ⟨bounds, -, h⟩ := bind_eq_ok.mp h
  obtain ⟨id, hid, h⟩ := bind_eq_ok.mp h
  obtain rfl := pure_eq_ok.mp h
  refine ⟨hgates, rfl, hid, rfl, rfl, rfl, ?_⟩
  unfold materialDimensions at hdimensions
  simp only [bind_eq_ok, pure_eq_ok, Prod.mk.injEq] at hdimensions
  obtain ⟨_, -, _, -, _, -, _, -, _, -, _, -, -, rfl, -⟩ := hdimensions
  rfl

/-- The order in which materials become plans. -/
def PlanMaterial.key (m : PlanMaterial) : String ×ₗ String ×ₗ String :=
  toLex (m.action.value, toLex (m.componentId, m.sourceId))

/-- `build_solution_plans` -/
def buildSolutionPlans (input : DecisionGraphInput) (recallResult : RecallResult)
    (assessments : List EvidenceAssessment) : Py (List EvaluatedPlan) := do
  let materials ← planMaterials rt input recallResult
  (sortedBy PlanMaterial.key materials).mapM
    (buildPlan rt input assessments materials.length
      (materials.length + recallResult.exclusions.length))

/-! ## Ranking -/

/-- `_bounded_plan` -/
def boundedPlan (plan : EvaluatedPlan) (resolved : Bool) : Py BoundedPlan := do
  let bounds ← plan.dimensions.orderingBounds
  BoundedPlan.new plan.planId (if resolved then .eligible else plan.status) plan.stableActionIds
    bounds plan.dimensions.boundUnavailableReasons

theorem boundedPlan_eq_ok {plan : EvaluatedPlan} {bounded : BoundedPlan}
    (h : boundedPlan plan false = .ok bounded) :
    bounded.planId = plan.planId ∧ plan.dimensions.orderingBounds = .ok bounded.bounds := by
  unfold boundedPlan at h
  obtain ⟨bounds, hbounds, h⟩ := bind_eq_ok.mp h
  obtain ⟨hid, -, -, hsame, -⟩ := BoundedPlan.new_eq_ok h
  exact ⟨hid, hsame ▸ hbounds⟩

/-- A plan that can be ranked, with its bounds. -/
abbrev RankablePlan : Type := BoundedPlan × OrderingBounds

def rankablePlan? (plan : BoundedPlan) : Option RankablePlan :=
  plan.bounds.map (fun bounds => (plan, bounds))

/-- The currency and comparison horizon of every rankable plan. -/
def costSignatures (horizonByPlan : Dict String Nat) (rankable : List RankablePlan) :
    Py (List (String × Nat)) :=
  rankable.mapM (fun p => do
    return (p.2.totalCost.base.currency, ← getItem horizonByPlan p.1.planId p.1.planId))

/-- `sorted(rankable, key=authoritative_ordering_key)` -/
def rankPlans (rankable : List RankablePlan) : List RankablePlan :=
  sortedBy (fun p => authoritativeOrderingKey p.1 p.2) rankable

/-- The plans a selection is compared with. -/
def competitorsOf (bounded : List BoundedPlan) (selected : BoundedPlan) : List BoundedPlan :=
  bounded.filter (fun plan => plan.planId ≠ selected.planId)

/-- What the ranking says about all plans. -/
structure Ranking where
  rankedIds : List String
  selectedId : Option String
  stability : RankStability
  orderingFrontier : List String
  unavailable : List String
  resolutionFrontier : List String

/-- A pending plan that would lead the selection at its best, once resolved. -/
def resolutionCandidate (selectedWorst : OrderingKey) (plan : EvaluatedPlan) : Py Bool := do
  if plan.lifecycle = .resolutionPending ∧ plan.permittedResolution.isSome then
    match ← plan.dimensions.orderingBounds with
    | none => return false
    | some bounds =>
      let hypothetical ← boundedPlan plan true
      return decide (optimisticEnvelopeKey hypothetical bounds < selectedWorst)
  else return false

/-- The ranking, stability and frontiers that `_rank_and_frontiers` derives. -/
def rankEligible (plans : List EvaluatedPlan) : Py Ranking := do
  let eligible := plans.filter (·.status.rankable)
  let bounded ← eligible.mapM (boundedPlan · false)
  let rankable := bounded.filterMap rankablePlan?
  let horizonByPlan :=
    Dict.ofList (eligible.map (fun plan => (plan.planId, plan.dimensions.totalCost.horizonDays)))
  let signatures ← costSignatures horizonByPlan rankable
  if 1 < signatures.dedup.length then
    throw (.domainValidation "authoritative ranking requires one currency and comparison horizon")
  let ranked := rankPlans rankable
  let rankedIds := ranked.map (·.1.planId)
  match ranked with
  | [] =>
    return { rankedIds := rankedIds, selectedId := none, stability := .undetermined
             orderingFrontier := [], resolutionFrontier := []
             unavailable := sortedBy id
               ((bounded.filter (fun plan => plan.bounds.isNone)).map (·.planId)) }
  | (selected, bounds) :: _ =>
    let result ← assessRankStability selected (competitorsOf bounded selected)
    let selectedWorst := conservativeEnvelopeKey selected bounds
    let resolution ← plans.filterM (resolutionCandidate selectedWorst)
    return { rankedIds := rankedIds, selectedId := some selected.planId
             stability := result.status
             orderingFrontier := sortedSet (selected.planId :: result.orderingFrontierPlanIds)
             resolutionFrontier := resolution.map (·.planId)
             unavailable := result.boundUnavailablePlanIds }

/-- The ranked ids are those of the bounded eligible plans, in the order of their keys. -/
theorem rankEligible_eq_ok {plans : List EvaluatedPlan} {ranking : Ranking}
    (h : rankEligible plans = .ok ranking) :
    ∃ bounded, (plans.filter (·.status.rankable)).mapM (boundedPlan · false) = .ok bounded ∧
      ranking.rankedIds = (rankPlans (bounded.filterMap rankablePlan?)).map (·.1.planId) := by
  unfold rankEligible at h
  obtain ⟨bounded, hbounded, h⟩ := bind_eq_ok.mp h
  refine ⟨bounded, hbounded, ?_⟩
  dsimp only at h
  obtain ⟨signatures, -, h⟩ := bind_eq_ok.mp h
  split at h
  · simp [bind_eq_ok] at h
  · split at h
    · rename_i hranked
      simp only [pure, Except.pure, Except.ok.injEq] at h
      rw [← h]
    · rename_i hranked
      simp only [pure, Except.pure] at h
      obtain ⟨result, -, h⟩ := bind_eq_ok.mp h
      obtain ⟨resolution, -, h⟩ := bind_eq_ok.mp h
      simp only [Except.ok.injEq] at h
      rw [← h]

/-- `_QUOTE_ACTIONS` -/
def quoteAction : SolutionAction → Bool
  | .buy | .renew | .resize | .replace | .consolidate => true
  | _ => false

/-- `_AUTONOMOUS_ACTIONS` -/
def autonomousAction : SolutionAction → Bool
  | .reuseExisting | .noAction => true
  | _ => false

/-- Why a plan needs a quote. -/
def quoteReason (ranking : Ranking) (planId : String) : QuoteReason :=
  if ranking.selectedId = some planId then .selectedPlan
  else if planId ∈ ranking.orderingFrontier then .orderingFrontier
  else if planId ∈ ranking.resolutionFrontier then .resolutionFrontier
  else if planId ∈ ranking.rankedIds.take 3 then .preliminaryTopThree
  else .none

/-- A plan with what the ranking says about it. -/
def EvaluatedPlan.placed (plan : EvaluatedPlan) (ranking : Ranking) : EvaluatedPlan :=
  let reason := quoteReason ranking plan.planId
  { plan with
    orderingFrontierMember := decide (plan.planId ∈ ranking.orderingFrontier)
    resolutionFrontierMember := decide (plan.planId ∈ ranking.resolutionFrontier)
    quoteRequired := decide (reason ≠ .none) && quoteAction plan.action
    quotePolicyReason := reason
    autonomousExecutionAllowed := decide (plan.lifecycle = .executable) &&
      decide (ranking.stability = .stable) && !plan.dimensions.totalCost.paymentRequired &&
      autonomousAction plan.action }

/-- `_rank_and_frontiers` -/
def rankAndFrontiers (plans : List EvaluatedPlan) : Py (List EvaluatedPlan × Ranking) := do
  let ranking ← rankEligible plans
  return (plans.map (·.placed ranking), ranking)

end DecisionEngine
