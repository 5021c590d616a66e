-- SUMMARY: Preference scores, risk, coverage, evidence age and cost of a plan, collected into its dimensions.
import SiraSeil.DecisionEngine.Gates

/-!
# Plan dimensions

The middle of `decision_engine/graph_v1.py`: what a plan scores on each active
preference, which risk rules it triggers, how much of it is covered by evidence,
how old that evidence is, and whether its cost adds up. A dimension that cannot
be bounded leaves a `BOUND_UNAVAILABLE` reason.
-/

namespace DecisionEngine

open Domain Sorting

variable (rt : Runtime)

/-! ## Preference scores -/

structure ScoreComponent where
  criterionId : String
  weight : Nat
  conservativeSatisfaction : ℚ
  optimisticSatisfaction : ℚ
  contributionConservative : ℚ
  contributionOptimistic : ℚ
  evidenceIds : List String
  evidenceState : EvidenceState
  priorLabel : Option String

/-- The satisfaction of the first point whose maximum a number does not exceed. -/
def piecewise (points : List (Int × ℚ)) (numeric : ℚ) : ℚ :=
  match points.find? (fun p => decide (numeric ≤ p.1)) with
  | some p => p.2
  | none => 0

/-- `_normalization_value` -/
def normalizationValue (criterion : PreferenceCriterion) (value : FactValue) : Py ℚ :=
  match criterion.normalization with
  | .booleanEquals => .ok (if strictEqual value criterion.expected then 1 else 0)
  | .setContainsAll =>
    match value, criterion.expected with
    | .tuple actual, .tuple expected => .ok (if expected.all (fun x => x ∈ actual) then 1 else 0)
    | _, _ => .ok 0
  | .lowerIsBetter =>
    match numeric? rt value with
    | none => .ok 0
    | some numeric => do return piecewise criterion.lowerIsBetterPoints (← numeric)
  | .outcomeRate =>
    .error (.value "OUTCOME_RATE is resolved from frozen outcome observations")

/-- The observations whose sources are all active. -/
def activeOutcomes (input : DecisionGraphInput) : List OutcomeObservation :=
  input.outcomeValues.filter (fun o => sourcesActive o.sourceFactIds (activeSourceIds input))

/-- `_outcome_value` -/
def outcomeValue (input : DecisionGraphInput) (subjectId criterionId : String) :
    Option OutcomeObservation :=
  (Dict.ofList ((activeOutcomes input).map (fun o => ((o.subjectId, o.criterionId), o)))).get?
    (subjectId, criterionId)

/-- The satisfaction interval of a criterion and the evidence behind it. -/
structure Satisfaction where
  conservative : ℚ
  optimistic : ℚ
  evidenceIds : List String
  evidenceState : EvidenceState
  priorLabel : Option String := none
  boundReasons : List String := []

/-- Without acceptable evidence only the declared upper bound is known. -/
def unknownSatisfaction (criterion : PreferenceCriterion) (evidenceIds : List String)
    (state : EvidenceState) : Satisfaction :=
  match criterion.unknownUpper with
  | none =>
    { conservative := 0, optimistic := 0, evidenceIds := evidenceIds, evidenceState := state
      boundReasons := ["BOUND_UNAVAILABLE:" ++ criterion.criterionId ++ ":UNKNOWN_BOUND"] }
  | some upper =>
    { conservative := 0, optimistic := upper, evidenceIds := evidenceIds, evidenceState := state }

/-- An outcome criterion without an observation falls back on its neutral prior. -/
def priorSatisfaction (criterion : PreferenceCriterion) (evidenceIds : List String) :
    Satisfaction :=
  match criterion.neutralPrior with
  | none =>
    { conservative := 0, optimistic := 0, evidenceIds := evidenceIds, evidenceState := .unknown
      boundReasons := ["BOUND_UNAVAILABLE:" ++ criterion.criterionId ++ ":NEUTRAL_PRIOR"] }
  | some prior =>
    { conservative := prior, optimistic := prior, evidenceIds := evidenceIds
      evidenceState := .unknown, priorLabel := some "category prior—not observed outcome" }

/-- An observed outcome counts when its own evidence is acceptable. -/
def observedSatisfaction (criterion : PreferenceCriterion) (observed : OutcomeObservation)
    (index : AssessmentIndex) : Satisfaction :=
  let ids := observed.evidenceIds.items
  let assessments := assessmentsFor index ids criterion.field
  let state := combinedState (assessments.map (·.state)) false
  let satisfaction : Satisfaction :=
    if state = .acceptable then
      { conservative := observed.value, optimistic := observed.value, evidenceIds := ids
        evidenceState := state }
    else unknownSatisfaction criterion ids state
  { satisfaction with
    boundReasons := satisfaction.boundReasons ++ boundReasonsOf assessments }

/-- The satisfaction of a criterion by the values of its field. -/
def factSatisfaction (criterion : PreferenceCriterion) (state : FieldState) : Py Satisfaction := do
  if state.state = .acceptable then
    match ← state.values.mapM (normalizationValue rt criterion) with
    | [] => return unknownSatisfaction criterion state.evidenceIds state.state
    | v :: vs =>
      return { conservative := vs.foldl min v, optimistic := vs.foldl max v,
               evidenceIds := state.evidenceIds, evidenceState := state.state }
  else return unknownSatisfaction criterion state.evidenceIds state.state

/-- The preferences that apply to an action and whose sources are active, by id. -/
def applicableCriteria (input : DecisionGraphInput) (action : SolutionAction) :
    List PreferenceCriterion :=
  (sortedBy (·.criterionId) input.preferences).filter (fun c =>
    actionApplies c.appliesToActions action && sourcesActive c.sourceFactIds (activeSourceIds input))

/-- One round of the loop of `_score_components`. -/
def scoreCriterion (input : DecisionGraphInput) (material : PlanMaterial) (index : AssessmentIndex)
    (criterion : PreferenceCriterion) : Py (ScoreComponent × List String) := do
  let state ← fieldState rt material.facts criterion.field index
  let satisfaction : Satisfaction ←
    if criterion.normalization = .outcomeRate then
      match outcomeValue input material.outcomeSubjectId criterion.criterionId with
      | none => pure (priorSatisfaction criterion state.evidenceIds)
      | some observed => pure (observedSatisfaction criterion observed index)
    else factSatisfaction rt criterion state
  return (
    { criterionId := criterion.criterionId
      weight := criterion.weight
      conservativeSatisfaction := satisfaction.conservative
      optimisticSatisfaction := satisfaction.optimistic
      contributionConservative := satisfaction.conservative * criterion.weight
      contributionOptimistic := satisfaction.optimistic * criterion.weight
      evidenceIds := satisfaction.evidenceIds
      evidenceState := satisfaction.evidenceState
      priorLabel := satisfaction.priorLabel },
    satisfaction.boundReasons ++ state.boundReasons)

/-- `_score_components` -/
def scoreComponents (input : DecisionGraphInput) (material : PlanMaterial)
    (assessments : List EvidenceAssessment) : Py (List ScoreComponent × List String) := do
  let scored ← (applicableCriteria input material.action).mapM
    (scoreCriterion rt input material (assessmentIndex assessments))
  return (scored.map Prod.fst, sortedSet (scored.flatMap Prod.snd))

/-! ## Risk -/

/-- What the rules of a plan append to `component_bounds`, `triggered_ids` and `reasons`. -/
structure RiskTrace where
  bounds : List RiskBounds := []
  triggered : List String := []
  reasons : List String := []

def RiskTrace.append (s t : RiskTrace) : RiskTrace :=
  ⟨s.bounds ++ t.bounds, s.triggered ++ t.triggered, s.reasons ++ t.reasons⟩

/-- A rule whose predicate has no acceptable value uses its declared missing bounds. -/
def missingRiskTrace (rule : RiskRule) (state : FieldState) : Py RiskTrace :=
  match rule.missingLower, rule.missingBase, rule.missingUpper with
  | some lower, some base, some upper => do
    let bounds ← RiskBounds.new lower base upper
    let suffix := if state.state = .unknown && state.values.isEmpty then "MISSING_INPUT"
      else state.state.value ++ "_EVIDENCE"
    return { bounds := [bounds], triggered := [rule.ruleId ++ ":" ++ suffix] }
  | _, _, _ => return { reasons := ["BOUND_UNAVAILABLE:RISK:" ++ rule.ruleId] }

def matchedRiskTrace (rule : RiskRule) : Py RiskTrace := do
  return { bounds := [← RiskBounds.new rule.lower rule.base rule.upper], triggered := [rule.ruleId] }

/-- One round of the loop of `_risk_bounds`. -/
def riskTrace (material : PlanMaterial) (index : AssessmentIndex) (rule : RiskRule) :
    Py RiskTrace :=
  match rule.predicate with
  | none => matchedRiskTrace rule
  | some predicate => do
    let state ← fieldState rt material.facts predicate.field index
    let values := if state.state = .acceptable then state.values else []
    if values.isEmpty then missingRiskTrace rule state
    else if ← values.allM (fun value => predicateMatches rt value predicate) then
      matchedRiskTrace rule
    else return {}

/-- `_risk_bounds` -/
def riskBounds (input : DecisionGraphInput) (material : PlanMaterial)
    (assessments : List EvidenceAssessment) :
    Py (Option RiskBounds × List String × List String) := do
  let rules := (sortedBy (·.ruleId) input.riskRules).filter
    (fun rule => rule.actions.contains material.action)
  let traces ← rules.mapM (riskTrace rt material (assessmentIndex assessments))
  let trace := traces.foldl RiskTrace.append {}
  if !trace.reasons.isEmpty then
    return (none, sortedBy id trace.reasons, sortedBy id trace.triggered)
  if trace.bounds.isEmpty then
    if !input.riskRuleSetComplete then
      return (none, ["BOUND_UNAVAILABLE:RISK_RULE_COVERAGE"], [])
    let low ← RiskBounds.new .low .low .low
    return (some (← aggregateRiskBounds [low]), [],
      sortedBy id (trace.triggered ++ ["COMPLETE_RULE_SET_DEFAULT_LOW"]))
  return (some (← aggregateRiskBounds trace.bounds), [], sortedBy id trace.triggered)

/-! ## Coverage and evidence age -/

structure HardCoverage where
  numerator : Nat
  denominator : Nat
  ordered : 1 ≤ denominator ∧ numerator ≤ denominator := by decide

def HardCoverage.new (numerator denominator : Nat) : Py HardCoverage :=
  if h : 1 ≤ denominator ∧ numerator ≤ denominator then .ok ⟨numerator, denominator, h⟩
  else .error (.domainValidation "hard coverage requires 0 <= numerator <= denominator")

/-- The coverage of one criterion by the evidence state of its score. -/
def coverageCriterion (scoreById : Dict String ScoreComponent) (criterion : PreferenceCriterion) :
    Py CoverageCriterion := do
  let score ← getItem scoreById criterion.criterionId criterion.criterionId
  let conservative := decide (score.evidenceState = .acceptable) && score.priorLabel.isNone
  let optimistic := conservative || (criterion.permittedEvidenceResolution.isSome &&
    decide (score.evidenceState = .unknown ∨ score.evidenceState = .stale))
  CoverageCriterion.new criterion.criterionId criterion.coverageWeight conservative optimistic

/-- The gates of buyer policy: neither built in nor conditions of a seller. -/
def activeHardGates (input : DecisionGraphInput) (gates : List GateResult) : List GateResult :=
  let sellerGateIds := (input.gates.filter GateRule.isSeller).map (·.gateId)
  gates.filter (fun gate => !startsWith gate.gateId "availability_" &&
    !startsWith gate.gateId "authority_" && !sellerGateIds.contains gate.gateId)

def hardCoverage (input : DecisionGraphInput) (gates : List GateResult) : Py HardCoverage :=
  let active := activeHardGates input gates
  if active.isEmpty then HardCoverage.new 1 1
  else HardCoverage.new (active.countP (fun gate => gate.truth = .true)) active.length

/-- The assessments of all evidence a plan or its scores mention. -/
def materialAssessments (material : PlanMaterial) (scores : List ScoreComponent)
    (assessments : List EvidenceAssessment) : List EvidenceAssessment :=
  assessments.filter (fun a =>
    decide (a.evidenceId ∈ material.facts.flatMap (·.evidenceIds.items)) ||
      decide (a.evidenceId ∈ scores.flatMap (·.evidenceIds)))

/-- `_coverage_and_age` -/
def coverageAndAge (input : DecisionGraphInput) (material : PlanMaterial)
    (gates : List GateResult) (scores : List ScoreComponent)
    (assessments : List EvidenceAssessment) :
    Py (CoverageBounds × EvidenceAgeBounds × HardCoverage × List String) := do
  let scoreById := Dict.ofList (scores.map (fun s => (s.criterionId, s)))
  let criteria ← (applicableCriteria input material.action).mapM (coverageCriterion scoreById)
  let hard ← hardCoverage input gates
  let relevant := materialAssessments material scores assessments
  let age ← aggregateEvidenceAgeBounds (relevant.filterMap (·.ageBounds))
  return (← aggregateCoverageBounds criteria, age, hard, sortedSet (boundReasonsOf relevant))

/-! ## Cost -/

/-- `_valid_cost` -/
def validCost (cost : OfferCost) (expectedPaymentComponents : Nat) : Py (Bool × List String) :=
  match cost.low, cost.base, cost.high with
  | some low, some base, some high => do
    discard (CostBounds.new low base high)
    let totals : List (String × Money × (CostLineItem → Money)) :=
      [("low", low, (·.low)), ("base", base, (·.base)), ("high", high, (·.high))]
    let mismatch := totals.find? (fun (_, total, part) =>
      decide ((cost.lineItems.map (fun i => (part i).cents)).sum ≠ total.cents))
    let fees := cost.lineItems.countP (fun i => i.lineItemType = .siraTransactionFee)
    match !cost.lineItems.isEmpty, mismatch with
    | true, some (field, _, _) =>
      return (false, ["BOUND_UNAVAILABLE:TCO_LINE_ITEMS:" ++ cost.offerId ++ ":" ++ field])
    | _, _ =>
      if cost.paymentRequired ∧ fees ≠ expectedPaymentComponents then
        return (false, ["BOUND_UNAVAILABLE:TRANSACTION_FEE:" ++ cost.offerId])
      else if ¬ cost.paymentRequired ∧ (fees ≠ 0 ∨ expectedPaymentComponents ≠ 0) then
        return (false, ["BOUND_UNAVAILABLE:UNEXPECTED_TRANSACTION_FEE:" ++ cost.offerId])
      else return (true, [])
  | _, _, _ => .ok (false, ["BOUND_UNAVAILABLE:TCO:" ++ cost.offerId])

/-! ## Dimensions -/

structure PlanDimensions where
  preference : Option PreferenceScoreBounds
  stackRisk : Option RiskBounds
  totalCost : OfferCost
  decisionMaterialCoverage : CoverageBounds
  maximumEvidenceAgeRatio : EvidenceAgeBounds
  hardCoverage : HardCoverage
  universeCoverage : ℚ
  unresolvedCount : Nat
  conflictingCount : Nat
  triggeredRiskRuleIds : List String
  riskInputHash : String
  boundUnavailableReasons : List String

/-- `PlanDimensions.ordering_bounds`: coverage and evidence age are always present. -/
def PlanDimensions.orderingBounds (d : PlanDimensions) : Py (Option OrderingBounds) :=
  match d.preference, d.stackRisk, d.totalCost.low, d.totalCost.base, d.totalCost.high,
    d.boundUnavailableReasons with
  | some preference, some risk, some low, some base, some high, [] => do
    return some ⟨preference, risk, ← CostBounds.new low base high, d.decisionMaterialCoverage,
      d.maximumEvidenceAgeRatio⟩
  | _, _, _, _, _, _ => .ok none

/-- The preference bounds of a plan with at least one score. -/
def preferenceBounds (scores : List ScoreComponent) : Py (Option PreferenceScoreBounds) := do
  if scores.isEmpty then return none
  let criteria ← scores.mapM (fun s => PreferenceCriterionBound.new s.criterionId s.weight
    s.conservativeSatisfaction s.optimisticSatisfaction)
  return some (← aggregatePreferenceBounds criteria)

/-- The hash of the facts that risk is derived from, by field and value. -/
def riskInputHash (material : PlanMaterial) : Py String := do
  let hashed ← material.facts.mapM (hashFact rt)
  contentHash rt (.obj [("action", .str material.action.value),
    ("inputs", .seq ((sortedBy (·.key) hashed).map
      (fun h => .seq [.str h.fact.field, h.fact.value.toValue])))])

/-- `_material_dimensions` -/
def materialDimensions (input : DecisionGraphInput) (material : PlanMaterial)
    (gates : List GateResult) (assessments : List EvidenceAssessment)
    (evaluatedCount discoveredCount : Nat) :
    Py (List ScoreComponent × PlanDimensions × List String) := do
  let (scores, scoreReasons) ← scoreComponents rt input material assessments
  let preference ← preferenceBounds scores
  let scoreReasons := if scores.isEmpty then
    scoreReasons ++ ["BOUND_UNAVAILABLE:NO_APPLICABLE_PREFERENCE"] else scoreReasons
  let (risk, riskReasons, riskRuleIds) ← riskBounds rt input material assessments
  let (coverage, age, hard, evidenceReasons) ←
    coverageAndAge input material gates scores assessments
  let (_, costReasons) ← validCost material.cost material.paymentComponentCount
  let reasons := sortedSet (scoreReasons ++ riskReasons ++ evidenceReasons ++ costReasons)
  let inputHash ← riskInputHash rt material
  return (scores,
    { preference := preference
      stackRisk := risk
      totalCost := material.cost
      decisionMaterialCoverage := coverage
      maximumEvidenceAgeRatio := age
      hardCoverage := hard
      universeCoverage :=
        if discoveredCount = 0 then 0 else (evaluatedCount : ℚ) / discoveredCount
      unresolvedCount := gates.countP (fun gate => gate.truth = .unknown)
      conflictingCount := gates.countP (fun gate => gate.truth = .conflict)
      triggeredRiskRuleIds := riskRuleIds
      riskInputHash := inputHash
      boundUnavailableReasons := reasons },
    riskRuleIds)

end DecisionEngine
