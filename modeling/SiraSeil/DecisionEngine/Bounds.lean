-- SUMMARY: Exact intervals of a plan's ranking dimensions, the ordering keys built from them, and the rank-stability assessment.
import Mathlib.Data.List.Lex
import Mathlib.Data.Prod.Lex
import Mathlib.Algebra.Order.Field.Rat
import SiraSeil.Domain.Money
import SiraSeil.Domain.Enums
import SiraSeil.Library.Raising

/-!
# Bounds

`decision_engine/bounds.py`. An `ExactRatio` is a reduced fraction with positive
denominator, which is what `ℚ` is. Each class that checks its arguments is a
structure with the check as a field, and `new` is the constructor that raises.
-/

namespace DecisionEngine

open Domain Sorting

/-! ## Preference -/

structure PreferenceCriterionBound where
  criterionId : String
  weight : Nat
  conservativeSatisfaction : ℚ
  optimisticSatisfaction : ℚ
  criterionId_ok : isId criterionId = true
  weight_ok : 1 ≤ weight ∧ weight ≤ 5
  satisfaction_ok : 0 ≤ conservativeSatisfaction ∧ conservativeSatisfaction ≤ optimisticSatisfaction ∧
    optimisticSatisfaction ≤ 1

def PreferenceCriterionBound.new (criterionId : String) (weight : Nat)
    (conservative optimistic : ℚ) : Py PreferenceCriterionBound :=
  if hid : isId criterionId = true then
    if hw : 1 ≤ weight ∧ weight ≤ 5 then
      if hs : 0 ≤ conservative ∧ conservative ≤ optimistic ∧ optimistic ≤ 1 then
        .ok ⟨criterionId, weight, conservative, optimistic, hid, hw, hs⟩
      else .error (.domainValidation
        "preference satisfaction bounds must satisfy 0 <= low <= high <= 1")
    else .error (.domainValidation "preference weight must be an integer from 1 to 5")
  else .error (.domainValidation "criterion_id must be a stable non-empty identifier")

structure PreferenceScoreBounds where
  conservative : ℚ
  optimistic : ℚ
  ordered : 0 ≤ conservative ∧ conservative ≤ optimistic ∧ optimistic ≤ 100

def PreferenceScoreBounds.new (conservative optimistic : ℚ) : Py PreferenceScoreBounds :=
  if h : 0 ≤ conservative ∧ conservative ≤ optimistic ∧ optimistic ≤ 100 then
    .ok ⟨conservative, optimistic, h⟩
  else .error (.domainValidation "preference score bounds must be between zero and 100")

def aggregatePreferenceBounds (criteria : List PreferenceCriterionBound) : Py PreferenceScoreBounds :=
  if criteria = [] then
    .error (.domainValidation "a preference-capable plan requires at least one criterion")
  else if ¬ (criteria.map (·.criterionId)).Nodup then
    .error (.domainValidation "preference criteria must be unique")
  else
    let denominator : ℚ := ((criteria.map (·.weight)).sum : Nat)
    let total (satisfaction : PreferenceCriterionBound → ℚ) : ℚ :=
      (criteria.map (fun item => (item.weight : ℚ) * satisfaction item)).sum
    PreferenceScoreBounds.new (100 * total (·.conservativeSatisfaction) / denominator)
      (100 * total (·.optimisticSatisfaction) / denominator)

/-! ## Coverage -/

structure CoverageCriterion where
  criterionId : String
  weight : Nat
  conservativeCovered : Bool
  optimisticCovered : Bool
  criterionId_ok : isId criterionId = true
  weight_ok : 1 ≤ weight ∧ weight ≤ 5
  covered_mono : conservativeCovered = true → optimisticCovered = true

def CoverageCriterion.new (criterionId : String) (weight : Nat) (conservative optimistic : Bool) :
    Py CoverageCriterion :=
  if hid : isId criterionId = true then
    if hw : 1 ≤ weight ∧ weight ≤ 5 then
      if hc : conservative = true → optimistic = true then
        .ok ⟨criterionId, weight, conservative, optimistic, hid, hw, hc⟩
      else .error (.domainValidation
        "optimistic coverage cannot be lower than conservative coverage")
    else .error (.domainValidation "coverage weight must be an integer from 1 to 5")
  else .error (.domainValidation "criterion_id must be a stable non-empty identifier")

/-- The only bounds class without a check of its own. -/
structure CoverageBounds where
  conservative : ℚ
  optimistic : ℚ

def aggregateCoverageBounds (criteria : List CoverageCriterion) : Py CoverageBounds :=
  if criteria = [] then .ok ⟨1, 1⟩
  else if ¬ (criteria.map (·.criterionId)).Nodup then
    .error (.domainValidation "coverage criteria must be unique")
  else
    let denominator : ℚ := ((criteria.map (·.weight)).sum : Nat)
    let covered (p : CoverageCriterion → Bool) : ℚ :=
      (((criteria.filter p).map (·.weight)).sum : Nat)
    .ok ⟨covered (·.conservativeCovered) / denominator, covered (·.optimisticCovered) / denominator⟩

/-! ## Risk -/

structure RiskBounds where
  lower : StackRisk
  base : StackRisk
  upper : StackRisk
  ordered : lower.rank ≤ base.rank ∧ base.rank ≤ upper.rank := by decide

def RiskBounds.new (lower base upper : StackRisk) : Py RiskBounds :=
  if h : lower.rank ≤ base.rank ∧ base.rank ≤ upper.rank then .ok ⟨lower, base, upper, h⟩
  else .error (.domainValidation "risk bounds must satisfy lower <= base <= upper")

def maxRank (ranks : List Nat) : Nat :=
  ranks.foldl max 0

def aggregateRiskBounds (components : List RiskBounds) : Py RiskBounds :=
  if components.isEmpty then
    .error (.domainValidation "risk aggregation requires a component or current-stack action")
  else
    RiskBounds.new (StackRisk.byRank (maxRank (components.map (·.lower.rank))))
      (StackRisk.byRank (maxRank (components.map (·.base.rank))))
      (StackRisk.byRank (maxRank (components.map (·.upper.rank))))

/-! ## Cost -/

structure CostBounds where
  low : Money
  base : Money
  high : Money
  comparable : low.currency = base.currency ∧ base.currency = high.currency
  ordered : low.cents ≤ base.cents ∧ base.cents ≤ high.cents

def CostBounds.new (low base high : Money) : Py CostBounds :=
  if hc : low.currency = base.currency ∧ base.currency = high.currency then
    if ho : low.cents ≤ base.cents ∧ base.cents ≤ high.cents then .ok ⟨low, base, high, hc, ho⟩
    else .error (.domainValidation "TCO bounds require one currency and low <= base <= high")
  else .error (.domainValidation "TCO bounds require one currency and low <= base <= high")

/-! ## Evidence age -/

structure EvidenceAgeBounds where
  lower : ℚ
  upper : ℚ
  ordered : 0 ≤ lower ∧ lower ≤ upper

def EvidenceAgeBounds.new (lower upper : ℚ) : Py EvidenceAgeBounds :=
  if h : 0 ≤ lower ∧ lower ≤ upper then .ok ⟨lower, upper, h⟩
  else .error (.domainValidation "evidence-age bounds must satisfy 0 <= lower <= upper")

def evidenceAgeBounds (evaluatedAt observedAtLower observedAtUpper : Datetime) (slaSeconds : Nat) :
    Py EvidenceAgeBounds :=
  if !evaluatedAt.aware || !observedAtLower.aware || !observedAtUpper.aware then
    .error (.domainValidation "evidence times must be timezone-aware")
  else if slaSeconds < 1 then
    .error (.domainValidation "evidence SLA must be a positive integer number of seconds")
  else if ¬ (observedAtLower.micros ≤ observedAtUpper.micros ∧
      observedAtUpper.micros ≤ evaluatedAt.micros) then
    .error (.domainValidation "evidence time bounds must precede evaluation")
  else
    let ratio (observedAt : Datetime) : ℚ :=
      ((evaluatedAt.micros - observedAt.micros : Int) : ℚ) / (slaSeconds * 1000000 : Nat)
    EvidenceAgeBounds.new (ratio observedAtUpper) (ratio observedAtLower)

def aggregateEvidenceAgeBounds : List EvidenceAgeBounds → Py EvidenceAgeBounds
  | [] => EvidenceAgeBounds.new 0 0
  | item :: items =>
    EvidenceAgeBounds.new (items.foldl (fun acc i => max acc i.lower) item.lower)
      (items.foldl (fun acc i => max acc i.upper) item.upper)

/-! ## Bounded plans -/

structure OrderingBounds where
  preference : PreferenceScoreBounds
  stackRisk : RiskBounds
  totalCost : CostBounds
  decisionMaterialCoverage : CoverageBounds
  maximumEvidenceAgeRatio : EvidenceAgeBounds

/-- `BoundedPlan.__post_init__` -/
def BoundedPlan.postInit (planId : String) (status : CandidateStatus)
    (stableActionIds : List String) (bounds : Option OrderingBounds)
    (boundUnavailableReasons : List String) : Py Unit := do
  requireId planId "plan_id"
  if !status.rankable then
    throw (.domainValidation "only eligible plans receive authoritative ordering bounds")
  if stableActionIds.isEmpty then
    throw (.domainValidation "a bounded plan requires stable action IDs")
  stableActionIds.forM (fun actionId => requireId actionId "stable_action_id")
  if bounds.isNone == boundUnavailableReasons.isEmpty then
    throw (.domainValidation "missing bounds require exact BOUND_UNAVAILABLE reasons")

structure BoundedPlan where
  planId : String
  status : CandidateStatus
  stableActionIds : List String
  bounds : Option OrderingBounds
  boundUnavailableReasons : List String
  admitted :
    BoundedPlan.postInit planId status stableActionIds bounds boundUnavailableReasons = .ok ()

def BoundedPlan.new (planId : String) (status : CandidateStatus) (stableActionIds : List String)
    (bounds : Option OrderingBounds) (boundUnavailableReasons : List String) : Py BoundedPlan :=
  match h : BoundedPlan.postInit planId status stableActionIds bounds boundUnavailableReasons with
  | .ok () => .ok ⟨planId, status, stableActionIds, bounds, boundUnavailableReasons, h⟩
  | .error e => .error e

theorem BoundedPlan.new_eq_ok {planId : String} {status : CandidateStatus} {ids : List String}
    {bounds : Option OrderingBounds} {reasons : List String} {plan : BoundedPlan}
    (h : BoundedPlan.new planId status ids bounds reasons = .ok plan) :
    plan.planId = planId ∧ plan.status = status ∧ plan.stableActionIds = ids ∧
      plan.bounds = bounds ∧ plan.boundUnavailableReasons = reasons := by
  unfold BoundedPlan.new at h
  split at h
  · cases h
    exact ⟨rfl, rfl, rfl, rfl, rfl⟩
  · cases h

def BoundedPlan.statusRank (plan : BoundedPlan) : Nat :=
  if plan.status = .eligible then 0 else 1

/-! ## Ordering keys -/

/-- Plans are compared by status, preference, risk, cost, coverage, evidence age,
    action ids and plan id, in this order. -/
abbrev OrderingKey : Type :=
  ℕ ×ₗ ℚ ×ₗ ℕ ×ₗ ℚ ×ₗ ℚ ×ₗ ℚ ×ₗ List String ×ₗ String

/-- A key from one value in each dimension. Preference and coverage are negated:
    more of them is better. -/
def orderingKey (plan : BoundedPlan) (preference : ℚ) (risk : ℕ) (cost coverage age : ℚ) :
    OrderingKey :=
  toLex (plan.statusRank, toLex (-preference, toLex (risk, toLex (cost, toLex (-coverage,
    toLex (age, toLex (plan.stableActionIds, plan.planId)))))))

/-- `authoritative_ordering_key` of a plan whose bounds are present. -/
def authoritativeOrderingKey (plan : BoundedPlan) (bounds : OrderingBounds) : OrderingKey :=
  orderingKey plan bounds.preference.conservative bounds.stackRisk.base.rank
    bounds.totalCost.base.amount bounds.decisionMaterialCoverage.conservative
    bounds.maximumEvidenceAgeRatio.upper

/-- `conservative_envelope_key` of a plan whose bounds are present. -/
def conservativeEnvelopeKey (plan : BoundedPlan) (bounds : OrderingBounds) : OrderingKey :=
  orderingKey plan bounds.preference.conservative bounds.stackRisk.upper.rank
    bounds.totalCost.high.amount bounds.decisionMaterialCoverage.conservative
    bounds.maximumEvidenceAgeRatio.upper

/-- `optimistic_envelope_key` of a plan whose bounds are present. -/
def optimisticEnvelopeKey (plan : BoundedPlan) (bounds : OrderingBounds) : OrderingKey :=
  orderingKey plan bounds.preference.optimistic bounds.stackRisk.lower.rank
    bounds.totalCost.low.amount bounds.decisionMaterialCoverage.optimistic
    bounds.maximumEvidenceAgeRatio.lower

/-- `_require_bounds` -/
def requireBounds (plan : BoundedPlan) : Py OrderingBounds :=
  match plan.bounds with
  | some bounds => .ok bounds
  | none => .error (.domainValidation "BOUND_UNAVAILABLE plans cannot receive an ordering key")

/-! ## Rank stability -/

structure RankStabilityResult where
  status : RankStability
  orderingFrontierPlanIds : List String
  boundUnavailablePlanIds : List String
  deriving DecidableEq

/-- The ids of the competitors whose best key lies below the worst key of the
    selection. -/
def overtaking (selectedWorst : OrderingKey) (competitors : List BoundedPlan) :
    Py (List String) := do
  let keyed ← competitors.mapM (fun plan => do
    let bounds ← requireBounds plan
    return (plan.planId, optimisticEnvelopeKey plan bounds))
  return (keyed.filter (fun p => p.2 < selectedWorst)).map Prod.fst

/-- `assess_rank_stability` -/
def assessRankStability (selected : BoundedPlan) (competitors : List BoundedPlan) :
    Py RankStabilityResult := do
  let unavailable := sortedBy id
    (((selected :: competitors).filter (fun plan => plan.bounds.isNone)).map (·.planId))
  if !unavailable.isEmpty then
    return ⟨.undetermined, [], unavailable⟩
  let selectedWorst := conservativeEnvelopeKey selected (← requireBounds selected)
  let frontier := sortedBy id (← overtaking selectedWorst competitors)
  return ⟨if frontier.isEmpty then .stable else .unstable, frontier, []⟩

end DecisionEngine
