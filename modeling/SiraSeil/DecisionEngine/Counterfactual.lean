-- SUMMARY: The search for the smallest set of private facts whose removal changes the winner, and the decision it completes.
import SiraSeil.DecisionEngine.Evaluation
import SiraSeil.Library.SubsetSearch

/-!
# Counterfactuals

`search_private_fact_counterfactuals` reruns the evaluation without every set of
one, two and three active private facts and stops at the first size at which the
selected plan changes. `evaluate_decision_graph` combines the base evaluation,
the one without any private fact, and the search.
-/

namespace DecisionEngine

open Domain Sorting

variable (rt : Runtime)

/-! ## Changed gates -/

/-- `_gate_truth_map` -/
def gateTruthMap (evaluation : DecisionGraphEvaluation) : Dict (List String × String) TruthValue :=
  .ofList (evaluation.plans.flatMap (fun plan =>
    plan.gateResults.map (fun gate => ((plan.stableActionIds, gate.gateId), gate.truth))))

/-- `_changed_gate_ids` -/
def changedGateIds (before after : DecisionGraphEvaluation) : List String :=
  let beforeMap := gateTruthMap before
  let afterMap := gateTruthMap after
  sortedSet (((beforeMap.items ++ afterMap.items).map Prod.fst).filterMap (fun key =>
    if beforeMap.get? key ≠ afterMap.get? key then some key.2 else none))

/-! ## The record -/

structure CounterfactualRecord where
  outcome : CounterfactualOutcome
  removedFactIds : List String
  alternativeFactIdSets : List (List String)
  testedLimit : Nat
  beforeEvaluationPayloadHash : String
  afterEvaluationPayloadHash : Option String
  genericEvaluationPayloadHash : String
  beforeSelectedPlanId : Option String
  afterSelectedPlanId : Option String
  genericSelectedPlanId : Option String
  changedGateIds : List String
  recordHash : String

/-- `_counterfactual_payload` -/
def counterfactualPayload (record : CounterfactualRecord) : Value :=
  .obj [("outcome", .str record.outcome.value), ("removed_fact_ids", .strs record.removedFactIds),
    ("alternative_fact_id_sets", .seq (record.alternativeFactIdSets.map Value.strs)),
    ("tested_limit", .nat record.testedLimit),
    ("before_evaluation_payload_hash", .str record.beforeEvaluationPayloadHash),
    ("after_evaluation_payload_hash", .opt .str record.afterEvaluationPayloadHash),
    ("generic_evaluation_payload_hash", .str record.genericEvaluationPayloadHash),
    ("before_selected_plan_id", .opt .str record.beforeSelectedPlanId),
    ("after_selected_plan_id", .opt .str record.afterSelectedPlanId),
    ("generic_selected_plan_id", .opt .str record.genericSelectedPlanId),
    ("changed_gate_ids", .strs record.changedGateIds)]

/-! ## The search -/

/-- The active private facts, in the order of their ids. -/
def activePrivateIds (input : DecisionGraphInput) : List String :=
  sortedBy id ((input.buyerFacts.filter (fun fact =>
    fact.isPrivate && decide (fact.factId ∉ input.removedPrivateFactIds.items))).map (·.factId))

/-- The input with further private facts removed. -/
def DecisionGraphInput.removing (input : DecisionGraphInput) (removed : List String) :
    DecisionGraphInput :=
  input.withRemoved (input.removedPrivateFactIds.union removed)

/-- One rerun: the evaluation without `removed`, when its winner is another one. -/
def rerun (input : DecisionGraphInput) (base : DecisionGraphEvaluation) (removed : List String) :
    Py (Option DecisionGraphEvaluation) := do
  let alternate ← evaluateDecisionGraphOnce rt (input.removing removed)
    "counterfactual_evaluation_id" base.generatedAt
  return if alternate.selectedPlanId ≠ base.selectedPlanId then some alternate else none

/-- The record of a finished search over the winners of the first size that has any. -/
def counterfactualRecord (base generic : DecisionGraphEvaluation) (limit : Nat)
    (winners : List (List String × DecisionGraphEvaluation)) : CounterfactualRecord :=
  let record (outcome : CounterfactualOutcome) (removed : List String)
      (alternatives : List (List String)) (chosen : Option DecisionGraphEvaluation) :
      CounterfactualRecord :=
    { outcome := outcome
      removedFactIds := removed
      alternativeFactIdSets := alternatives
      testedLimit := limit
      beforeEvaluationPayloadHash := base.evaluationPayloadHash
      afterEvaluationPayloadHash := chosen.map (·.evaluationPayloadHash)
      genericEvaluationPayloadHash := generic.evaluationPayloadHash
      beforeSelectedPlanId := base.selectedPlanId
      afterSelectedPlanId := chosen.bind (·.selectedPlanId)
      genericSelectedPlanId := generic.selectedPlanId
      changedGateIds := chosen.elim [] (changedGateIds base)
      recordHash := "" }
  match sortedBy Prod.fst winners with
  | [] => record .noSmallCounterfactualFound [] [] none
  | (removed, chosen) :: others =>
    record .winnerChanged removed (others.map Prod.fst) (some chosen)

/-- `search_private_fact_counterfactuals` -/
def searchPrivateFactCounterfactuals (input : DecisionGraphInput)
    (base generic : DecisionGraphEvaluation) (limit : Nat) : Py CounterfactualRecord := do
  demand (decide (1 ≤ limit ∧ limit ≤ 3))
    "Decision Graph v1 counterfactual limit must be from 1 to 3"
  let privateIds := activePrivateIds input
  let winners ← SubsetSearch.search (rerun rt input base) privateIds
    (List.range' 1 (min limit privateIds.length))
  let provisional := counterfactualRecord base generic limit winners
  let hash ← contentHash rt (counterfactualPayload provisional)
  return { provisional with recordHash := hash }

/-! ## The decision -/

structure DecisionGraphDecision where
  base : DecisionGraphEvaluation
  generic : DecisionGraphEvaluation
  counterfactual : CounterfactualRecord
  decisionHash : String

/-- The input without any private fact. -/
def DecisionGraphInput.genericInput (input : DecisionGraphInput) : DecisionGraphInput :=
  input.removing ((input.buyerFacts.filter (·.isPrivate)).map (·.factId))

/-- `evaluate_decision_graph` -/
def evaluateDecisionGraph (input : DecisionGraphInput) (evaluationId : String)
    (generatedAt : Datetime) (counterfactualLimit : Nat) : Py DecisionGraphDecision := do
  let base ← evaluateDecisionGraphOnce rt input evaluationId generatedAt
  let generic ←
    evaluateDecisionGraphOnce rt input.genericInput "generic_evaluation_id" generatedAt
  let counterfactual ←
    searchPrivateFactCounterfactuals rt input base generic counterfactualLimit
  let decisionHash ← contentHash rt
    (.obj [("base_evaluation_payload_hash", .str base.evaluationPayloadHash),
      ("counterfactual_record_hashes", .strs [counterfactual.recordHash]),
      ("selected_outcome", .opt .strs (selectedActionIds base))])
  return ⟨base, generic, counterfactual, decisionHash⟩

end DecisionEngine
