-- SUMMARY: A removed private fact leaks nothing by its content or presence, and when removing a fact equals deleting all that rests on it.
import SiraSeil.DecisionEngine.Counterfactual
import SiraSeil.DecisionEngine.Readings
import SiraSeil.Domain.Hashing

/-!
# Private facts

A fact is removed by naming its id. Every stage reads the buyer's facts through
`activeBuyerFacts`, so what a removed fact says, and whether it is there at all,
cannot be observed.
-/

namespace DecisionEngine

open Domain Sorting

variable {rt : Runtime}

/-! ## Removed facts are not read -/

/-- The input with other buyer facts. -/
def DecisionGraphInput.withFacts (input : DecisionGraphInput) (facts : List FrozenFact)
    (h : (facts.map (·.factId)).Nodup) : DecisionGraphInput :=
  { input with buyerFacts := facts, buyerFacts_nodup := h }

/-- The facts that are not removed are the same; those that are may differ in
    everything, and may be missing or added. -/
def SameKeptFacts (input : DecisionGraphInput) (facts : List FrozenFact) : Prop :=
  facts.filter (fun fact => fact.factId ∉ input.removedPrivateFactIds.items) =
    input.buyerFacts.filter (fun fact => fact.factId ∉ input.removedPrivateFactIds.items)

section WithFacts

variable {input : DecisionGraphInput} {facts : List FrozenFact} (h : (facts.map (·.factId)).Nodup)
  (hkept : SameKeptFacts input facts)

include hkept

theorem activeBuyerFacts_withFacts :
    activeBuyerFacts (input.withFacts facts h) = activeBuyerFacts input :=
  hkept

theorem activeSourceIds_withFacts :
    activeSourceIds (input.withFacts facts h) = activeSourceIds input := by
  unfold activeSourceIds
  rw [activeBuyerFacts_withFacts h hkept]

theorem pipelineReading_withFacts : PipelineReading rt (input.withFacts facts h) input where
  recallResult := ⟨rfl, rfl, rfl⟩
  pair := ⟨rfl, fun _ => rfl, fun _ => rfl⟩
  materials := fun _ _ => ⟨fun _ _ => rfl, fun _ _ => rfl⟩
  dimensions := by
    refine ⟨fun action => ?_, fun subject criterion => ?_, rfl, rfl⟩
    · unfold applicableCriteria
      rw [activeSourceIds_withFacts h hkept]
      rfl
    · unfold outcomeValue activeOutcomes
      rw [activeSourceIds_withFacts h hkept]
      rfl
  current := rfl
  pairs := fun _ _ _ => Iff.rfl
  plans := by
    intro recallResult _ materials _ material _
    refine ⟨⟨?_, fun gate _ _ predicate _ => ?_⟩, fun _ _ _ => rfl⟩
    · unfold applicableGates
      rw [activeSourceIds_withFacts h hkept]
      rfl
    · unfold buyerValueMap
      rw [activeBuyerFacts_withFacts h hkept]

theorem evaluationReading_withFacts : EvaluationReading (input.withFacts facts h) input where
  versions := rfl
  removed := rfl
  artifacts := by
    unfold frozenArtifacts
    rw [activeBuyerFacts_withFacts h hkept]
    rfl

/-- Evaluations of inputs that differ in removed facts only are the same, whether
    they return or raise. -/
theorem evaluateDecisionGraphOnce_withFacts (evaluationId : String) (generatedAt : Datetime) :
    evaluateDecisionGraphOnce rt (input.withFacts facts h) evaluationId generatedAt =
      evaluateDecisionGraphOnce rt input evaluationId generatedAt :=
  evaluateDecisionGraphOnce_congr (pipelineReading_withFacts h hkept)
    (evaluationReading_withFacts h hkept) evaluationId generatedAt

end WithFacts

/-- With its private fact removed, the sample is evaluated as if it had none. -/
theorem evaluateDecisionGraphOnce_withFacts_sample :
    SameKeptFacts (Sample.input.removing ["team_size"]) [] ∧
      evaluateDecisionGraphOnce .ascii
          ((Sample.input.removing ["team_size"]).withFacts [] (by decide)) "base" Sample.now =
        evaluateDecisionGraphOnce .ascii (Sample.input.removing ["team_size"]) "base" Sample.now := by
  have hkept : SameKeptFacts (Sample.input.removing ["team_size"]) [] := by
    have hall : (Sample.input.removing ["team_size"]).buyerFacts.filter
        (fun fact => fact.factId ∉ (Sample.input.removing ["team_size"]).removedPrivateFactIds.items) =
          [] := by
      refine List.filter_eq_nil_iff.mpr (fun fact hfact => ?_)
      rw [List.mem_singleton.mp hfact]
      decide +kernel
    exact hall.symm
  exact ⟨hkept, evaluateDecisionGraphOnce_withFacts (by decide) hkept "base" Sample.now⟩

end DecisionEngine
