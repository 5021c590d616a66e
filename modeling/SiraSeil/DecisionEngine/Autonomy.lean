-- SUMMARY: Which plans may be executed autonomously: ranked plans of a stable evaluation, and not only the selected one.
import SiraSeil.DecisionEngine.Selection

/-!
# Autonomous execution

The flag of a plan is set from its own lifecycle, cost and action and from the stability of the
whole ranking. It says nothing about selection: that is `selectedPlanId`.
-/

namespace DecisionEngine

open Domain Sorting Raising

variable {rt : Runtime} {input : DecisionGraphInput}

theorem planLifecycle_eq_executable {status : CandidateStatus} {bounds : Option OrderingBounds}
    {resolution : Option String} :
    planLifecycle status bounds resolution = .executable ↔
      status.rankable = true ∧ bounds.isSome = true := by
  unfold planLifecycle
  split
  · next hrankable => cases bounds <;> simp [hrankable]
  · next hrankable => split <;> simp [hrankable]

theorem executable_of_buildPlan {assessments : List EvidenceAssessment} {evaluated discovered : Nat}
    {material : PlanMaterial} {plan : EvaluatedPlan}
    (h : buildPlan rt input assessments evaluated discovered material = .ok plan)
    (hexecutable : plan.lifecycle = .executable) :
    plan.status.rankable = true ∧ ∃ bounds, plan.dimensions.orderingBounds = .ok (some bounds) := by
  unfold buildPlan at h
  obtain ⟨gates, -, h⟩ := bind_eq_ok.mp h
  obtain ⟨⟨scores, dimensions, riskIds⟩, -, h⟩ := bind_eq_ok.mp h
  obtain ⟨componentHash, -, h⟩ := bind_eq_ok.mp h
  obtain ⟨bounds, hbounds, h⟩ := bind_eq_ok.mp h
  obtain ⟨id, -, h⟩ := bind_eq_ok.mp h
  obtain rfl := pure_eq_ok.mp h
  obtain ⟨hrankable, hsome⟩ := planLifecycle_eq_executable.mp hexecutable
  obtain ⟨bounds, rfl⟩ := Option.isSome_iff_exists.mp hsome
  exact ⟨hrankable, bounds, hbounds⟩

theorem mem_rankedIds {plans : List EvaluatedPlan} {ranking : Ranking} {plan : EvaluatedPlan}
    {bounds : OrderingBounds} (h : rankEligible plans = .ok ranking) (hplan : plan ∈ plans)
    (hrankable : plan.status.rankable = true)
    (hbounds : plan.dimensions.orderingBounds = .ok (some bounds)) :
    plan.planId ∈ ranking.rankedIds := by
  obtain ⟨bounded, hbounded, hids⟩ := rankEligible_eq_ok h
  obtain ⟨one, hone, hbuilt⟩ := exists_of_mapM_eq_ok hbounded
    (List.mem_filter.mpr ⟨hplan, hrankable⟩)
  obtain ⟨hid, hsame⟩ := boundedPlan_eq_ok hbuilt
  have hsome : one.bounds = some bounds := Except.ok.inj (hsame.symm.trans hbounds)
  have hranked : (one, bounds) ∈ bounded.filterMap rankablePlan? :=
    List.mem_filterMap.mpr ⟨one, hone, by rw [rankablePlan?, hsome]; rfl⟩
  rw [hids, ← hid]
  exact List.mem_map_of_mem (mem_sortedBy.mpr hranked)

theorem autonomousAction_iff {action : SolutionAction} :
    autonomousAction action = true ↔ action = .reuseExisting ∨ action = .noAction := by
  cases action <;> simp [autonomousAction]

/-- A plan may be executed autonomously exactly when it is executable without payment, reuses what
    is there or does nothing, and the ranking is stable. Such a plan is ranked, so there is a
    selected plan. -/
theorem autonomous_plans_ranked {evaluationId : String} {generatedAt : Datetime}
    {evaluation : DecisionGraphEvaluation}
    (h : evaluateDecisionGraphOnce rt input evaluationId generatedAt = .ok evaluation) :
    ∀ plan ∈ evaluation.plans,
      (plan.autonomousExecutionAllowed = true ↔
        plan.lifecycle = .executable ∧ evaluation.rankStability = .stable ∧
          plan.dimensions.totalCost.paymentRequired = false ∧
            (plan.action = .reuseExisting ∨ plan.action = .noAction)) ∧
      (plan.autonomousExecutionAllowed = true →
        plan.planId ∈ evaluation.rankedPlanIds ∧ evaluation.selectedPlanId.isSome = true) := by
  obtain ⟨pipeline, hpipeline, inputHashes, -, payload, -, hash, -, rfl⟩ :=
    evaluateDecisionGraphOnce_eq_ok.mp h
  obtain ⟨-, -, built, hbuilt, hranking, hplaced⟩ := runPipeline_eq_ok hpipeline
  intro plan hplan
  have hmem : plan ∈ built.map (·.placed pipeline.ranking) := hplaced ▸ hplan
  obtain ⟨bare, hbare, rfl⟩ := List.mem_map.mp hmem
  have hflag : (bare.placed pipeline.ranking).autonomousExecutionAllowed = true ↔
      bare.lifecycle = .executable ∧ pipeline.ranking.stability = .stable ∧
        bare.dimensions.totalCost.paymentRequired = false ∧
          (bare.action = .reuseExisting ∨ bare.action = .noAction) := by
    simp only [EvaluatedPlan.placed, Bool.and_eq_true, decide_eq_true_eq, Bool.not_eq_true',
      autonomousAction_iff, and_assoc]
  refine ⟨hflag, fun hallowed => ?_⟩
  unfold buildSolutionPlans at hbuilt
  obtain ⟨materials, -, hbuilt⟩ := bind_eq_ok.mp hbuilt
  obtain ⟨material, -, hbuild⟩ := (mem_of_mapM_eq_ok hbuilt).mp hbare
  obtain ⟨hrankable, bounds, hbounds⟩ := executable_of_buildPlan hbuild (hflag.mp hallowed).1
  have hranked := mem_rankedIds hranking hbare hrankable hbounds
  refine ⟨hranked, ?_⟩
  show pipeline.ranking.rankedIds.head?.isSome = true
  rw [List.isSome_head?]
  exact List.ne_nil_of_mem hranked

/-- Two plans of one evaluation may be executed autonomously, one of them not selected. -/
theorem unselected_plan_is_autonomous :
    ¬ ∀ (rt : Runtime) (input : DecisionGraphInput) (evaluationId : String)
      (generatedAt : Datetime) (evaluation : DecisionGraphEvaluation),
      evaluateDecisionGraphOnce rt input evaluationId generatedAt = .ok evaluation →
      ∀ plan ∈ evaluation.plans, plan.autonomousExecutionAllowed = true →
        evaluation.selectedPlanId = some plan.planId := by
  intro hclaim
  have hrun : (evaluateDecisionGraphOnce .ascii Sample.input "base" Sample.now).toOption.any
      (fun evaluation => evaluation.plans.any (fun plan =>
        plan.autonomousExecutionAllowed && decide (evaluation.selectedPlanId ≠ some plan.planId))) =
          true := by decide +kernel
  obtain ⟨evaluation, hevaluation, hany⟩ := exists_of_toOption_any hrun
  obtain ⟨plan, hplan, hchecks⟩ := List.any_eq_true.mp hany
  simp only [Bool.and_eq_true, decide_eq_true_eq] at hchecks
  exact hchecks.2 (hclaim .ascii Sample.input "base" Sample.now evaluation hevaluation plan hplan
    hchecks.1)

/-- The autonomous plans of the sample are ranked. -/
theorem autonomous_plans_ranked_sample :
    ∃ evaluation, evaluateDecisionGraphOnce .ascii Sample.input "base" Sample.now =
        .ok evaluation ∧
      ∃ plan ∈ evaluation.plans, plan.autonomousExecutionAllowed = true ∧
        plan.planId ∈ evaluation.rankedPlanIds := by
  have hrun : (evaluateDecisionGraphOnce .ascii Sample.input "base" Sample.now).toOption.any
      (fun evaluation => evaluation.plans.any (·.autonomousExecutionAllowed)) = true := by
    decide +kernel
  obtain ⟨evaluation, hevaluation, hany⟩ := exists_of_toOption_any hrun
  obtain ⟨plan, hplan, hallowed⟩ := List.any_eq_true.mp hany
  exact ⟨evaluation, hevaluation, plan, hplan, hallowed,
    ((autonomous_plans_ranked hevaluation plan hplan).2 hallowed).1⟩

end DecisionEngine
