-- SUMMARY: When the plans of an evaluation have distinct ids, so that ranking and competitor filtering see every plan.
import SiraSeil.DecisionEngine.Evaluation
import SiraSeil.Domain.Hashing

/-!
# Plan identity

A plan id is the digest of an action and the product ids of the components.
Recall keeps records apart by seller, product, edition and region, and current
actions by their action id, so two materials may share an id. This file says
exactly when they do, and what distinct ids give the ranking.
-/

namespace DecisionEngine

open Domain Sorting Raising

variable {rt : Runtime} {input : DecisionGraphInput}

/-! ## What an id identifies -/

/-- The action and the components that `_plan_id` hashes. -/
abbrev PlanIdentity : Type := SolutionAction × List String

def PlanMaterial.identity (material : PlanMaterial) : PlanIdentity :=
  (material.action, material.componentIds)

theorem planPayload_injective {action action' : SolutionAction} {ids ids' : List String}
    (h : planPayload action ids = planPayload action' ids') : action = action' ∧ ids = ids' := by
  unfold planPayload at h
  split at h
  · split at h
    · simp only [Value.obj.injEq, List.cons.injEq, Prod.mk.injEq, Value.atom.injEq,
        Atom.str.injEq, true_and, and_true] at h
      exact ⟨SolutionAction.value_injective h.1, congrArg (fun id => [id]) h.2⟩
    · simp at h
  · split at h
    · simp at h
    · simp only [Value.obj.injEq, List.cons.injEq, Prod.mk.injEq, Value.atom.injEq,
        Atom.str.injEq, Value.seq.injEq, true_and, and_true] at h
      refine ⟨SolutionAction.value_injective h.1, List.map_injective_iff.mpr ?_ h.2⟩
      intro a b hab
      simpa using hab

/-- The identities of the materials of an input. -/
def planIdentities (rt : Runtime) (input : DecisionGraphInput) : Py (List PlanIdentity) := do
  let recallResult ← recallAndDeduplicate rt input
  let materials ← planMaterials rt input recallResult
  return materials.map PlanMaterial.identity

/-- The digests of the payloads that the plans of an input hash do not collide. -/
def CollisionFree (rt : Runtime) (input : DecisionGraphInput) : Prop :=
  ∀ identities, planIdentities rt input = .ok identities →
    ∀ i ∈ identities, ∀ j ∈ identities, ∀ id,
      planId rt i.1 i.2 = .ok id → planId rt j.1 j.2 = .ok id →
        planPayload i.1 i.2 = planPayload j.1 j.2

/-! ## Identities of the materials -/

/-- The product ids of the bundle that a representative needs. -/
def bundleIds (representatives : List RawCandidateRecord) (root : RawCandidateRecord) :
    List String :=
  (closure representatives root).1.map (·.productId)

theorem identity_packMaterial {offers : Dict String OfferCost}
    {representatives : List RawCandidateRecord} {root : RawCandidateRecord}
    {material : PlanMaterial}
    (h : packMaterial rt input offers representatives root = .ok material) :
    material.identity = (.replace, bundleIds representatives root) := by
  unfold packMaterial at h
  simp only [bind_eq_ok, pure_eq_ok] at h
  obtain ⟨_, -, _, -, _, -, _, -, rfl⟩ := h
  rfl

/-- No two recalled packs need the same products, no two current actions do the same
    to one instance, and no current replacement names a product that is recalled on
    its own. -/
structure DistinctPlans (rt : Runtime) (input : DecisionGraphInput) : Prop where
  packs : ∀ representatives, packRepresentatives rt input = .ok representatives →
    (representatives.map (bundleIds representatives)).Nodup
  actions : (input.currentActions.map (fun a => (a.action, a.instanceId))).Nodup
  replacements : ∀ representatives, packRepresentatives rt input = .ok representatives →
    ∀ a ∈ input.currentActions, a.action = .replace →
      ∀ root ∈ representatives, bundleIds representatives root ≠ [a.instanceId]

variable {recallResult : RecallResult} {bounded : List BoundedPlan}

theorem identities_planMaterials {materials : List PlanMaterial}
    (hrecall : recallAndDeduplicate rt input = .ok recallResult)
    (hmaterials : planMaterials rt input recallResult = .ok materials) :
    ∃ representatives, packRepresentatives rt input = .ok representatives ∧
      materials.map PlanMaterial.identity =
        representatives.map (fun root => (.replace, bundleIds representatives root)) ++
          input.currentActions.map (fun a => (a.action, [a.instanceId])) := by
  obtain ⟨representatives, hrepresentatives, packs, hpacks, rfl⟩ :=
    planMaterials_eq_ok hrecall hmaterials
  have hidentities : packs.map PlanMaterial.identity =
      representatives.map (fun root => (.replace, bundleIds representatives root)) := by
    rw [← List.forall₂_eq_eq_eq, List.forall₂_map_left_iff, List.forall₂_map_right_iff]
    exact (mapM_eq_ok.mp hpacks).flip.imp (fun _ _ h => identity_packMaterial h)
  refine ⟨representatives, hrepresentatives, ?_⟩
  rw [List.map_append, hidentities, List.map_map]
  rfl

/-- Materials are told apart by action and components exactly when the plans of the
    input are distinct. -/
theorem nodup_identities_iff {materials : List PlanMaterial}
    (hrecall : recallAndDeduplicate rt input = .ok recallResult)
    (hmaterials : planMaterials rt input recallResult = .ok materials) :
    (materials.map PlanMaterial.identity).Nodup ↔ DistinctPlans rt input := by
  obtain ⟨representatives, hrepresentatives, hidentities⟩ :=
    identities_planMaterials hrecall hmaterials
  have hunique : ∀ other, packRepresentatives rt input = .ok other → other = representatives :=
    fun other hother => Except.ok.inj (hother.symm.trans hrepresentatives)
  have hpacks : (representatives.map
      (fun root => ((.replace, bundleIds representatives root) : PlanIdentity))).Nodup ↔
        (representatives.map (bundleIds representatives)).Nodup := by
    rw [← List.nodup_map_iff (f := fun ids : List String => (SolutionAction.replace, ids))
      (fun a b h => (Prod.mk.inj h).2), List.map_map]
    rfl
  have hactions : (input.currentActions.map
      (fun a => ((a.action, [a.instanceId]) : PlanIdentity))).Nodup ↔
        (input.currentActions.map (fun a => (a.action, a.instanceId))).Nodup := by
    rw [← List.nodup_map_iff (f := fun p : SolutionAction × String => (p.1, [p.2]))
      (fun a b h => by simpa [Prod.ext_iff] using h), List.map_map]
    rfl
  rw [hidentities, List.nodup_append, hpacks, hactions]
  constructor
  · rintro ⟨hnodup, hnodup', hdisjoint⟩
    refine ⟨fun other hother => hunique other hother ▸ hnodup, hnodup', ?_⟩
    intro other hother a ha hreplace root hroot hsame
    rw [hunique other hother] at hroot hsame
    refine hdisjoint _ (List.mem_map_of_mem hroot) _ (List.mem_map_of_mem ha) ?_
    rw [hsame, hreplace]
  · intro hdistinct
    refine ⟨hdistinct.packs _ hrepresentatives, hdistinct.actions, ?_⟩
    intro i hi j hj hij
    obtain ⟨root, hroot, rfl⟩ := List.mem_map.mp hi
    obtain ⟨a, ha, rfl⟩ := List.mem_map.mp hj
    obtain ⟨haction, hids⟩ := Prod.mk.inj hij
    exact hdistinct.replacements _ hrepresentatives a ha haction.symm root hroot hids

/-! ## Ids of the plans -/

theorem nodup_planIds_iff {assessments : List EvidenceAssessment} {plans : List EvaluatedPlan}
    (hfree : CollisionFree rt input) (hrecall : recallAndDeduplicate rt input = .ok recallResult)
    (hplans : buildSolutionPlans rt input recallResult assessments = .ok plans) :
    (plans.map (·.planId)).Nodup ↔ DistinctPlans rt input := by
  unfold buildSolutionPlans at hplans
  obtain ⟨materials, hmaterials, hplans⟩ := bind_eq_ok.mp hplans
  have hidentities : planIdentities rt input = .ok (materials.map PlanMaterial.identity) := by
    unfold planIdentities
    rw [hrecall, ok_bind, hmaterials, ok_bind]
    rfl
  have hsorted := (sortedBy_perm PlanMaterial.key materials).map PlanMaterial.identity
  have hids : ((sortedBy PlanMaterial.key materials).map PlanMaterial.identity).mapM
      (fun i => planId rt i.1 i.2) = .ok (plans.map (·.planId)) := by
    rw [mapM_eq_ok, List.forall₂_map_left_iff, List.forall₂_map_right_iff]
    exact (mapM_eq_ok.mp hplans).imp (fun _ _ h => (builtFrom_of_buildPlan h).id)
  have hinjective : ∀ i ∈ (sortedBy PlanMaterial.key materials).map PlanMaterial.identity,
      ∀ j ∈ (sortedBy PlanMaterial.key materials).map PlanMaterial.identity, ∀ id,
        planId rt i.1 i.2 = .ok id → planId rt j.1 j.2 = .ok id → i = j := by
    intro i hi j hj id hid hid'
    have hpayload := hfree _ hidentities i (hsorted.mem_iff.mp hi) j (hsorted.mem_iff.mp hj) id
      hid hid'
    obtain ⟨haction, hcomponents⟩ := planPayload_injective hpayload
    exact Prod.ext haction hcomponents
  rw [nodup_iff_of_mapM_eq_ok hids hinjective, hsorted.nodup_iff,
    nodup_identities_iff hrecall hmaterials]

/-! ## Ranking and competitors -/

/-- Ids tell the plans of an evaluation apart: no id is ranked twice, and the
    eligible plans are the selected one and the competitors it is compared with. -/
structure IdentifiesPlans (evaluation : DecisionGraphEvaluation) : Prop where
  plans : (evaluation.plans.map (·.planId)).Nodup
  ranked : evaluation.rankedPlanIds.Nodup
  competitors : ∀ bounded,
    (evaluation.plans.filter (·.status.rankable)).mapM (boundedPlan · false) = .ok bounded →
    ∀ selected bounds rest, rankPlans (bounded.filterMap rankablePlan?) = (selected, bounds) :: rest →
      (selected :: competitorsOf bounded selected).Perm bounded

theorem planIds_of_mapM_boundedPlan {plans : List EvaluatedPlan}
    (h : plans.mapM (boundedPlan · false) = .ok bounded) :
    bounded.map (·.planId) = plans.map (·.planId) := by
  rw [← List.forall₂_eq_eq_eq, List.forall₂_map_left_iff, List.forall₂_map_right_iff]
  exact (mapM_eq_ok.mp h).flip.imp (fun _ _ h => (boundedPlan_eq_ok h).1)

theorem rankable_planIds_sublist (bounded : List BoundedPlan) :
    ((bounded.filterMap rankablePlan?).map (·.1.planId)).Sublist (bounded.map (·.planId)) := by
  induction bounded with
  | nil => exact List.Sublist.refl _
  | cons plan bounded ih =>
    cases hbounds : plan.bounds with
    | none => simpa [rankablePlan?, hbounds] using ih.cons plan.planId
    | some bounds => simpa [rankablePlan?, hbounds] using ih

theorem mem_of_rankPlans {ranked : RankablePlan}
    (h : ranked ∈ rankPlans (bounded.filterMap rankablePlan?)) :
    ranked.1 ∈ bounded ∧ ranked.1.bounds = some ranked.2 := by
  obtain ⟨plan, hplan, hranked⟩ := List.mem_filterMap.mp (mem_sortedBy.mp h)
  unfold rankablePlan? at hranked
  obtain ⟨bounds, hbounds, rfl⟩ := Option.map_eq_some_iff.mp hranked
  exact ⟨hplan, hbounds⟩

theorem competitorsOf_perm {selected : BoundedPlan} (hnodup : (bounded.map (·.planId)).Nodup)
    (hselected : selected ∈ bounded) :
    (selected :: competitorsOf bounded selected).Perm bounded := by
  obtain ⟨before, after, rfl⟩ := List.append_of_mem hselected
  rw [List.map_append, List.map_cons, List.nodup_middle, List.nodup_cons] at hnodup
  have hothers : ∀ plan ∈ before ++ after, plan.planId ≠ selected.planId := by
    intro plan hplan hsame
    apply hnodup.1
    rw [← hsame, ← List.map_append]
    exact List.mem_map_of_mem hplan
  have hcompetitors : competitorsOf (before ++ selected :: after) selected = before ++ after := by
    unfold competitorsOf
    rw [List.filter_append, List.filter_cons_of_neg (by simp), ← List.filter_append]
    refine List.filter_eq_self.mpr (fun plan hplan => ?_)
    exact decide_eq_true (hothers plan hplan)
  rw [hcompetitors]
  exact List.perm_middle.symm

theorem identifiesPlans_of_nodup {evaluationId : String} {generatedAt : Datetime}
    {evaluation : DecisionGraphEvaluation}
    (h : evaluateDecisionGraphOnce rt input evaluationId generatedAt = .ok evaluation)
    (hnodup : (evaluation.plans.map (·.planId)).Nodup) : IdentifiesPlans evaluation := by
  have heligible : ∀ bounded,
      (evaluation.plans.filter (·.status.rankable)).mapM (boundedPlan · false) = .ok bounded →
        (bounded.map (·.planId)).Nodup := by
    intro bounded hbounded
    rw [planIds_of_mapM_boundedPlan hbounded]
    exact hnodup.sublist (List.filter_sublist.map _)
  refine ⟨hnodup, ?_, ?_⟩
  · obtain ⟨pipeline, hpipeline, inputHashes, -, payload, -, hash, -, rfl⟩ :=
      evaluateDecisionGraphOnce_eq_ok.mp h
    obtain ⟨-, -, built, -, hranking, hplaced⟩ := runPipeline_eq_ok hpipeline
    obtain ⟨bounded, hbounded, hranked⟩ := rankEligible_eq_ok hranking
    have hplans : ((pipeline.plans.filter (·.status.rankable)).mapM (boundedPlan · false)) =
        .ok bounded := by
      rw [hplaced, List.filter_map, List.mapM_map]
      exact hbounded
    have hrankedIds : ((rankPlans (bounded.filterMap rankablePlan?)).map (·.1.planId)).Perm
        ((bounded.filterMap rankablePlan?).map (·.1.planId)) := (sortedBy_perm _ _).map _
    show pipeline.ranking.rankedIds.Nodup
    rw [hranked, hrankedIds.nodup_iff]
    exact (heligible bounded hplans).sublist (rankable_planIds_sublist bounded)
  · intro bounded hbounded selected bounds rest hranked
    have hselected : (selected, bounds) ∈ rankPlans (bounded.filterMap rankablePlan?) :=
      hranked ▸ List.mem_cons_self
    exact competitorsOf_perm (heligible bounded hbounded) (mem_of_rankPlans hselected).1

/-- Without collisions, ids tell the plans of an evaluation apart exactly when its
    input has distinct plans. -/
theorem identifiesPlans_iff_distinctPlans {evaluationId : String} {generatedAt : Datetime}
    {evaluation : DecisionGraphEvaluation}
    (h : evaluateDecisionGraphOnce rt input evaluationId generatedAt = .ok evaluation)
    (hfree : CollisionFree rt input) :
    IdentifiesPlans evaluation ↔ DistinctPlans rt input := by
  obtain ⟨pipeline, hpipeline, inputHashes, -, payload, -, hash, -, rfl⟩ :=
    evaluateDecisionGraphOnce_eq_ok.mp h
  obtain ⟨hrecall, -, built, hbuilt, -, hplaced⟩ := runPipeline_eq_ok hpipeline
  have hids : pipeline.plans.map (·.planId) = built.map (·.planId) := by
    rw [hplaced, List.map_map]
    rfl
  rw [← nodup_planIds_iff hfree hrecall hbuilt, ← hids]
  exact ⟨fun hidentifies => hidentifies.plans, identifiesPlans_of_nodup h⟩

/-! ## Two editions of one product -/

namespace Sample

def enterpriseSso : RawCandidateRecord where
  recordId := "record_sso_enterprise"
  packId := "pack_sso_enterprise"
  packVersion := 1
  sellerId := "acme"
  productId := "sso"
  edition := "enterprise"
  region := "eu"
  offerId := "offer_sso"
  authority := .sellerSealed
  available := true
  facts := []

/-- Two editions of one product, which recall keeps apart. -/
def editionsInput : DecisionGraphInput :=
  { Sample.input with
    candidates := [sso, enterpriseSso]
    offers := [ssoOffer]
    evidencePolicies := [policy, hostingPolicy]
    currentActions := []
    candidates_nodup := by decide +kernel
    offers_nodup := ssoOffer_nodup
    evidencePolicies_nodup := bundleInput.evidencePolicies_nodup
    currentActions_nodup := noActions_nodup }

end Sample

/-- Both editions are selected under one id: it is ranked twice, and the second
    edition is not among the competitors of the first. -/
theorem editions_share_a_plan_id :
    CollisionFree .ascii Sample.editionsInput ∧
      ∃ evaluation, evaluateDecisionGraphOnce .ascii Sample.editionsInput "base" Sample.now =
          .ok evaluation ∧
        ¬ (evaluation.plans.map (·.planId)).Nodup ∧ ¬ evaluation.rankedPlanIds.Nodup ∧
        ¬ IdentifiesPlans evaluation := by
  have hidentities : planIdentities .ascii Sample.editionsInput =
      .ok [(.replace, ["sso"]), (.replace, ["sso"])] := by decide +kernel
  have hrun : (evaluateDecisionGraphOnce .ascii Sample.editionsInput "base" Sample.now).toOption.any
      (fun evaluation => !decide ((evaluation.plans.map (·.planId)).Nodup) &&
        !decide evaluation.rankedPlanIds.Nodup) = true := by decide +kernel
  refine ⟨?_, ?_⟩
  · intro identities hother i hi j hj id hid hid'
    obtain rfl : _ = identities := Except.ok.inj (hidentities.symm.trans hother)
    have hsame : ∀ k ∈ [((.replace, ["sso"]) : PlanIdentity), (.replace, ["sso"])],
        k = (.replace, ["sso"]) := by decide
    rw [hsame i hi, hsame j hj]
  · obtain ⟨evaluation, hevaluation, hchecks⟩ := exists_of_toOption_any hrun
    simp only [Bool.and_eq_true, Bool.not_eq_true', decide_eq_false_iff_not] at hchecks
    exact ⟨evaluation, hevaluation, hchecks.1, hchecks.2, fun h => hchecks.1 h.plans⟩

/-- The two current actions of the sample have distinct plans. -/
theorem identifiesPlans_iff_distinctPlans_sample :
    CollisionFree .ascii Sample.input ∧
      ∃ evaluation, evaluateDecisionGraphOnce .ascii Sample.input "base" Sample.now =
          .ok evaluation ∧ (IdentifiesPlans evaluation ↔ DistinctPlans .ascii Sample.input) ∧
        IdentifiesPlans evaluation := by
  have hidentities : planIdentities .ascii Sample.input =
      .ok [(.reuseExisting, ["alpha"]), (.noAction, ["beta"])] := by decide +kernel
  have hfree : CollisionFree .ascii Sample.input := by
    intro identities hother i hi j hj id hid hid'
    obtain rfl : _ = identities := Except.ok.inj (hidentities.symm.trans hother)
    have hapart : ∀ k ∈ [((.reuseExisting, ["alpha"]) : PlanIdentity), (.noAction, ["beta"])],
        ∀ l ∈ [((.reuseExisting, ["alpha"]) : PlanIdentity), (.noAction, ["beta"])],
          planId .ascii k.1 k.2 = planId .ascii l.1 l.2 → k = l := by decide +kernel
    rw [hapart i hi j hj (hid.trans hid'.symm)]
  have hrun : (evaluateDecisionGraphOnce .ascii Sample.input "base" Sample.now).toOption.any
      (fun evaluation => decide ((evaluation.plans.map (·.planId)).Nodup)) = true := by
    decide +kernel
  obtain ⟨evaluation, hevaluation, hnodup⟩ := exists_of_toOption_any hrun
  exact ⟨hfree, evaluation, hevaluation, identifiesPlans_iff_distinctPlans hevaluation hfree,
    identifiesPlans_of_nodup hevaluation (of_decide_eq_true hnodup)⟩

end DecisionEngine
