-- SUMMARY: What every eligible plan and every ranked id is known to satisfy: sources, dependencies, gates and bounds.
import SiraSeil.DecisionEngine.GateTruth
import SiraSeil.DecisionEngine.PlanIdentity

/-!
# Selection

A plan is eligible when no gate leaves a reason against it. This file says what
that absence is worth: where the material came from, what the gates have seen
of it, and that only plans with all bounds are ranked. A rule can declare that
failing it leaves a plan eligible, or eligible with an exception; such a rule
promises nothing.
-/

namespace DecisionEngine

open Domain Sorting Raising

variable {rt : Runtime} {input : DecisionGraphInput}

/-! ## Sources of a material -/

theorem weakestAuthority_eq_sellerSealed {records : List RawCandidateRecord} :
    weakestAuthority records = .sellerSealed ↔ ∀ r ∈ records, r.authority = .sellerSealed := by
  have hfold : ∀ (authorities : List PackAuthority) (a : PackAuthority),
      authorities.foldl (fun a b => if a.rank < b.rank then b else a) a = .sellerSealed ↔
        a = .sellerSealed ∧ ∀ b ∈ authorities, b = .sellerSealed := by
    intro authorities
    induction authorities with
    | nil => simp
    | cons b authorities ih =>
      intro a
      have hstep : (if a.rank < b.rank then b else a) = .sellerSealed ↔
          a = .sellerSealed ∧ b = .sellerSealed := by
        cases a <;> cases b <;> decide
      rw [List.foldl_cons, ih, hstep]
      simp [and_assoc]
  unfold weakestAuthority
  rw [hfold]
  simp

/-- The material is an available action on the current stack, or a bundle of packs
    that are all available and sealed by their sellers. -/
inductive SoundSource (rt : Runtime) (input : DecisionGraphInput) : PlanMaterial → Prop
  | current {item : CurrentActionRecord} (hitem : item ∈ input.currentActions)
      (available : item.available = true) : SoundSource rt input (currentMaterial item)
  | pack {representatives : List RawCandidateRecord} {root : RawCandidateRecord}
      {material : PlanMaterial} (hpacks : packRepresentatives rt input = .ok representatives)
      (hroot : root ∈ representatives)
      (hmaterial : packMaterial rt input (offerIndex rt input) representatives root = .ok material)
      (available : ∀ r ∈ (closure representatives root).1, r.available = true)
      (sealed : ∀ r ∈ (closure representatives root).1, r.authority = .sellerSealed) :
      SoundSource rt input material

theorem packMaterial_source {offers : Dict String OfferCost}
    {representatives : List RawCandidateRecord} {root : RawCandidateRecord}
    {material : PlanMaterial}
    (h : packMaterial rt input offers representatives root = .ok material) :
    material.available = (closure representatives root).1.all (·.available) ∧
      material.authority = some (weakestAuthority (closure representatives root).1) := by
  unfold packMaterial at h
  simp only [bind_eq_ok, pure_eq_ok] at h
  obtain ⟨_, -, _, -, _, -, _, -, rfl⟩ := h
  exact ⟨rfl, rfl⟩

theorem mem_planMaterials {recallResult : RecallResult} {materials : List PlanMaterial}
    (hrecall : recallAndDeduplicate rt input = .ok recallResult)
    (hmaterials : planMaterials rt input recallResult = .ok materials) {material : PlanMaterial}
    (hmem : material ∈ materials) :
    (∃ item ∈ input.currentActions, currentMaterial item = material) ∨
      ∃ representatives, packRepresentatives rt input = .ok representatives ∧
        ∃ root ∈ representatives,
          packMaterial rt input (offerIndex rt input) representatives root = .ok material := by
  obtain ⟨representatives, hrepresentatives, packs, hpacks, rfl⟩ :=
    planMaterials_eq_ok hrecall hmaterials
  rcases List.mem_append.mp hmem with hpack | hcurrent
  · exact Or.inr ⟨representatives, hrepresentatives, (mem_of_mapM_eq_ok hpacks).mp hpack⟩
  · exact Or.inl (List.mem_map.mp hcurrent)

theorem soundSource_of_gates {recallResult : RecallResult} {materials : List PlanMaterial}
    (hrecall : recallAndDeduplicate rt input = .ok recallResult)
    (hmaterials : planMaterials rt input recallResult = .ok materials) {material : PlanMaterial}
    (hmem : material ∈ materials) (havailable : material.available = true)
    (hauthority : authorityGate material = none) : SoundSource rt input material := by
  rcases mem_planMaterials hrecall hmaterials hmem with
    ⟨item, hitem, rfl⟩ | ⟨representatives, hpacks, root, hroot, hmaterial⟩
  · exact SoundSource.current hitem havailable
  · obtain ⟨hall, hweakest⟩ := packMaterial_source hmaterial
    refine SoundSource.pack hpacks hroot hmaterial ?_ ?_
    · rw [hall] at havailable
      exact List.all_eq_true.mp havailable
    · refine weakestAuthority_eq_sellerSealed.mp ?_
      unfold authorityGate at hauthority
      rw [hweakest] at hauthority
      split at hauthority
      · rename_i hnone
        cases hnone
      · rename_i hsealed
        exact Option.some.inj hsealed
      · cases hauthority

/-! ## Gates -/

section Gates

variable {gate : GateRule} {material : PlanMaterial} {values : Dict String FactValue}
  {index : AssessmentIndex} {predicate : Predicate}

/-- The predicate holds of the buyer's value when the gate is a seller's, and
    otherwise of the one acceptable value of every component. -/
def Satisfied (rt : Runtime) (gate : GateRule) (material : PlanMaterial)
    (values : Dict String FactValue) (index : AssessmentIndex) (predicate : Predicate) : Prop :=
  (gate.isSeller = true → ∃ value, values.get? predicate.field = some value ∧
    predicateMatches rt value predicate = .ok true) ∧
  (gate.isSeller = false → ∀ componentId ∈ material.componentIds, ∃ state,
    fieldState rt (componentGateFacts material componentId) predicate.field index = .ok state ∧
      ComponentReads rt predicate state true)

theorem Reads.satisfied {truths : List Bool}
    (h : Reads rt gate material values index predicate (.decided truths))
    (htrue : false ∉ truths) : Satisfied rt gate material values index predicate := by
  have hall : ∀ truth ∈ truths, truth = true := by
    intro truth hmem
    cases truth with
    | true => rfl
    | false => exact absurd hmem htrue
  cases h with
  | @value value truth hseller hvalue hmatch =>
    refine ⟨fun _ => ⟨value, hvalue, ?_⟩, fun hbuyer => by simp [hseller] at hbuyer⟩
    rw [← hall truth (List.mem_singleton_self truth)]
    exact hmatch
  | @resolved states _ hbuyer hstates htruths =>
    refine ⟨fun hseller => by simp [hbuyer] at hseller, fun _ componentId hmem => ?_⟩
    obtain ⟨state, hin, hstate⟩ := exists_of_mapM_eq_ok hstates hmem
    obtain ⟨i, hi, hget⟩ := List.mem_iff_getElem.mp hin
    have hlen : i < truths.length := htruths.length_eq ▸ hi
    have hreads := htruths.get hi hlen
    rw [List.get_eq_getElem, List.get_eq_getElem, hget, hall _ (List.getElem_mem hlen)] at hreads
    exact ⟨state, hstate, hreads⟩

/-- What a rule asks of a plan: that every predicate is satisfied, or, when a match
    blocks, that some predicate fails on resolved evidence. -/
structure GateMet (rt : Runtime) (gate : GateRule) (material : PlanMaterial)
    (values : Dict String FactValue) (index : AssessmentIndex) : Prop where
  required : gate.mode = .requireMatch → ∀ predicate ∈ gate.predicates,
    Satisfied rt gate material values index predicate
  blocking : gate.mode = .blockOnMatch → GateFails rt gate material values index

theorem gateMet_of_reasons_eq_nil {result : GateResult}
    (h : evaluateGate rt gate material values index = .ok result) (hnone : result.reasons = []) :
    GateMet rt gate material values index := by
  obtain ⟨⟨hclear, hsettled⟩, hnotFalse⟩ := (evaluateGate_reasons_eq_nil h).mp hnone
  rw [ne_eq, evaluateGate_false_iff h] at hnotFalse
  constructor
  · intro hmode predicate hp
    have hholds : ¬ GateFails rt gate material values index := by
      intro hfails
      refine hnotFalse ⟨hclear, fun _ => hfails, fun hblock => ?_⟩
      rw [hmode] at hblock
      cases hblock
    obtain ⟨reading, hreads⟩ := exists_reads_of_evaluateGate h hp
    cases reading with
    | conflict => exact absurd (Or.inr ⟨predicate, hp, hreads⟩) hclear
    | unresolved => exact absurd (Or.inr ⟨predicate, hp, hreads⟩) hsettled
    | decided truths =>
      refine hreads.satisfied (fun hfalse => hholds ?_)
      exact ⟨predicate, hp, truths, hreads, hfalse⟩
  · intro hmode
    by_contra hfails
    refine hnotFalse ⟨hclear, fun hrequire => ?_, fun _ => ⟨hfails, hsettled⟩⟩
    rw [hmode] at hrequire
    cases hrequire

end Gates

/-! ## Admissible plans -/

/-- What a plan without blocking reasons satisfies, up to the rules whose declared
    status is tolerated. -/
structure Admissible (rt : Runtime) (input : DecisionGraphInput)
    (assessments : List EvidenceAssessment) (tolerated : CandidateStatus → Bool)
    (material : PlanMaterial) : Prop where
  source : SoundSource rt input material
  dependencies : material.dependencyIssues = []
  gates : ∀ gate ∈ applicableGates input material, tolerated gate.blockedStatus = false →
    GateMet rt gate material (buyerValueMap input) (assessmentIndex assessments)

theorem admissible_of_reasons {recallResult : RecallResult} {materials : List PlanMaterial}
    {assessments : List EvidenceAssessment} {tolerated : CandidateStatus → Bool}
    (hrankable : ∀ status, tolerated status = true → status.rankable = true)
    (hrecall : recallAndDeduplicate rt input = .ok recallResult)
    (hmaterials : planMaterials rt input recallResult = .ok materials) {material : PlanMaterial}
    (hmem : material ∈ materials) {gates : List GateResult}
    (hgates : evaluateGates rt input material assessments = .ok gates)
    (hreasons : ∀ result ∈ gates, ∀ reason ∈ result.reasons, tolerated reason.status = true) :
    Admissible rt input assessments tolerated material := by
  have hblocked : ∀ result ∈ gates, ∀ reason ∈ result.reasons, reason.status.rankable = true :=
    fun result hresult reason hreason => hrankable _ (hreasons result hresult reason hreason)
  have havailable : material.available = true := by
    by_contra hunavailable
    have hgate := hblocked _ ((mem_evaluateGates hgates).mpr (Or.inl rfl))
    simp [availabilityGate, hunavailable, CandidateStatus.rankable] at hgate
  have hauthority : authorityGate material = none := by
    cases hresult : authorityGate material with
    | none => rfl
    | some result =>
      obtain ⟨-, reason, hreason, hstatus⟩ := authorityGate_false hresult
      have hgate := hblocked _ ((mem_evaluateGates hgates).mpr (Or.inr (Or.inr (Or.inl hresult))))
        reason hreason
      rw [hstatus] at hgate
      cases hgate
  have hdependencies : dependencyGates material = [] := by
    refine List.eq_nil_iff_forall_not_mem.mpr (fun result hresult => ?_)
    obtain ⟨-, reason, hreason, hstatus⟩ := dependencyGates_false hresult
    have hgate := hblocked _ ((mem_evaluateGates hgates).mpr (Or.inr (Or.inl hresult)))
      reason hreason
    rw [hstatus] at hgate
    cases hgate
  refine ⟨soundSource_of_gates hrecall hmaterials hmem havailable hauthority, ?_, ?_⟩
  · simpa [dependencyGates] using hdependencies
  · intro gate hgate hstatus
    obtain ⟨result, hresult⟩ := exists_evaluateGate_of_evaluateGates hgates hgate
    have hin : result ∈ gates :=
      (mem_evaluateGates hgates).mpr (Or.inr (Or.inr (Or.inr ⟨gate, hgate, hresult⟩)))
    refine gateMet_of_reasons_eq_nil hresult (List.eq_nil_iff_forall_not_mem.mpr ?_)
    intro reason hreason
    rcases evaluateGate_blocking hresult reason hreason with hnot | ⟨hdeclared, -⟩
    · simp [hblocked result hin reason hreason] at hnot
    · rw [← hdeclared, hreasons result hin reason hreason] at hstatus
      cases hstatus

/-! ## Eligible and ranked plans -/

theorem BuiltFrom.placed {assessments : List EvidenceAssessment} {material : PlanMaterial}
    {plan : EvaluatedPlan} (h : BuiltFrom rt input assessments material plan) (ranking : Ranking) :
    BuiltFrom rt input assessments material (plan.placed ranking) :=
  ⟨h.gates, h.status, h.id, h.action, h.components, h.actionIds, h.cost⟩

theorem plans_builtFrom {evaluationId : String} {generatedAt : Datetime}
    {evaluation : DecisionGraphEvaluation}
    (h : evaluateDecisionGraphOnce rt input evaluationId generatedAt = .ok evaluation) :
    ∃ recallResult, recallAndDeduplicate rt input = .ok recallResult ∧
      ∃ materials, planMaterials rt input recallResult = .ok materials ∧
        ∀ plan ∈ evaluation.plans, ∃ material ∈ materials,
          BuiltFrom rt input evaluation.evidenceAssessments material plan := by
  obtain ⟨pipeline, hpipeline, inputHashes, -, payload, -, hash, -, rfl⟩ :=
    evaluateDecisionGraphOnce_eq_ok.mp h
  obtain ⟨hrecall, -, built, hbuilt, -, hplaced⟩ := runPipeline_eq_ok hpipeline
  unfold buildSolutionPlans at hbuilt
  obtain ⟨materials, hmaterials, hbuilt⟩ := bind_eq_ok.mp hbuilt
  refine ⟨pipeline.recallResult, hrecall, materials, hmaterials, ?_⟩
  intro plan hplan
  have hmem : plan ∈ built.map (·.placed pipeline.ranking) := hplaced ▸ hplan
  obtain ⟨bare, hbare, rfl⟩ := List.mem_map.mp hmem
  obtain ⟨material, hmaterial, hbuild⟩ := (mem_of_mapM_eq_ok hbuilt).mp hbare
  exact ⟨material, mem_sortedBy.mp hmaterial, (builtFrom_of_buildPlan hbuild).placed _⟩

theorem exists_rankable_sublist {plans : List EvaluatedPlan} {bounded : List BoundedPlan}
    (h : plans.mapM (boundedPlan · false) = .ok bounded) :
    ∃ ranked : List EvaluatedPlan, ranked.Sublist plans ∧
      (bounded.filterMap rankablePlan?).map (·.1.planId) = ranked.map (·.planId) ∧
      ∀ plan ∈ ranked, ∃ bounds, plan.dimensions.orderingBounds = .ok (some bounds) := by
  have hall := mapM_eq_ok.mp h
  clear h
  induction hall with
  | nil => exact ⟨[], List.Sublist.refl _, rfl, by simp⟩
  | @cons plan one plans bounded hone _ ih =>
    obtain ⟨ranked, hsub, hids, hbounds⟩ := ih
    obtain ⟨hid, hsame⟩ := boundedPlan_eq_ok hone
    cases hone' : one.bounds with
    | none =>
      refine ⟨ranked, hsub.cons plan, ?_, hbounds⟩
      simpa [rankablePlan?, hone'] using hids
    | some bounds =>
      refine ⟨plan :: ranked, hsub.cons_cons plan, ?_, ?_⟩
      · simpa [rankablePlan?, hone', hid] using hids
      · intro other hother
        rcases List.mem_cons.mp hother with rfl | hother
        · exact ⟨bounds, hone' ▸ hsame⟩
        · exact hbounds other hother

theorem exists_ranked_plans {evaluationId : String} {generatedAt : Datetime}
    {evaluation : DecisionGraphEvaluation}
    (h : evaluateDecisionGraphOnce rt input evaluationId generatedAt = .ok evaluation) :
    ∃ ranked : List EvaluatedPlan, ranked.Sublist evaluation.plans ∧
      evaluation.rankedPlanIds.Perm (ranked.map (·.planId)) ∧
      ∀ plan ∈ ranked, plan.status.rankable = true ∧
        ∃ bounds, plan.dimensions.orderingBounds = .ok (some bounds) := by
  obtain ⟨pipeline, hpipeline, inputHashes, -, payload, -, hash, -, rfl⟩ :=
    evaluateDecisionGraphOnce_eq_ok.mp h
  obtain ⟨-, -, built, -, hranking, hplaced⟩ := runPipeline_eq_ok hpipeline
  obtain ⟨bounded, hbounded, hids⟩ := rankEligible_eq_ok hranking
  obtain ⟨ranked, hsub, hsame, hbounds⟩ := exists_rankable_sublist hbounded
  refine ⟨ranked.map (·.placed pipeline.ranking), ?_, ?_, ?_⟩
  · show (ranked.map _).Sublist pipeline.plans
    rw [hplaced]
    exact (hsub.trans List.filter_sublist).map _
  · show pipeline.ranking.rankedIds.Perm _
    have hplacedIds : (ranked.map (·.placed pipeline.ranking)).map (·.planId) =
        ranked.map (·.planId) := by
      rw [List.map_map]
      rfl
    rw [hids, hplacedIds, ← hsame]
    exact (sortedBy_perm _ _).map _
  · intro plan hplan
    obtain ⟨bare, hbare, rfl⟩ := List.mem_map.mp hplan
    exact ⟨(List.mem_filter.mp (hsub.subset hbare)).2, hbounds bare hbare⟩

namespace Sample

def onPremisesAction : CurrentActionRecord where
  actionId := "a4"
  action := .renew
  instanceId := "delta"
  facts := [onPremisesFact]
  cost := cost

def inCloud : Predicate where
  field := "hosting"
  operator := "eq"
  value := .str "cloud"
  admitted := onPremises.admitted

/-- Asks for the cloud, and only notes an exception where it is not met. -/
def cloudOrException : GateRule where
  gateId := "cloud_or_exception"
  predicates := [inCloud]
  mode := .requireMatch
  blockedStatus := .eligibleWithException
  reasonCode := "NOT_IN_CLOUD"
  sourceFactIds := .of []
  appliesToActions := []

def exceptionInput : DecisionGraphInput :=
  { Sample.input with
    currentActions := [onPremisesAction]
    evidencePolicies := [policy, hostingPolicy]
    gates := [cloudOrException]
    currentActions_nodup := by decide +kernel
    evidencePolicies_nodup := bundleInput.evidencePolicies_nodup
    gates_nodup := by decide +kernel }

end Sample

end DecisionEngine
