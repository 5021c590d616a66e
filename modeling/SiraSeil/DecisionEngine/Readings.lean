-- SUMMARY: What each stage of an evaluation reads of its input, so that inputs with the same readings are evaluated alike.
import SiraSeil.DecisionEngine.Evaluation

/-!
# Readings

Two inputs can differ and still be evaluated alike, because no stage reads its
input as it is written: rules are read in sorted order and only when their
sources are active, keyed groups are read through dictionaries, evidence pairs
are read as a set. For every stage this file names what it reads and proves
that equal readings give equal results, errors included.
-/

namespace DecisionEngine

open Domain Sorting Raising

variable {rt : Runtime} {input input' : DecisionGraphInput}

/-! ## Recall -/

/-- What recall reads. -/
structure RecallReading (input input' : DecisionGraphInput) : Prop where
  candidates : sortedBy (·.recordId) input.candidates = sortedBy (·.recordId) input'.candidates
  normalization : input.identityNormalization = input'.identityNormalization
  recallPolicy : input.recallPolicy = input'.recallPolicy

theorem RecallReading.aliasMap_eq (h : RecallReading input input') :
    aliasMap input = aliasMap input' := by
  unfold aliasMap
  rw [h.normalization]

theorem RecallReading.candidates_perm (h : RecallReading input input') :
    input.candidates.Perm input'.candidates := by
  have hsorted := sortedBy_perm (fun r : RawCandidateRecord => r.recordId) input.candidates
  rw [h.candidates] at hsorted
  exact hsorted.symm.trans (sortedBy_perm _ input'.candidates)

theorem recallRecord_congr (h : RecallReading input input') (record : RawCandidateRecord) :
    recallRecord rt input record = recallRecord rt input' record := by
  unfold recallRecord recallExclusion
  rw [h.aliasMap_eq, h.recallPolicy]

theorem recallAndDeduplicate_congr (h : RecallReading input input') :
    recallAndDeduplicate rt input = recallAndDeduplicate rt input' := by
  have hrecord : recallRecord rt input = recallRecord rt input' :=
    funext (recallRecord_congr h)
  have hgroups : mergeGroups rt input = mergeGroups rt input' := by
    funext kept
    unfold mergeGroups
    rw [h.aliasMap_eq]
  unfold recallAndDeduplicate
  rw [h.candidates, hrecord, hgroups, h.candidates_perm.length_eq]

/-! ## Evidence -/

/-- What the assessment of one pair reads. -/
structure PairReading (input input' : DecisionGraphInput) : Prop where
  evaluatedAt : input.evaluatedAt = input'.evaluatedAt
  evidence : ∀ id, (Dict.ofList (input.evidence.map (fun e => (e.evidenceId, e)))).get? id =
    (Dict.ofList (input'.evidence.map (fun e => (e.evidenceId, e)))).get? id
  policies : ∀ field, (Dict.ofList (input.evidencePolicies.map (fun p => (p.field, p)))).get? field =
    (Dict.ofList (input'.evidencePolicies.map (fun p => (p.field, p)))).get? field

theorem assessPair_congr (h : PairReading input input') (pair : EvidencePair) :
    assessPair rt input pair = assessPair rt input' pair := by
  unfold assessPair
  simp only [h.evidence, h.policies, h.evaluatedAt]

variable {recallResult : RecallResult} {records : List RawCandidateRecord}

theorem assessEvidence_congr (h : PairReading input input')
    (hpairs : ∀ pair, pair ∈ evidencePairs input recallResult ↔
      pair ∈ evidencePairs input' recallResult) :
    assessEvidence rt input recallResult = assessEvidence rt input' recallResult := by
  unfold assessEvidence
  rw [sortedSet_congr hpairs, funext (assessPair_congr h)]

/-! ## Materials -/

/-- The fields that preferences aggregate over a bundle, and how. -/
def aggregations (input : DecisionGraphInput) : List (String × Aggregation) :=
  (preferenceByField input).sortedItems.map (fun p => (p.1, p.2.aggregation))

/-- How preferences aggregate a field, if any preference reads it. -/
def aggregationOf (input : DecisionGraphInput) (field : String) : Option Aggregation :=
  ((preferenceByField input).get? field).map (·.aggregation)

theorem mem_aggregations {p : String × Aggregation} :
    p ∈ aggregations input ↔ aggregationOf input p.1 = some p.2 := by
  obtain ⟨field, aggregation⟩ := p
  simp only [aggregations, aggregationOf, List.mem_map, Dict.sortedItems, mem_sortedBy,
    Option.map_eq_some_iff, Dict.get?_eq_some_iff, Prod.mk.injEq, Prod.exists]
  constructor
  · rintro ⟨k, c, hmem, rfl, rfl⟩
    exact ⟨c, hmem, rfl⟩
  · rintro ⟨c, hmem, rfl⟩
    exact ⟨field, c, hmem, rfl, rfl⟩

theorem aggregations_pairwise (input : DecisionGraphInput) :
    (aggregations input).Pairwise (fun p q => p.1 < q.1) := by
  have hsorted := sortedBy_pairwise Prod.fst (preferenceByField input).items
  have hnodup : ((preferenceByField input).sortedItems.map Prod.fst).Nodup :=
    ((sortedBy_perm Prod.fst _).map Prod.fst).nodup_iff.mpr (preferenceByField input).nodup
  have hlt := hsorted.and (List.pairwise_map.mp hnodup)
  exact List.pairwise_map.mpr (hlt.imp (fun h => lt_of_le_of_ne h.1 h.2))

theorem aggregateField_eq_nil (hne : records ≠ []) {field : String}
    (hfield : ∀ r ∈ records, ∀ fact ∈ r.facts, fact.field ≠ field) (bundleId : String)
    (aggregation : Aggregation) :
    aggregateField rt records bundleId field aggregation = .ok [] := by
  have hempty : records.map (fun r => r.facts.filter (fun fact => fact.field = field)) =
      records.map (fun _ => []) := by
    refine List.map_congr_left (fun r hr => List.filter_eq_nil_iff.mpr (fun fact hfact => ?_))
    simpa using hfield r hr fact hfact
  obtain ⟨first, rest, rfl⟩ := List.exists_cons_of_ne_nil hne
  unfold aggregateField
  simp only [hempty]
  split
  · rw [List.getLast?_map]
    cases (first :: rest).getLast? <;> rfl
  · simp only [List.map_cons, List.mapM_cons, single?]
    show Except.ok _ = Except.ok []
    simp

/-- Some component has a fact on the field. -/
def fieldUsed (records : List RawCandidateRecord) (field : String) : Bool :=
  records.any (fun r => r.facts.any (fun fact => fact.field = field))

theorem fieldUsed_iff {field : String} :
    fieldUsed records field = true ↔ ∃ r ∈ records, ∃ fact ∈ r.facts, fact.field = field := by
  simp [fieldUsed]

theorem bundleFacts_eq (hne : records ≠ []) (input : DecisionGraphInput) (bundleId : String) :
    bundleFacts rt (preferenceByField input) records bundleId =
      ((records.flatMap (·.facts)).filter
        (fun fact => (aggregationOf input fact.field).isNone) ++ ·) <$>
        (List.flatten <$> ((aggregations input).filter (fun p => fieldUsed records p.1)).mapM
          (fun p => aggregateField rt records bundleId p.1 p.2)) := by
  have hretained : (fun fact : ProductFact => !(preferenceByField input).contains fact.field) =
      fun fact => (aggregationOf input fact.field).isNone := by
    funext fact
    unfold aggregationOf Dict.contains
    cases (preferenceByField input).get? fact.field <;> rfl
  have hunused : ∀ p ∈ aggregations input, fieldUsed records p.1 = false →
      aggregateField rt records bundleId p.1 p.2 = .ok [] := by
    intro p _ hp
    refine aggregateField_eq_nil hne (fun r hr fact hfact hfield => ?_) bundleId p.2
    rw [fieldUsed_iff.mpr ⟨r, hr, fact, hfact, hfield⟩] at hp
    cases hp
  rw [← mapM_flatten_filter hunused]
  unfold bundleFacts aggregations
  rw [hretained, List.mapM_map]
  simp only [map_eq_pure_bind, bind_assoc, pure_bind]
  rfl

theorem usedAggregations_congr (h : ∀ r ∈ records, ∀ fact ∈ r.facts,
      aggregationOf input fact.field = aggregationOf input' fact.field) :
    (aggregations input).filter (fun p => fieldUsed records p.1) =
      (aggregations input').filter (fun p => fieldUsed records p.1) := by
  have : Std.Irrefl (fun p q : String × Aggregation => p.1 < q.1) := ⟨fun p => lt_irrefl p.1⟩
  have : Std.Antisymm (fun p q : String × Aggregation => p.1 < q.1) :=
    ⟨fun p q hpq hqp => absurd hqp (lt_asymm hpq)⟩
  refine List.Pairwise.eq_of_mem_iff ((aggregations_pairwise input).filter _)
    ((aggregations_pairwise input').filter _) (fun p => ?_)
  rw [List.mem_filter, List.mem_filter, mem_aggregations, mem_aggregations]
  refine and_congr_left (fun hused => ?_)
  obtain ⟨r, hr, fact, hfact, hfield⟩ := fieldUsed_iff.mp hused
  rw [← hfield, h r hr fact hfact]

theorem aggregatePreferenceFacts_congr (h : 1 < records.length → ∀ r ∈ records, ∀ fact ∈ r.facts,
      aggregationOf input fact.field = aggregationOf input' fact.field) :
    aggregatePreferenceFacts rt input records = aggregatePreferenceFacts rt input' records := by
  unfold aggregatePreferenceFacts
  split
  · rfl
  · rfl
  · rename_i primary hlast hone
    have hne : records ≠ [] := fun hnil => by simp [hnil] at hlast
    have hlen : 1 < records.length := by
      have hpos := List.length_pos_iff.mpr hne
      have hnotOne : records.length ≠ 1 := hone
      omega
    have hretained : (records.flatMap (·.facts)).filter
        (fun fact => (aggregationOf input fact.field).isNone) =
          (records.flatMap (·.facts)).filter
            (fun fact => (aggregationOf input' fact.field).isNone) := by
      refine List.filter_congr (fun fact hfact => ?_)
      obtain ⟨r, hr, hfact⟩ := List.mem_flatMap.mp hfact
      rw [h hlen r hr fact hfact]
    rw [bundleFacts_eq hne, bundleFacts_eq hne, hretained, usedAggregations_congr (h hlen)]

/-- What pack materials read beside the recall: the offers of the records, and how
    preferences aggregate the facts of a bundle. -/
structure MaterialReading (rt : Runtime) (input input' : DecisionGraphInput)
    (representatives : List RawCandidateRecord) : Prop where
  offers : ∀ record ∈ representatives,
    (offerIndex rt input).get? record.offerId = (offerIndex rt input').get? record.offerId
  bundles : ∀ root ∈ representatives,
    aggregatePreferenceFacts rt input (closure representatives root).1 =
      aggregatePreferenceFacts rt input' (closure representatives root).1

theorem combinedCost_congr {offers offers' : Dict String OfferCost}
    (h : ∀ record ∈ records, offers.get? record.offerId = offers'.get? record.offerId) :
    combinedCost rt records offers = combinedCost rt records offers' := by
  have hcosts : records.filterMap (fun r => offers.get? r.offerId) =
      records.filterMap (fun r => offers'.get? r.offerId) := List.filterMap_congr h
  unfold combinedCost
  rw [hcosts]

theorem packMaterial_congr {representatives : List RawCandidateRecord}
    (h : MaterialReading rt input input' representatives) {root : RawCandidateRecord}
    (hroot : root ∈ representatives) :
    packMaterial rt input (offerIndex rt input) representatives root =
      packMaterial rt input' (offerIndex rt input') representatives root := by
  have hcost : combinedCost rt (closure representatives root).1 (offerIndex rt input) =
      combinedCost rt (closure representatives root).1 (offerIndex rt input') :=
    combinedCost_congr (fun record hrecord => h.offers record (closure_subset hroot hrecord))
  unfold packMaterial
  simp only [hcost, h.bundles root hroot]

theorem packMaterials_congr (hr : RecallReading input input')
    (hrecall : recallAndDeduplicate rt input = .ok recallResult)
    (h : ∀ representatives, packRepresentatives rt input = .ok representatives →
      MaterialReading rt input input' representatives) :
    packMaterials rt input recallResult = packMaterials rt input' recallResult := by
  have hoffer : withCanonicalOffer rt input = withCanonicalOffer rt input' := by
    funext record
    unfold withCanonicalOffer
    rw [hr.aliasMap_eq]
  unfold packMaterials
  rw [← hoffer]
  cases hreps : recallResult.representatives.mapM (withCanonicalOffer rt input) with
  | error e => simp only [error_bind]
  | ok representatives =>
    have hpacks : packRepresentatives rt input = .ok representatives := by
      unfold packRepresentatives
      rw [hrecall, ok_bind, hreps]
    simp only [ok_bind]
    apply mapM_congr
    intro root hroot
    exact packMaterial_congr (h representatives hpacks) hroot

/-! ## Gates -/

/-- A seller gate reads the buyer's value of each of its predicates, any other gate
    reads none. -/
theorem evaluateGate_congr {values values' : Dict String FactValue} {gate : GateRule}
    (h : gate.isSeller = true → ∀ predicate ∈ gate.predicates,
      values.get? predicate.field = values'.get? predicate.field)
    (material : PlanMaterial) (index : AssessmentIndex) :
    evaluateGate rt gate material values index = evaluateGate rt gate material values' index := by
  have htraces : gate.predicates.mapM (predicateTrace rt gate material values index) =
      gate.predicates.mapM (predicateTrace rt gate material values' index) := by
    apply mapM_congr
    intro predicate hpredicate
    unfold predicateTrace
    split
    · rename_i hseller
      unfold sellerPredicateTrace
      rw [h hseller predicate hpredicate]
    · rfl
  unfold evaluateGate gateTrace
  rw [htraces]

/-- What the gates of one plan read. -/
structure GateReading (input input' : DecisionGraphInput) (material : PlanMaterial) : Prop where
  gates : applicableGates input material = applicableGates input' material
  buyerValues : ∀ gate ∈ applicableGates input material, gate.isSeller = true →
    ∀ predicate ∈ gate.predicates,
      (buyerValueMap input).get? predicate.field = (buyerValueMap input').get? predicate.field

theorem evaluateGates_congr {material : PlanMaterial} (h : GateReading input input' material)
    (assessments : List EvidenceAssessment) :
    evaluateGates rt input material assessments = evaluateGates rt input' material assessments := by
  have hruled : (applicableGates input material).mapM (fun gate =>
      evaluateGate rt gate material (buyerValueMap input) (assessmentIndex assessments)) =
        (applicableGates input material).mapM (fun gate =>
          evaluateGate rt gate material (buyerValueMap input') (assessmentIndex assessments)) := by
    apply mapM_congr
    intro gate hgate
    exact evaluateGate_congr (h.buyerValues gate hgate) material _
  unfold evaluateGates
  rw [hruled, h.gates]

/-! ## Dimensions -/

/-- What the dimensions of a plan read, beside its gates. -/
structure DimensionReading (input input' : DecisionGraphInput) : Prop where
  criteria : ∀ action, applicableCriteria input action = applicableCriteria input' action
  outcomes : ∀ subject criterion,
    outcomeValue input subject criterion = outcomeValue input' subject criterion
  riskRules : sortedBy (·.ruleId) input.riskRules = sortedBy (·.ruleId) input'.riskRules
  riskRuleSetComplete : input.riskRuleSetComplete = input'.riskRuleSetComplete

theorem scoreComponents_congr (h : DimensionReading input input') (material : PlanMaterial)
    (assessments : List EvidenceAssessment) :
    scoreComponents rt input material assessments =
      scoreComponents rt input' material assessments := by
  have hscore : scoreCriterion rt input material (assessmentIndex assessments) =
      scoreCriterion rt input' material (assessmentIndex assessments) := by
    funext criterion
    unfold scoreCriterion
    rw [h.outcomes]
  unfold scoreComponents
  rw [h.criteria, hscore]

theorem riskBounds_congr (h : DimensionReading input input') (material : PlanMaterial)
    (assessments : List EvidenceAssessment) :
    riskBounds rt input material assessments = riskBounds rt input' material assessments := by
  unfold riskBounds
  rw [h.riskRules, h.riskRuleSetComplete]

theorem coverageAndAge_congr (h : DimensionReading input input') (material : PlanMaterial)
    {gates : List GateResult} (hgates : activeHardGates input gates = activeHardGates input' gates)
    (scores : List ScoreComponent) (assessments : List EvidenceAssessment) :
    coverageAndAge input material gates scores assessments =
      coverageAndAge input' material gates scores assessments := by
  unfold coverageAndAge hardCoverage
  rw [h.criteria, hgates]

theorem materialDimensions_congr (h : DimensionReading input input') (material : PlanMaterial)
    {gates : List GateResult} (hgates : activeHardGates input gates = activeHardGates input' gates)
    (assessments : List EvidenceAssessment) (evaluated discovered : Nat) :
    materialDimensions rt input material gates assessments evaluated discovered =
      materialDimensions rt input' material gates assessments evaluated discovered := by
  unfold materialDimensions
  simp only [scoreComponents_congr h, riskBounds_congr h, coverageAndAge_congr h material hgates]

/-! ## Plans -/

/-- What the plan of one material reads of the gates: those that apply, and which of
    their results count as hard. -/
structure PlanReading (rt : Runtime) (input input' : DecisionGraphInput)
    (material : PlanMaterial) : Prop where
  gates : GateReading input input' material
  hardGates : ∀ assessments gates, evaluateGates rt input material assessments = .ok gates →
    activeHardGates input gates = activeHardGates input' gates

theorem buildPlan_congr {material : PlanMaterial} (h : PlanReading rt input input' material)
    (hd : DimensionReading input input') (assessments : List EvidenceAssessment)
    (evaluated discovered : Nat) :
    buildPlan rt input assessments evaluated discovered material =
      buildPlan rt input' assessments evaluated discovered material := by
  unfold buildPlan
  rw [← evaluateGates_congr h.gates]
  cases hgates : evaluateGates rt input material assessments with
  | error e => simp only [error_bind]
  | ok gates =>
    simp only [ok_bind,
      materialDimensions_congr hd material (h.hardGates assessments gates hgates)]

/-- The materials of current actions, in the order in which they become plans. -/
def currentMaterials (input : DecisionGraphInput) : List PlanMaterial :=
  sortedBy PlanMaterial.key (input.currentActions.map currentMaterial)

theorem buildSolutionPlans_congr (hd : DimensionReading input input')
    {assessments : List EvidenceAssessment}
    (hpacks : packMaterials rt input recallResult = packMaterials rt input' recallResult)
    (hcurrent : currentMaterials input = currentMaterials input')
    (hplan : ∀ materials, planMaterials rt input recallResult = .ok materials →
      ∀ material ∈ materials, PlanReading rt input input' material) :
    buildSolutionPlans rt input recallResult assessments =
      buildSolutionPlans rt input' recallResult assessments := by
  have hlength : input.currentActions.length = input'.currentActions.length := by
    simpa [currentMaterials] using congrArg List.length hcurrent
  unfold buildSolutionPlans planMaterials
  rw [← hpacks]
  cases hmaterials : packMaterials rt input recallResult with
  | error e => simp only [error_bind]
  | ok packs =>
    have hsorted : sortedBy PlanMaterial.key (packs ++ input.currentActions.map currentMaterial) =
        sortedBy PlanMaterial.key (packs ++ input'.currentActions.map currentMaterial) :=
      sortedBy_append_congr hcurrent
    have hplans : planMaterials rt input recallResult =
        .ok (packs ++ input.currentActions.map currentMaterial) := by
      simp only [planMaterials, hmaterials, ok_bind]
      rfl
    simp only [ok_bind, pure, Except.pure, List.length_append, List.length_map, ← hlength,
      ← hsorted]
    apply mapM_congr
    intro material hmaterial
    exact buildPlan_congr (hplan _ hplans material (mem_sortedBy.mp hmaterial)) hd _ _ _

/-! ## The pipeline -/

/-- Everything the four stages read. The readings of later stages are needed only
    at what the earlier stages returned. -/
structure PipelineReading (rt : Runtime) (input input' : DecisionGraphInput) : Prop where
  recallResult : RecallReading input input'
  pair : PairReading input input'
  materials : ∀ representatives, packRepresentatives rt input = .ok representatives →
    MaterialReading rt input input' representatives
  dimensions : DimensionReading input input'
  current : currentMaterials input = currentMaterials input'
  pairs : ∀ recallResult, recallAndDeduplicate rt input = .ok recallResult →
    ∀ pair, pair ∈ evidencePairs input recallResult ↔ pair ∈ evidencePairs input' recallResult
  plans : ∀ recallResult, recallAndDeduplicate rt input = .ok recallResult →
    ∀ materials, planMaterials rt input recallResult = .ok materials →
      ∀ material ∈ materials, PlanReading rt input input' material

theorem runPipeline_congr (h : PipelineReading rt input input') :
    runPipeline rt input = runPipeline rt input' := by
  unfold runPipeline
  rw [← recallAndDeduplicate_congr h.recallResult]
  cases hrecall : recallAndDeduplicate rt input with
  | error e => simp only [error_bind]
  | ok recallResult =>
    have hassess : assessEvidence rt input recallResult = assessEvidence rt input' recallResult :=
      assessEvidence_congr h.pair (h.pairs recallResult hrecall)
    have hpacks := packMaterials_congr h.recallResult hrecall h.materials
    simp only [ok_bind, ← hassess]
    cases assessEvidence rt input recallResult with
    | error e => simp only [error_bind]
    | ok assessments =>
      simp only [ok_bind, buildSolutionPlans_congr h.dimensions hpacks h.current
        (h.plans recallResult hrecall)]

/-! ## The evaluation -/

/-- What the evaluation record reads, beside the stages. -/
structure EvaluationReading (input input' : DecisionGraphInput) : Prop where
  versions : input.versions = input'.versions
  removed : input.removedPrivateFactIds = input'.removedPrivateFactIds
  artifacts : frozenArtifacts input = frozenArtifacts input'

theorem evaluateDecisionGraphOnce_congr (h : PipelineReading rt input input')
    (he : EvaluationReading input input') (evaluationId : String) (generatedAt : Datetime) :
    evaluateDecisionGraphOnce rt input evaluationId generatedAt =
      evaluateDecisionGraphOnce rt input' evaluationId generatedAt := by
  have hcandidates : input.candidates.length = input'.candidates.length :=
    h.recallResult.candidates_perm.length_eq
  have hactions : input.currentActions.length = input'.currentActions.length := by
    simpa [currentMaterials] using congrArg List.length h.current
  have hprovisional : ∀ pipeline inputHashes,
      provisionalEvaluation input pipeline inputHashes evaluationId generatedAt =
        provisionalEvaluation input' pipeline inputHashes evaluationId generatedAt := by
    intro pipeline inputHashes
    unfold provisionalEvaluation evaluationCoverage
    rw [he.versions, he.removed, h.pair.evaluatedAt, hcandidates, hactions]
  unfold evaluateDecisionGraphOnce frozenInputHashes
  simp only [runPipeline_congr h, he.artifacts, hprovisional]

end DecisionEngine
