-- SUMMARY: Recalled identities: the records they merge, the representatives they leave, and the plans built from them.
import SiraSeil.DecisionEngine.Selection

/-!
# Identities

Recall merges the records of one identity into one representative, and every
representative is the root of one bundle. This file follows an identity from
its records to its plan: nothing that a merged record cites is lost, and the
last component of the plan is the product of the identity.
-/

namespace DecisionEngine

open Domain Sorting Raising

variable {rt : Runtime} {input : DecisionGraphInput}

/-! ## Groups and representatives -/

/-- The record stands for the identity. -/
structure Represents (identity : IdentityRecord) (root : RawCandidateRecord) : Prop where
  recordId : root.recordId = identity.canonicalId
  sellerId : root.sellerId = identity.sellerId
  productId : root.productId = identity.productId
  edition : root.edition = identity.edition
  region : root.region = identity.region

theorem factPairs_mergeFacts {records : List RawCandidateRecord} {componentId : String}
    {facts : List ProductFact} (h : mergeFacts rt records componentId = .ok facts)
    {r : RawCandidateRecord} (hr : r ∈ records) : factPairs r.facts ⊆ factPairs facts := by
  intro pair hpair
  obtain ⟨fact, hfact, hcited⟩ := List.mem_flatMap.mp hpair
  obtain ⟨id, hid, rfl⟩ := List.mem_map.mp hcited
  unfold mergeFacts at h
  obtain ⟨hashed, hhashed, h⟩ := bind_eq_ok.mp h
  obtain ⟨own, hown, hhash⟩ := exists_of_mapM_eq_ok hhashed
    (List.mem_flatMap.mpr ⟨r, hr, hfact⟩)
  unfold hashFact at hhash
  obtain ⟨hash, -, hhash⟩ := bind_eq_ok.mp hhash
  obtain rfl := pure_eq_ok.mp hhash
  -- The fact is merged under its own key, with the evidence of all facts of that key.
  obtain ⟨merged, hmerged, hnew⟩ := exists_of_mapM_eq_ok h
    (mem_sortedSet.mpr (List.mem_map_of_mem hown))
  obtain ⟨value, -, hnew⟩ := bind_eq_ok.mp hnew
  have hdata := ProductFact.new_eq_ok hnew
  have hfield : merged.field = fact.field := by
    rw [hdata]
    rfl
  have hevidence : id ∈ merged.evidenceIds.items := by
    rw [hdata, SortedTuple.mem_items_of]
    refine List.mem_flatMap.mpr ⟨_, List.mem_filter.mpr ⟨hown, ?_⟩, hid⟩
    exact decide_eq_true rfl
  refine List.mem_flatMap.mpr ⟨merged, hmerged, List.mem_map.mpr ⟨id, hevidence, ?_⟩⟩
  rw [hfield]

/-- What the merged group keeps of its records. -/
structure MergedFrom (group : List RawCandidateRecord) (merged : MergedGroup) : Prop where
  represents : Represents merged.identity merged.representative
  recordIds : merged.identity.recordIds = group.map (·.recordId)
  pairs : ∀ r ∈ group, factPairs r.facts ⊆ factPairs merged.representative.facts

theorem mergedFrom_of_mergeGroup {aliases : Dict String String} {key : IdentityKey}
    {first : RawCandidateRecord} {rest : List RawCandidateRecord} {merged : MergedGroup}
    (h : mergeGroup rt aliases key first rest = .ok merged) :
    MergedFrom (first :: rest) merged := by
  unfold mergeGroup at h
  obtain ⟨id, -, h⟩ := bind_eq_ok.mp h
  obtain ⟨offerIds, -, h⟩ := bind_eq_ok.mp h
  obtain ⟨root, hroot, h⟩ := bind_eq_ok.mp h
  obtain rfl := pure_eq_ok.mp h
  unfold representative at hroot
  obtain ⟨offerId, -, hroot⟩ := bind_eq_ok.mp hroot
  obtain ⟨facts, hfacts, hroot⟩ := bind_eq_ok.mp hroot
  have hdata := RawCandidateRecord.new_eq_ok hroot
  refine ⟨⟨?_, ?_, ?_, ?_, ?_⟩, rfl, fun r hr => ?_⟩
  · exact congrArg RawCandidateData.recordId hdata
  · exact congrArg RawCandidateData.sellerId hdata
  · exact congrArg RawCandidateData.productId hdata
  · exact congrArg RawCandidateData.edition hdata
  · exact congrArg RawCandidateData.region hdata
  · have hmerged : root.facts = facts := congrArg RawCandidateData.facts hdata
    show factPairs r.facts ⊆ factPairs root.facts
    rw [hmerged]
    exact factPairs_mergeFacts hfacts hr

theorem recallRecord_kept {record r : RawCandidateRecord} {key : IdentityKey}
    (h : recallRecord rt input record = .ok (.kept key r)) : r = record := by
  unfold recallRecord at h
  obtain ⟨exclusion, -, h⟩ := bind_eq_ok.mp h
  cases exclusion with
  | some exclusion => cases pure_eq_ok.mp h
  | none =>
    obtain ⟨key', -, h⟩ := bind_eq_ok.mp h
    cases pure_eq_ok.mp h
    rfl

theorem recallAndDeduplicate_groups {recallResult : RecallResult}
    (h : recallAndDeduplicate rt input = .ok recallResult) :
    ∃ groups : List MergedGroup, recallResult.identities = groups.map (·.identity) ∧
      recallResult.representatives = sortedBy (·.recordId) (groups.map (·.representative)) ∧
      ∀ merged ∈ groups, ∃ group ⊆ input.candidates, MergedFrom group merged := by
  unfold recallAndDeduplicate at h
  obtain ⟨recalled, hrecalled, h⟩ := bind_eq_ok.mp h
  obtain ⟨groups, hgroups, h⟩ := bind_eq_ok.mp h
  obtain rfl := pure_eq_ok.mp h
  refine ⟨groups, rfl, rfl, fun merged hmerged => ?_⟩
  obtain ⟨key, -, hmerge⟩ := (mem_of_mapM_eq_ok hgroups).mp hmerged
  split at hmerge
  · rename_i first rest hgroup
    refine ⟨first :: rest, fun r hr => ?_, mergedFrom_of_mergeGroup hmerge⟩
    rw [← hgroup] at hr
    obtain ⟨⟨key', r'⟩, hkept, rfl⟩ := List.mem_map.mp (mem_sortedBy.mp hr)
    obtain ⟨outcome, houtcome, hsome⟩ := List.mem_filterMap.mp (List.mem_of_mem_filter hkept)
    cases outcome with
    | excluded exclusion => cases hsome
    | kept key'' record =>
      cases hsome
      obtain ⟨candidate, hcandidate, hrun⟩ := (mem_of_mapM_eq_ok hrecalled).mp houtcome
      rw [recallRecord_kept hrun]
      exact mem_sortedBy.mp hcandidate
  · cases hmerge

section Recall

variable {recallResult : RecallResult} (h : recallAndDeduplicate rt input = .ok recallResult)
include h

theorem exists_representative {identity : IdentityRecord}
    (hidentity : identity ∈ recallResult.identities) :
    ∃ root ∈ recallResult.representatives, Represents identity root := by
  obtain ⟨groups, hidentities, hrepresentatives, hmerged⟩ := recallAndDeduplicate_groups h
  rw [hidentities] at hidentity
  obtain ⟨merged, hin, rfl⟩ := List.mem_map.mp hidentity
  obtain ⟨group, -, hfrom⟩ := hmerged merged hin
  refine ⟨merged.representative, ?_, hfrom.represents⟩
  rw [hrepresentatives]
  exact mem_sortedBy.mpr (List.mem_map_of_mem hin)

theorem exists_identity {root : RawCandidateRecord} (hroot : root ∈ recallResult.representatives) :
    ∃ identity ∈ recallResult.identities, Represents identity root := by
  obtain ⟨groups, hidentities, hrepresentatives, hmerged⟩ := recallAndDeduplicate_groups h
  rw [hrepresentatives] at hroot
  obtain ⟨merged, hin, rfl⟩ := List.mem_map.mp (mem_sortedBy.mp hroot)
  obtain ⟨group, -, hfrom⟩ := hmerged merged hin
  refine ⟨merged.identity, ?_, hfrom.represents⟩
  rw [hidentities]
  exact List.mem_map_of_mem hin

theorem recalled_pairs {candidate : RawCandidateRecord} (hcandidate : candidate ∈ input.candidates)
    (hrecalled : candidate.recordId ∈ recallResult.identities.flatMap (·.recordIds)) :
    factPairs candidate.facts ⊆
      recallResult.representatives.flatMap (fun r => factPairs r.facts) := by
  obtain ⟨groups, hidentities, hrepresentatives, hmerged⟩ := recallAndDeduplicate_groups h
  rw [hidentities] at hrecalled
  obtain ⟨identity, hidentity, hid⟩ := List.mem_flatMap.mp hrecalled
  obtain ⟨merged, hin, rfl⟩ := List.mem_map.mp hidentity
  obtain ⟨group, hsub, hfrom⟩ := hmerged merged hin
  rw [hfrom.recordIds] at hid
  obtain ⟨r, hr, hsame⟩ := List.mem_map.mp hid
  obtain rfl : r = candidate :=
    List.inj_on_of_nodup_map input.candidates_nodup (hsub hr) hcandidate hsame
  intro pair hpair
  refine List.mem_flatMap.mpr ⟨merged.representative, ?_, hfrom.pairs r hr hpair⟩
  rw [hrepresentatives]
  exact mem_sortedBy.mpr (List.mem_map_of_mem hin)

end Recall

/-! ## The bundle of an identity -/

theorem getLast?_closure (representatives : List RawCandidateRecord) (root : RawCandidateRecord) :
    (closure representatives root).1.getLast? = some root := by
  unfold closure visit
  simp [ClosureState.finish]

theorem getLast?_bundleIds (representatives : List RawCandidateRecord)
    (root : RawCandidateRecord) :
    (bundleIds representatives root).getLast? = some root.productId := by
  unfold bundleIds
  rw [List.getLast?_map, getLast?_closure]
  rfl

theorem Represents.withCanonicalOffer {identity : IdentityRecord} {r root : RawCandidateRecord}
    (h : Represents identity r) (hroot : withCanonicalOffer rt input r = .ok root) :
    Represents identity root := by
  have hdata := RawCandidateRecord.new_eq_ok hroot
  constructor
  · rw [hdata]
    exact h.recordId
  · rw [hdata]
    exact h.sellerId
  · rw [hdata]
    exact h.productId
  · rw [hdata]
    exact h.edition
  · rw [hdata]
    exact h.region

/-- The plan was built from the bundle whose root stands for the identity. -/
structure BuiltFromIdentity (rt : Runtime) (input : DecisionGraphInput)
    (assessments : List EvidenceAssessment) (identity : IdentityRecord) (plan : EvaluatedPlan) :
    Prop where
  bundle : ∃ representatives, packRepresentatives rt input = .ok representatives ∧
    ∃ root ∈ representatives, Represents identity root ∧
      ∃ material, packMaterial rt input (offerIndex rt input) representatives root = .ok material ∧
        BuiltFrom rt input assessments material plan

theorem BuiltFromIdentity.getLast?_components {assessments : List EvidenceAssessment}
    {identity : IdentityRecord} {plan : EvaluatedPlan}
    (h : BuiltFromIdentity rt input assessments identity plan) :
    plan.components.getLast? = some ⟨identity.productId, .pack, .replace⟩ := by
  obtain ⟨representatives, -, root, -, hrepresents, material, hmaterial, hbuilt⟩ := h.bundle
  obtain ⟨haction, hids⟩ := Prod.mk.inj (identity_packMaterial hmaterial)
  rw [hbuilt.components, (packMaterial_source hmaterial).2, haction, hids, List.getLast?_map,
    getLast?_bundleIds, ← hrepresents.productId]
  rfl

section Evaluation

variable {evaluationId : String} {generatedAt : Datetime} {evaluation : DecisionGraphEvaluation}
  (h : evaluateDecisionGraphOnce rt input evaluationId generatedAt = .ok evaluation)
include h

theorem exists_recall : ∃ recallResult, recallAndDeduplicate rt input = .ok recallResult ∧
    evaluation.identityRecords = recallResult.identities ∧
    assessEvidence rt input recallResult = .ok evaluation.evidenceAssessments := by
  obtain ⟨pipeline, hpipeline, inputHashes, -, payload, -, hash, -, rfl⟩ :=
    evaluateDecisionGraphOnce_eq_ok.mp h
  obtain ⟨hrecall, hassessments, -⟩ := runPipeline_eq_ok hpipeline
  exact ⟨pipeline.recallResult, hrecall, rfl, hassessments⟩

theorem exists_plan_builtFrom {recallResult : RecallResult} {materials : List PlanMaterial}
    (hrecall : recallAndDeduplicate rt input = .ok recallResult)
    (hmaterials : planMaterials rt input recallResult = .ok materials) {material : PlanMaterial}
    (hmem : material ∈ materials) :
    ∃ plan ∈ evaluation.plans,
      BuiltFrom rt input evaluation.evidenceAssessments material plan := by
  obtain ⟨pipeline, hpipeline, inputHashes, -, payload, -, hash, -, rfl⟩ :=
    evaluateDecisionGraphOnce_eq_ok.mp h
  obtain ⟨hrecall', -, built, hbuilt, -, hplaced⟩ := runPipeline_eq_ok hpipeline
  obtain rfl : recallResult = pipeline.recallResult := Except.ok.inj (hrecall.symm.trans hrecall')
  unfold buildSolutionPlans at hbuilt
  rw [hmaterials, ok_bind] at hbuilt
  obtain ⟨bare, hbare, hbuild⟩ := exists_of_mapM_eq_ok hbuilt (mem_sortedBy.mpr hmem)
  refine ⟨bare.placed pipeline.ranking, ?_, (builtFrom_of_buildPlan hbuild).placed _⟩
  show bare.placed pipeline.ranking ∈ pipeline.plans
  rw [hplaced]
  exact List.mem_map_of_mem hbare

theorem exists_plan_of_identity {identity : IdentityRecord}
    (hidentity : identity ∈ evaluation.identityRecords) :
    ∃ plan ∈ evaluation.plans,
      BuiltFromIdentity rt input evaluation.evidenceAssessments identity plan := by
  obtain ⟨recallResult, hrecall, hidentities, -⟩ := exists_recall h
  obtain ⟨recallResult', hrecall', materials, hmaterials, -⟩ := plans_builtFrom h
  obtain rfl : recallResult' = recallResult := Except.ok.inj (hrecall'.symm.trans hrecall)
  rw [hidentities] at hidentity
  obtain ⟨r, hr, hrepresents⟩ := exists_representative hrecall hidentity
  obtain ⟨representatives, hpacks, packs, hmaterial, rfl⟩ := planMaterials_eq_ok hrecall hmaterials
  have hoffers := hpacks
  unfold packRepresentatives at hoffers
  rw [hrecall, ok_bind] at hoffers
  obtain ⟨root, hroot, hoffer⟩ := exists_of_mapM_eq_ok hoffers hr
  obtain ⟨material, hin, hpack⟩ := exists_of_mapM_eq_ok hmaterial hroot
  obtain ⟨plan, hplan, hbuilt⟩ := exists_plan_builtFrom h hrecall hmaterials
    (List.mem_append_left _ hin)
  exact ⟨plan, hplan, ⟨representatives, hpacks, root, hroot, hrepresents.withCanonicalOffer hoffer,
    material, hpack, hbuilt⟩⟩

theorem plan_source {plan : EvaluatedPlan} (hplan : plan ∈ evaluation.plans) :
    (∃ identity ∈ evaluation.identityRecords,
      BuiltFromIdentity rt input evaluation.evidenceAssessments identity plan) ∨
    ∃ item ∈ input.currentActions,
      BuiltFrom rt input evaluation.evidenceAssessments (currentMaterial item) plan := by
  obtain ⟨recallResult, hrecall, hidentities, -⟩ := exists_recall h
  obtain ⟨recallResult', hrecall', materials, hmaterials, hplans⟩ := plans_builtFrom h
  obtain rfl : recallResult' = recallResult := Except.ok.inj (hrecall'.symm.trans hrecall)
  obtain ⟨material, hmaterial, hbuilt⟩ := hplans plan hplan
  rcases mem_planMaterials hrecall hmaterials hmaterial with
    ⟨item, hitem, rfl⟩ | ⟨representatives, hpacks, root, hroot, hpack⟩
  · exact Or.inr ⟨item, hitem, hbuilt⟩
  · have hoffers := hpacks
    unfold packRepresentatives at hoffers
    rw [hrecall, ok_bind] at hoffers
    obtain ⟨r, hr, hoffer⟩ := (mem_of_mapM_eq_ok hoffers).mp hroot
    obtain ⟨identity, hidentity, hrepresents⟩ := exists_identity hrecall hr
    rw [hidentities]
    exact Or.inl ⟨identity, hidentity, ⟨representatives, hpacks, root, hroot,
      hrepresents.withCanonicalOffer hoffer, material, hpack, hbuilt⟩⟩

theorem exists_assessment {candidate : RawCandidateRecord}
    (hcandidate : candidate ∈ input.candidates)
    (hrecalled : candidate.recordId ∈ evaluation.identityRecords.flatMap (·.recordIds))
    {pair : EvidencePair} (hpair : pair ∈ factPairs candidate.facts) :
    ∃ a, (assessmentIndex evaluation.evidenceAssessments).get? pair = some a := by
  obtain ⟨recallResult, hrecall, hidentities, hassess⟩ := exists_recall h
  rw [hidentities] at hrecalled
  have hcited : pair ∈ evidencePairs input recallResult := by
    unfold evidencePairs
    refine List.mem_append_left _ (List.mem_append_left _ ?_)
    exact recalled_pairs hrecall hcandidate hrecalled hpair
  obtain ⟨a, ha, hown⟩ := exists_of_mapM_eq_ok hassess (mem_sortedSet.mpr hcited)
  cases hget : (assessmentIndex evaluation.evidenceAssessments).get? pair with
  | some a => exact ⟨a, rfl⟩
  | none =>
    refine absurd ?_ (Dict.get?_eq_none_iff.mp hget)
    refine Dict.mem_keys_ofList.mpr (List.mem_map.mpr ⟨_, List.mem_map_of_mem ha, ?_⟩)
    exact assessPair_pair hown

end Evaluation

end DecisionEngine
