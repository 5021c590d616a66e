-- SUMMARY: Conflicts are absorbing: further records of an identity cannot bring a field out of conflict, nor the gates that read it.
import SiraSeil.DecisionEngine.Bundles
import SiraSeil.Domain.Digests
import SiraSeil.DecisionEngine.Partition
import SiraSeil.DecisionEngine.Selection
import Mathlib.Data.Finset.Card

/-!
# Conflicts

A field is in conflict when one of its evidence records is disputed or revoked,
or when two of its values differ. Both grow with the records of an identity:
merging keeps every value and every evidence id. The landed total is the one
field whose facts a plan replaces, by the cost of its offer.
-/

namespace DecisionEngine

open Domain Sorting Raising

variable {rt : Runtime} {input : DecisionGraphInput}

/-! ## Fields in conflict -/

/-- The facts put the field in the state CONFLICT. -/
def InConflict (rt : Runtime) (facts : List ProductFact) (field : String)
    (index : AssessmentIndex) : Prop :=
  ∃ state, fieldState rt facts field index = .ok state ∧ state.state = .conflict

/-- Some evidence of the field is disputed or revoked. -/
def DisputedField (facts : List ProductFact) (field : String) (index : AssessmentIndex) : Prop :=
  ∃ fact ∈ facts, fact.field = field ∧ ∃ id ∈ fact.evidenceIds.items,
    ∃ a, index.get? (toLex (id, field)) = some a ∧ a.state = .conflict

/-- The field has two values, as far as their hashes tell. -/
def TwoValued (rt : Runtime) (facts : List ProductFact) (field : String) : Prop :=
  ∃ fact ∈ facts, ∃ fact' ∈ facts, fact.field = field ∧ fact'.field = field ∧
    valueHash rt fact.value ≠ valueHash rt fact'.value

variable {facts : List ProductFact} {field : String}

theorem fieldState_congr {facts' : List ProductFact} {index : AssessmentIndex}
    (h : facts.filter (fun fact => fact.field = field) =
      facts'.filter (fun fact => fact.field = field)) :
    fieldState rt facts field index = fieldState rt facts' field index := by
  unfold fieldState
  rw [h]

theorem one_lt_distinctValues {values : List FactValue} (h : distinctValues rt facts = .ok values) :
    1 < values.length ↔ ∃ fact ∈ facts, ∃ fact' ∈ facts,
      valueHash rt fact.value ≠ valueHash rt fact'.value := by
  unfold distinctValues at h
  obtain ⟨hashed, hhashed, hvalues⟩ := bind_eq_ok.mp h
  obtain rfl := pure_eq_ok.mp hvalues
  have hkeys : ∀ hash, hash ∈ (Dict.ofList hashed).items.map Prod.fst ↔
      ∃ fact ∈ facts, valueHash rt fact.value = .ok hash := by
    intro hash
    rw [Dict.mem_keys_ofList, List.mem_map]
    constructor
    · rintro ⟨entry, hentry, rfl⟩
      obtain ⟨fact, hfact, hrun⟩ := (mem_of_mapM_eq_ok hhashed).mp hentry
      obtain ⟨hash, hhash, hrun⟩ := bind_eq_ok.mp hrun
      rw [← pure_eq_ok.mp hrun]
      exact ⟨fact, hfact, hhash⟩
    · rintro ⟨fact, hfact, hhash⟩
      obtain ⟨entry, hentry, hrun⟩ := exists_of_mapM_eq_ok hhashed hfact
      obtain ⟨hash', hhash', hrun⟩ := bind_eq_ok.mp hrun
      refine ⟨entry, hentry, ?_⟩
      rw [← pure_eq_ok.mp hrun]
      exact Except.ok.inj (hhash'.symm.trans hhash)
  rw [List.length_map, Dict.sortedItems, length_sortedBy, ← List.length_map (f := Prod.fst),
    ← List.toFinset_card_of_nodup (Dict.ofList hashed).nodup, Finset.one_lt_card]
  simp only [List.mem_toFinset, hkeys]
  constructor
  · rintro ⟨hash, ⟨fact, hfact, hhash⟩, hash', ⟨fact', hfact', hhash'⟩, hne⟩
    refine ⟨fact, hfact, fact', hfact', ?_⟩
    rw [hhash, hhash']
    exact fun heq => hne (Except.ok.inj heq)
  · rintro ⟨fact, hfact, fact', hfact', hne⟩
    obtain ⟨entry, -, hrun⟩ := exists_of_mapM_eq_ok hhashed hfact
    obtain ⟨entry', -, hrun'⟩ := exists_of_mapM_eq_ok hhashed hfact'
    obtain ⟨hash, hhash, -⟩ := bind_eq_ok.mp hrun
    obtain ⟨hash', hhash', -⟩ := bind_eq_ok.mp hrun'
    refine ⟨hash, ⟨fact, hfact, hhash⟩, hash', ⟨fact', hfact', hhash'⟩, fun heq => hne ?_⟩
    rw [heq] at hhash
    exact hhash.trans hhash'.symm

theorem exists_distinctValues (h : ∀ fact ∈ facts, ∃ hash, valueHash rt fact.value = .ok hash) :
    ∃ values, distinctValues rt facts = .ok values := by
  obtain ⟨hashed, hhashed⟩ := exists_mapM_eq_ok
    (f := fun fact : ProductFact => (do
      return (← contentHash rt fact.value.toValue, fact.value) : Py (String × FactValue)))
    (l := facts) (fun fact hfact => by
      obtain ⟨hash, hhash⟩ : ∃ hash, contentHash rt fact.value.toValue = .ok hash := h fact hfact
      rw [hhash, ok_bind]
      exact ⟨_, rfl⟩)
  unfold distinctValues
  rw [hhashed, ok_bind]
  exact ⟨_, rfl⟩

theorem combinedState_eq_conflict {states : List EvidenceState} {conflicting : Bool} :
    combinedState states conflicting = .conflict ↔ .conflict ∈ states ∨ conflicting = true := by
  unfold combinedState
  split_ifs <;> simp_all

theorem inConflict_iff {index : AssessmentIndex}
    (hhashed : ∀ fact ∈ facts, ∃ hash, valueHash rt fact.value = .ok hash) :
    InConflict rt facts field index ↔
      DisputedField facts field index ∨ TwoValued rt facts field := by
  have hmatching : ∀ fact, fact ∈ facts.filter (fun fact => fact.field = field) ↔
      fact ∈ facts ∧ fact.field = field := by
    intro fact
    rw [List.mem_filter, decide_eq_true_eq]
  obtain ⟨values, hvalues⟩ : ∃ values,
      distinctValues rt (facts.filter (fun fact => fact.field = field)) = .ok values :=
    exists_distinctValues (fun fact hfact => hhashed fact ((hmatching fact).mp hfact).1)
  have htwo : 1 < values.length ↔ TwoValued rt facts field := by
    rw [one_lt_distinctValues hvalues]
    unfold TwoValued
    simp only [hmatching]
    constructor
    · rintro ⟨fact, ⟨hfact, hfield⟩, fact', ⟨hfact', hfield'⟩, hne⟩
      exact ⟨fact, hfact, fact', hfact', hfield, hfield', hne⟩
    · rintro ⟨fact, hfact, fact', hfact', hfield, hfield', hne⟩
      exact ⟨fact, ⟨hfact, hfield⟩, fact', ⟨hfact', hfield'⟩, hne⟩
  have hdisputed : .conflict ∈ (assessmentsFor index (sortedSet
        ((facts.filter (fun fact => fact.field = field)).flatMap (·.evidenceIds.items)))
        field).map (·.state) ↔ DisputedField facts field index := by
    unfold assessmentsFor DisputedField
    simp only [List.mem_map, List.mem_filterMap, mem_sortedSet, List.mem_flatMap, hmatching]
    constructor
    · rintro ⟨a, ⟨id, ⟨fact, ⟨hfact, hfield⟩, hid⟩, hget⟩, hstate⟩
      exact ⟨fact, hfact, hfield, id, hid, a, hget, hstate⟩
    · rintro ⟨fact, hfact, hfield, id, hid, a, hget, hstate⟩
      exact ⟨a, ⟨id, ⟨fact, ⟨hfact, hfield⟩, hid⟩, hget⟩, hstate⟩
  rw [← hdisputed, ← htwo]
  unfold InConflict fieldState
  dsimp only
  split
  · -- Without facts the field is unknown, and neither side holds.
    rename_i hempty
    rw [List.isEmpty_iff] at hempty
    rw [hempty] at hvalues ⊢
    have hnone : ¬ 1 < values.length := by
      rw [one_lt_distinctValues hvalues]
      simp
    simp [hnone, assessmentsFor]
  · rw [hvalues, ok_bind]
    simp only [pure_eq_ok, exists_eq_left', combinedState_eq_conflict,
      decide_eq_true_eq]

/-! ## Assessments -/

theorem get?_assessmentIndex_eq_some {recallResult : RecallResult}
    {assessments : List EvidenceAssessment}
    (h : assessEvidence rt input recallResult = .ok assessments) {pair : EvidencePair}
    {a : EvidenceAssessment} :
    (assessmentIndex assessments).get? pair = some a ↔
      pair ∈ evidencePairs input recallResult ∧ assessPair rt input pair = .ok a := by
  have hown : ∀ b ∈ assessments, ∃ own ∈ evidencePairs input recallResult,
      assessPair rt input own = .ok b ∧ toLex (b.evidenceId, b.field) = own := by
    intro b hb
    obtain ⟨own, hin, hrun⟩ := (mem_of_mapM_eq_ok h).mp hb
    exact ⟨own, mem_sortedSet.mp hin, hrun, assessPair_pair hrun⟩
  constructor
  · intro hget
    obtain ⟨b, hb, heq⟩ := List.mem_map.mp (Dict.mem_of_get?_ofList hget)
    obtain ⟨hkey, rfl⟩ := Prod.mk.inj heq
    obtain ⟨own, hin, hrun, hpair⟩ := hown b hb
    rw [← hkey, hpair]
    exact ⟨hin, hrun⟩
  · rintro ⟨hin, hrun⟩
    obtain ⟨b, hb, hrun'⟩ := exists_of_mapM_eq_ok h (mem_sortedSet.mpr hin)
    obtain rfl : b = a := Except.ok.inj (hrun'.symm.trans hrun)
    refine (Dict.get?_ofList_eq_some_iff ?_).mpr ?_
    · -- Two assessments of one pair are the same one.
      intro p hp q hq hpk hqk
      obtain ⟨b, hb, rfl⟩ := List.mem_map.mp hp
      obtain ⟨c, hc, rfl⟩ := List.mem_map.mp hq
      obtain ⟨own, -, hrunb, hpairb⟩ := hown b hb
      obtain ⟨own', -, hrunc, hpairc⟩ := hown c hc
      obtain rfl : own = own' := hpairb.symm.trans (hpk.trans (hqk.symm.trans hpairc))
      exact Except.ok.inj (hrunb.symm.trans hrunc)
    · refine List.mem_map.mpr ⟨b, hb, ?_⟩
      rw [assessPair_pair hrun]

/-! ## Further records -/

/-- Merging more facts keeps a field in conflict, as long as the evidence it cites is
    assessed as before. -/
theorem MergedFacts.inConflict {own own' merged merged' : List ProductFact}
    {componentId componentId' : String} {index index' : AssessmentIndex}
    (h : MergedFacts rt own merged componentId) (h' : MergedFacts rt own' merged' componentId')
    (hsub : own ⊆ own')
    (hindex : ∀ fact ∈ merged', fact.field = field → ∀ id ∈ fact.evidenceIds.items,
      ∀ a, index.get? (toLex (id, field)) = some a → index'.get? (toLex (id, field)) = some a)
    (hconflict : InConflict rt merged field index) : InConflict rt merged' field index' := by
  have hhashed : ∀ {own merged : List ProductFact} {componentId : String},
      MergedFacts rt own merged componentId →
        ∀ fact ∈ merged, ∃ hash, valueHash rt fact.value = .ok hash := by
    intro own merged componentId h fact hfact
    obtain ⟨part, hpart, -, hvalue⟩ := h.source fact hfact
    rw [← hvalue]
    exact h.hashed part hpart
  -- Every merged fact reappears under its hash.
  have hagain : ∀ fact ∈ merged, ∃ fact' ∈ merged', fact'.field = fact.field ∧
      valueHash rt fact'.value = valueHash rt fact.value := by
    intro fact hfact
    obtain ⟨part, hpart, hfield, hvalue⟩ := h.source fact hfact
    obtain ⟨fact', hfact', hfield', hhash⟩ := h'.covers part (hsub hpart)
    rw [hvalue] at hhash
    exact ⟨fact', hfact', hfield'.trans hfield, hhash⟩
  rw [inConflict_iff (hhashed h')]
  rcases (inConflict_iff (hhashed h)).mp hconflict with hdisputed | htwo
  · obtain ⟨fact, hfact, hfield, id, hid, a, hget, hstate⟩ := hdisputed
    obtain ⟨part, hpart, hpartField, hpartHash, hpartId⟩ := (h.evidence fact hfact id).mp hid
    obtain ⟨fact', hfact', hfield', hhash⟩ := hagain fact hfact
    have hid' : id ∈ fact'.evidenceIds.items := (h'.evidence fact' hfact' id).mpr
      ⟨part, hsub hpart, hpartField.trans hfield'.symm, hpartHash.trans hhash.symm, hpartId⟩
    have hfield'' : fact'.field = field := hfield'.trans hfield
    exact Or.inl ⟨fact', hfact', hfield'', id, hid', a, hindex fact' hfact' hfield'' id hid' a hget,
      hstate⟩
  · obtain ⟨first, hfirst, second, hsecond, hfield, hfield', hne⟩ := htwo
    obtain ⟨first', hfirst', hsame, hhash⟩ := hagain first hfirst
    obtain ⟨second', hsecond', hsame', hhash'⟩ := hagain second hsecond
    refine Or.inr ⟨first', hfirst', second', hsecond', hsame.trans hfield, hsame'.trans hfield', ?_⟩
    rw [hhash, hhash']
    exact hne

/-- The identity that a representative stands for. -/
def RawCandidateRecord.key (record : RawCandidateRecord) : IdentityKey :=
  .mk record.sellerId record.productId record.edition record.region

/-- The key of an identity record. -/
def IdentityRecord.key (identity : IdentityRecord) : IdentityKey :=
  .mk identity.sellerId identity.productId identity.edition identity.region

theorem Represents.key {identity : IdentityRecord} {root : RawCandidateRecord}
    (h : Represents identity root) : identity.key = root.key := by
  unfold IdentityRecord.key RawCandidateRecord.key
  rw [h.sellerId, h.productId, h.edition, h.region]

theorem StandsFor.key {aliases : Dict String String} {key : IdentityKey}
    {group : List RawCandidateRecord} {root : RawCandidateRecord}
    (h : StandsFor rt aliases key group root) : root.key = key := by
  unfold RawCandidateRecord.key
  rw [h.sellerId, h.productId, h.edition, h.region]
  rfl

theorem exists_group {recallResult : RecallResult}
    (h : recallAndDeduplicate rt input = .ok recallResult)
    {root : RawCandidateRecord} (hroot : root ∈ recallResult.representatives) :
    ∃ group, StandsFor rt (aliasMap input) root.key group root ∧
      ∀ r, r ∈ group ↔ r ∈ input.candidates ∧ NotExcluded rt input r ∧
        identityKey rt r (aliasMap input) = .ok root.key := by
  obtain ⟨groups, -, hrepresentatives, hgroups, -⟩ := exists_mergedRecords h
  rw [hrepresentatives] at hroot
  obtain ⟨merged, hmerged, rfl⟩ := List.mem_map.mp (mem_sortedBy.mp hroot)
  obtain ⟨key, group, hrecords⟩ := hgroups merged hmerged
  obtain rfl := hrecords.stands.key
  exact ⟨group, hrecords.stands, hrecords.mem_group⟩

section Added

variable {added : List RawCandidateRecord}
  {hnodup : ((input.candidates ++ added).map (·.recordId)).Nodup}
  {recallResult recallResult' : RecallResult}
  (hrecall : recallAndDeduplicate rt input = .ok recallResult)
  (hrecall' : recallAndDeduplicate rt (input.withCandidates (input.candidates ++ added) hnodup) =
    .ok recallResult')
include hrecall hrecall'

theorem exists_representative_added {root : RawCandidateRecord}
    (hroot : root ∈ recallResult.representatives) :
    ∃ root' ∈ recallResult'.representatives, root'.key = root.key := by
  obtain ⟨group, hstands, hgroup⟩ := exists_group hrecall hroot
  obtain ⟨r, hr, -⟩ := hstands.authority_mem
  obtain ⟨hcandidate, hincluded, hkey⟩ := (hgroup r).mp hr
  obtain ⟨groups, -, hrepresentatives, -, hcovered⟩ := exists_mergedRecords hrecall'
  obtain ⟨merged, hmerged, key, group', hrecords, hmem⟩ :=
    hcovered r (List.mem_append_left _ hcandidate) hincluded
  refine ⟨merged.representative, ?_, ?_⟩
  · rw [hrepresentatives]
    exact mem_sortedBy.mpr (List.mem_map_of_mem hmerged)
  · rw [hrecords.stands.key]
    exact Except.ok.inj (((hrecords.mem_group r).mp hmem).2.2.symm.trans hkey)

theorem inConflict_added {assessments assessments' : List EvidenceAssessment}
    (hassess : assessEvidence rt input recallResult = .ok assessments)
    (hassess' : assessEvidence rt (input.withCandidates (input.candidates ++ added) hnodup)
      recallResult' = .ok assessments') {root root' : RawCandidateRecord}
    (hroot : root ∈ recallResult.representatives) (hroot' : root' ∈ recallResult'.representatives)
    (hkey : root'.key = root.key) {field : String}
    (hconflict : InConflict rt root.facts field (assessmentIndex assessments)) :
    InConflict rt root'.facts field (assessmentIndex assessments') := by
  obtain ⟨group, hstands, hgroup⟩ := exists_group hrecall hroot
  obtain ⟨group', hstands', hgroup'⟩ := exists_group hrecall' hroot'
  refine hstands.facts.inConflict hstands'.facts ?_ ?_ hconflict
  · intro fact hfact
    obtain ⟨r, hr, hmem⟩ := List.mem_flatMap.mp hfact
    obtain ⟨hcandidate, hincluded, hown⟩ := (hgroup r).mp hr
    rw [← hkey] at hown
    exact List.mem_flatMap.mpr
      ⟨r, (hgroup' r).mpr ⟨List.mem_append_left _ hcandidate, hincluded, hown⟩, hmem⟩
  · intro fact hfact hfield id hid a hget
    refine (get?_assessmentIndex_eq_some hassess').mpr
      ⟨?_, ((get?_assessmentIndex_eq_some hassess).mp hget).2⟩
    refine List.mem_append_left _ (List.mem_append_left _ (List.mem_flatMap.mpr
      ⟨root', hroot', List.mem_flatMap.mpr ⟨fact, hfact, List.mem_map.mpr ⟨id, hid, ?_⟩⟩⟩))
    rw [hfield]

end Added

/-! ## Gates and ranking -/

section Gates

variable {gate : GateRule} {material : PlanMaterial} {values : Dict String FactValue}
  {index : AssessmentIndex} {predicate : Predicate}

/-- A buyer gate that reads a field in conflict has the truth CONFLICT, and leaves a
    reason that keeps its plan from being ranked. -/
theorem evaluateGate_inConflict {result : GateResult} (hbuyer : gate.isSeller = false)
    (hpredicate : predicate ∈ gate.predicates) {componentId : String}
    (hsingle : material.componentIds = [componentId])
    (hconflict : InConflict rt material.gateFacts predicate.field index)
    (h : evaluateGate rt gate material values index = .ok result) :
    result.truth = .conflict ∧ ∃ reason ∈ result.reasons, reason.status.rankable = false := by
  obtain ⟨state, hstate, hstateConflict⟩ := hconflict
  have hstates : componentFieldStates rt material predicate.field index = .ok [state] := by
    unfold componentFieldStates componentGateFacts
    rw [hsingle]
    simp [hstate]
  have hconflicts : GateConflicts rt gate material values index :=
    Or.inr ⟨predicate, hpredicate, .conflicting hbuyer hstates
      ⟨state, List.mem_singleton_self state, hstateConflict⟩⟩
  obtain ⟨trace, hspec, htruth, hreasons⟩ := evaluateGate_trace h
  constructor
  · rw [htruth]
    unfold gateTruth
    rw [if_pos (hspec.conflict.mpr hconflicts)]
  · have hsome : trace.reasons ≠ [] := fun hnil => hspec.reasons.mp hnil (Or.inl hconflicts)
    obtain ⟨reason, hreason⟩ := List.exists_mem_of_ne_nil _ hsome
    exact ⟨reason, (hreasons reason).mpr (Or.inl hreason), hspec.blocking reason hreason⟩

end Gates

theorem field_of_costFacts {cost : OfferCost} {evidence : Ids} {ids : List String}
    {facts : List ProductFact} (h : costFacts cost evidence ids = .ok facts) :
    ∀ fact ∈ facts, fact.field = landedTotal := by
  unfold costFacts at h
  intro fact hfact
  split at h
  · cases h
    cases hfact
  · obtain ⟨id, -, hnew⟩ := (mem_of_mapM_eq_ok h).mp hfact
    exact congrArg ProductFactData.field (ProductFact.new_eq_ok hnew)

variable {offers : Dict String OfferCost} {representatives : List RawCandidateRecord}
  {root : RawCandidateRecord} {field : String}

/-- The facts that gates see of a field other than the landed total are those of the
    records of the bundle. -/
theorem filter_gateFacts_packMaterial {material : PlanMaterial}
    (h : packMaterial rt input offers representatives root = .ok material)
    (hfield : field ≠ landedTotal) :
    material.gateFacts.filter (fun fact => fact.field = field) =
      ((closure representatives root).1.flatMap (·.facts)).filter
        (fun fact => fact.field = field) := by
  unfold packMaterial at h
  simp only [bind_eq_ok, pure_eq_ok] at h
  obtain ⟨⟨cost, count, issues⟩, -, costs, hcosts, -, -, -, -, rfl⟩ := h
  have hnone : costs.filter (fun fact => fact.field = field) = [] := by
    refine List.filter_eq_nil_iff.mpr (fun fact hfact => ?_)
    rw [field_of_costFacts hcosts fact hfact, decide_eq_true_eq]
    exact hfield.symm
  rw [List.filter_append, hnone, List.append_nil, List.filter_filter]
  refine List.filter_congr (fun fact _ => ?_)
  by_cases heq : fact.field = field
  · simp [heq, hfield]
  · simp [heq]

theorem inConflict_packMaterial {material : PlanMaterial} {index : AssessmentIndex}
    (h : packMaterial rt input offers representatives root = .ok material)
    (hsingle : material.componentIds.length = 1) (hfield : field ≠ landedTotal)
    (hconflict : InConflict rt root.facts field index) :
    material.componentIds = [root.productId] ∧
      InConflict rt material.gateFacts field index := by
  have hlast := getLast?_closure representatives root
  have hids : material.componentIds = (closure representatives root).1.map (·.productId) :=
    congrArg Prod.snd (identity_packMaterial h)
  rw [hids, List.length_map] at hsingle
  obtain ⟨r, hr⟩ := List.length_eq_one_iff.mp hsingle
  rw [hr, List.getLast?_singleton] at hlast
  obtain rfl := Option.some.inj hlast
  refine ⟨by rw [hids, hr]; rfl, ?_⟩
  have hfilter := filter_gateFacts_packMaterial h hfield
  rw [hr, List.flatMap_singleton] at hfilter
  obtain ⟨state, hstate, hconflict⟩ := hconflict
  exact ⟨state, (fieldState_congr hfilter).trans hstate, hconflict⟩

/-- A gate of the buyer that reads the field and applies to plans of the action. -/
structure BuyerReads (input : DecisionGraphInput) (action : SolutionAction) (field : String)
    (gate : GateRule) : Prop where
  mem : gate ∈ input.gates
  buyer : gate.isSeller = false
  sources : sourcesActive gate.sourceFactIds (activeSourceIds input) = true
  action : actionApplies gate.appliesToActions action = true
  reads : ∃ predicate ∈ gate.predicates, predicate.field = field

theorem BuyerReads.applicable {gate : GateRule} {material : PlanMaterial}
    (h : BuyerReads input material.action field gate) : gate ∈ applicableGates input material := by
  refine List.mem_filter.mpr ⟨mem_sortedBy.mpr h.mem, ?_⟩
  unfold gateApplies
  rw [h.sources, h.action, h.buyer]
  rfl

/-- The plan cannot be ranked, and the ranked ids are those of other plans. -/
structure Unranked (evaluation : DecisionGraphEvaluation) (plan : EvaluatedPlan) : Prop where
  status : plan.status.rankable = false
  others : ∃ ranked : List EvaluatedPlan, ranked.Sublist evaluation.plans ∧
    evaluation.rankedPlanIds.Perm (ranked.map (·.planId)) ∧ plan ∉ ranked

theorem unranked_of_status {evaluationId : String} {generatedAt : Datetime}
    {evaluation : DecisionGraphEvaluation} {plan : EvaluatedPlan}
    (h : evaluateDecisionGraphOnce rt input evaluationId generatedAt = .ok evaluation)
    (hstatus : plan.status.rankable = false) : Unranked evaluation plan := by
  obtain ⟨ranked, hsub, hids, hranked⟩ := exists_ranked_plans h
  refine ⟨hstatus, ranked, hsub, hids, fun hmem => ?_⟩
  have hrankable := (hranked plan hmem).1
  rw [hstatus] at hrankable
  cases hrankable

/-- A plan of one component whose root has a field in conflict: the buyer gates that
    read the field are in conflict, and the plan has a status that is not ranked. -/
theorem BuiltFrom.inConflict {assessments : List EvidenceAssessment} {material : PlanMaterial}
    {plan : EvaluatedPlan} (h : BuiltFrom rt input assessments material plan)
    (hmaterial : packMaterial rt input offers representatives root = .ok material)
    (hsingle : plan.components.length = 1) (hfield : field ≠ landedTotal)
    (hconflict : InConflict rt root.facts field (assessmentIndex assessments)) {gate : GateRule}
    (hgate : BuyerReads input plan.action field gate) :
    (∃ result ∈ plan.gateResults, result.gateId = gate.gateId ∧ result.truth = .conflict) ∧
      plan.status.rankable = false := by
  rw [h.components, List.length_map] at hsingle
  rw [h.action] at hgate
  obtain ⟨hids, hgateFacts⟩ := inConflict_packMaterial hmaterial hsingle hfield hconflict
  obtain ⟨predicate, hpredicate, rfl⟩ := hgate.reads
  obtain ⟨result, hresult⟩ := exists_evaluateGate_of_evaluateGates h.gates hgate.applicable
  obtain ⟨htruth, reason, hreason, hblocks⟩ :=
    evaluateGate_inConflict hgate.buyer hpredicate hids hgateFacts hresult
  have hmem : result ∈ plan.gateResults := (mem_evaluateGates h.gates).mpr
    (Or.inr (Or.inr (Or.inr ⟨gate, hgate.applicable, hresult⟩)))
  refine ⟨⟨result, hmem, evaluateGate_gateId hresult, htruth⟩, ?_⟩
  rw [h.status, ← Bool.not_eq_true, primaryStatus_rankable_iff]
  intro hall
  rw [hall result hmem reason hreason] at hblocks
  cases hblocks

/-- A field that the merged facts of an identity put in conflict is in conflict after
    any further records, and so is, in the plan of that identity alone, every buyer
    gate that reads the field; the plan is not ranked. The landed total is read from
    the offer instead. -/
theorem conflicts_absorbing {added : List RawCandidateRecord}
    {hnodup : ((input.candidates ++ added).map (·.recordId)).Nodup} {recallResult : RecallResult}
    {assessments : List EvidenceAssessment} {root : RawCandidateRecord} {field : String}
    {evaluationId : String} {generatedAt : Datetime} {evaluation : DecisionGraphEvaluation}
    (hrecall : recallAndDeduplicate rt input = .ok recallResult)
    (hassess : assessEvidence rt input recallResult = .ok assessments)
    (hroot : root ∈ recallResult.representatives)
    (hconflict : InConflict rt root.facts field (assessmentIndex assessments))
    (h : evaluateDecisionGraphOnce rt (input.withCandidates (input.candidates ++ added) hnodup)
      evaluationId generatedAt = .ok evaluation) :
    (∃ identity ∈ evaluation.identityRecords, identity.key = root.key) ∧
    ∀ identity ∈ evaluation.identityRecords, identity.key = root.key →
      (∃ recallResult', recallAndDeduplicate rt
          (input.withCandidates (input.candidates ++ added) hnodup) = .ok recallResult' ∧
        ∃ root' ∈ recallResult'.representatives, Represents identity root' ∧
          InConflict rt root'.facts field (assessmentIndex evaluation.evidenceAssessments)) ∧
      ∀ plan ∈ evaluation.plans,
        BuiltFromIdentity rt (input.withCandidates (input.candidates ++ added) hnodup)
          evaluation.evidenceAssessments identity plan →
        plan.components.length = 1 → field ≠ landedTotal →
        ∀ gate, BuyerReads input plan.action field gate →
          (∃ result ∈ plan.gateResults, result.gateId = gate.gateId ∧ result.truth = .conflict) ∧
            Unranked evaluation plan := by
  obtain ⟨recallResult', hrecall', hidentities, hassess'⟩ := exists_recall h
  rw [hidentities]
  constructor
  · obtain ⟨root', hroot', hkey⟩ := exists_representative_added hrecall hrecall' hroot
    obtain ⟨identity, hidentity, hrepresents⟩ := exists_identity hrecall' hroot'
    exact ⟨identity, hidentity, hrepresents.key.trans hkey⟩
  intro identity hidentity hkey
  constructor
  · obtain ⟨root', hroot', hrepresents⟩ := exists_representative hrecall' hidentity
    exact ⟨recallResult', hrecall', root', hroot', hrepresents,
      inConflict_added hrecall hrecall' hassess
      hassess' hroot hroot' (hrepresents.key.symm.trans hkey) hconflict⟩
  · intro plan hplan hbuilt hsingle hfield gate hgate
    obtain ⟨representatives, hpacks, offered, hoffered, hrepresents, material, hmaterial, hfrom⟩ :=
      hbuilt.bundle
    unfold packRepresentatives at hpacks
    rw [hrecall', ok_bind] at hpacks
    -- The root of the bundle is a representative with another name for its offer.
    obtain ⟨root', hroot', hoffer⟩ := (mem_of_mapM_eq_ok hpacks).mp hoffered
    have hfacts : offered.facts = root'.facts := by
      rw [RawCandidateRecord.new_eq_ok hoffer]
    have hsame : offered.key = root'.key := by
      unfold RawCandidateRecord.key
      rw [RawCandidateRecord.new_eq_ok hoffer]
    have hkey' : root'.key = root.key := hsame.symm.trans (hrepresents.key.symm.trans hkey)
    have hin := inConflict_added hrecall hrecall' hassess hassess' hroot hroot' hkey' hconflict
    rw [← hfacts] at hin
    obtain ⟨hgates, hstatus⟩ := hfrom.inConflict hmaterial hsingle hfield hin
      ⟨hgate.mem, hgate.buyer, hgate.sources, hgate.action, hgate.reads⟩
    exact ⟨hgates, unranked_of_status h hstatus⟩

/-! ## The landed total -/

namespace Sample

/-- The same product, said to be hosted on premises. -/
def onPremisesSso : RawCandidateRecord :=
  { sso with
    recordId := "record_sso_3"
    packVersion := 3
    facts := [onPremisesFact]
    admitted := by decide +kernel }

/-- One product that two records host in different places. -/
def hostingInput : DecisionGraphInput :=
  bundleInput.withCandidates [sso, onPremisesSso] (by decide +kernel)

def tenTotal : ProductFact where
  field := landedTotal
  value := .str "10.00"
  evidenceIds := .of ["e1"]

def twelveTotal : ProductFact where
  field := landedTotal
  value := .str "12.00"
  evidenceIds := .of ["e1"]

def tenSso : RawCandidateRecord :=
  { sso with
    facts := [tenTotal]
    admitted := by decide +kernel }

def twelveSso : RawCandidateRecord :=
  { sso with
    recordId := "record_sso_2"
    facts := [twelveTotal]
    admitted := by decide +kernel }

/-- A further record that repeats one of the totals. -/
def againSso : RawCandidateRecord :=
  { sso with
    recordId := "record_sso_3"
    facts := [tenTotal]
    admitted := by decide +kernel }

def totalPolicy : EvidencePolicy where
  field := landedTotal
  allowedSourceClasses := ["AUDIT"]
  allowedVerificationMethods := ["LOG"]
  requiredScope := "global"
  freshnessSlaSeconds := 3600

def totalKnown : Predicate where
  field := landedTotal
  operator := "exists"
  value := .none

def quoted : GateRule where
  gateId := "quoted"
  predicates := [totalKnown]
  mode := .requireMatch
  blockedStatus := .siraIneligible
  reasonCode := "NO_QUOTE"
  sourceFactIds := .of []
  appliesToActions := []

/-- One product, of which two records state different totals. -/
def totalInput : DecisionGraphInput :=
  { Sample.input with
    candidates := [tenSso, twelveSso]
    offers := [ssoOffer]
    evidencePolicies := [policy, totalPolicy]
    gates := [quoted]
    candidates_nodup := by decide +kernel
    offers_nodup := ssoOffer_nodup
    evidencePolicies_nodup := by decide +kernel
    gates_nodup := by decide +kernel }

end Sample

theorem inConflict_of_any {facts : List ProductFact} {field : String} {index : AssessmentIndex}
    (h : (fieldState rt facts field index).toOption.any
      (fun state : FieldState => decide (state.state = .conflict)) = true) : InConflict rt facts field index := by
  obtain ⟨state, hstate, hconflict⟩ := exists_of_toOption_any h
  exact ⟨state, hstate, of_decide_eq_true hconflict⟩

/-- Two totals put the field of the landed total in conflict, and with a further
    record of the product the gate that reads it is true of a plan that is ranked. -/
theorem disputed_total_is_ranked :
    (∃ recallResult assessments root,
      recallAndDeduplicate .ascii Sample.totalInput = .ok recallResult ∧
      assessEvidence .ascii Sample.totalInput recallResult = .ok assessments ∧
      root ∈ recallResult.representatives ∧
      InConflict .ascii root.facts landedTotal (assessmentIndex assessments) ∧
      NotExcluded .ascii Sample.totalInput Sample.againSso ∧
      identityKey .ascii Sample.againSso (aliasMap Sample.totalInput) = .ok root.key) ∧
    ∃ evaluation, evaluateDecisionGraphOnce .ascii
        (Sample.totalInput.withCandidates (Sample.totalInput.candidates ++ [Sample.againSso])
          (by decide +kernel)) "base" Sample.now = .ok evaluation ∧
      ∃ plan ∈ evaluation.plans, plan.stableActionIds = ["replace", "sso"] ∧
        plan.planId ∈ evaluation.rankedPlanIds ∧
        ∃ result ∈ plan.gateResults, result.gateId = Sample.quoted.gateId ∧
          result.truth = .true := by
  constructor
  · obtain ⟨recallResult, hrecall, hchecks⟩ := exists_of_toOption_any
      (x := recallAndDeduplicate .ascii Sample.totalInput)
      (p := fun recallResult => (assessEvidence .ascii Sample.totalInput recallResult).toOption.any
        (fun assessments => recallResult.representatives.any (fun root =>
          (fieldState .ascii root.facts landedTotal (assessmentIndex assessments)).toOption.any
              (fun state : FieldState => decide (state.state = .conflict)) &&
            (identityKey .ascii Sample.againSso (aliasMap Sample.totalInput)).toOption.any
              (fun key => decide (key = root.key))))) (by rw [Runtime.ascii_eq]; decide +kernel)
    obtain ⟨assessments, hassess, hany⟩ := exists_of_toOption_any hchecks
    obtain ⟨root, hroot, hchecks⟩ := List.any_eq_true.mp hany
    obtain ⟨hconflict, hkey⟩ := Bool.and_eq_true_iff.mp hchecks
    obtain ⟨key, hown, hsame⟩ := exists_of_toOption_any hkey
    refine ⟨recallResult, assessments, root, hrecall, hassess, hroot, inConflict_of_any hconflict,
      rfl, ?_⟩
    rw [hown, of_decide_eq_true hsame]
  · have hrun : (evaluateDecisionGraphOnce .ascii
        (Sample.totalInput.withCandidates (Sample.totalInput.candidates ++ [Sample.againSso])
          (by decide +kernel)) "base" Sample.now).toOption.any
        (fun evaluation => evaluation.plans.any (fun plan =>
          decide (plan.stableActionIds = ["replace", "sso"]) &&
            (decide (plan.planId ∈ evaluation.rankedPlanIds) &&
              plan.gateResults.any (fun r => decide (r.gateId = Sample.quoted.gateId) &&
                decide (r.truth = .true))))) = true := by
      rw [Runtime.ascii_eq]
      decide +kernel
    obtain ⟨evaluation, hevaluation, hany⟩ := exists_of_toOption_any hrun
    obtain ⟨plan, hplan, hchecks⟩ := List.any_eq_true.mp hany
    simp only [Bool.and_eq_true, List.any_eq_true, decide_eq_true_eq] at hchecks
    exact ⟨evaluation, hevaluation, plan, hplan, hchecks⟩

/-- A product that two records host in different places keeps its conflict when a
    further record sides with one of them. -/
theorem conflicts_absorbing_sample :
    ∃ evaluation, evaluateDecisionGraphOnce .ascii
        (Sample.hostingInput.withCandidates
          (Sample.hostingInput.candidates ++ [Sample.capitalSso]) (by decide +kernel))
        "base" Sample.now = .ok evaluation ∧
      ∃ plan ∈ evaluation.plans, Unranked evaluation plan ∧
        ∃ result ∈ plan.gateResults, result.gateId = Sample.noOnPremises.gateId ∧
          result.truth = .conflict := by
  obtain ⟨recallResult, hrecall, hchecks⟩ := exists_of_toOption_any
    (x := recallAndDeduplicate .ascii Sample.hostingInput)
    (p := fun recallResult => (assessEvidence .ascii Sample.hostingInput recallResult).toOption.any
      (fun assessments => recallResult.representatives.any (fun root =>
        (fieldState .ascii root.facts "hosting" (assessmentIndex assessments)).toOption.any
          (fun state : FieldState => decide (state.state = .conflict))))) (by rw [Runtime.ascii_eq]; decide +kernel)
  obtain ⟨assessments, hassess, hany⟩ := exists_of_toOption_any hchecks
  obtain ⟨root, hroot, hconflict⟩ := List.any_eq_true.mp hany
  obtain ⟨evaluation, hevaluation, hsizes⟩ := exists_of_toOption_any
    (x := evaluateDecisionGraphOnce .ascii
      (Sample.hostingInput.withCandidates
        (Sample.hostingInput.candidates ++ [Sample.capitalSso]) (by decide +kernel))
      "base" Sample.now)
    (p := fun evaluation => evaluation.plans.all (fun plan => plan.components.length == 1))
    (by rw [Runtime.ascii_eq]; decide +kernel)
  obtain ⟨⟨identity, hidentity, hkey⟩, hall⟩ :=
    conflicts_absorbing hrecall hassess hroot (inConflict_of_any hconflict) hevaluation
  obtain ⟨plan, hplan, hbuilt⟩ := exists_plan_of_identity hevaluation hidentity
  have hsingle : plan.components.length = 1 := by
    simpa using List.all_eq_true.mp hsizes plan hplan
  have hgate : BuyerReads Sample.hostingInput plan.action "hosting" Sample.noOnPremises :=
    ⟨List.mem_singleton_self _, rfl, rfl, rfl, _, List.mem_singleton_self _, rfl⟩
  obtain ⟨hresult, hunranked⟩ :=
    (hall identity hidentity hkey).2 plan hplan hbuilt hsingle (by decide) _ hgate
  exact ⟨evaluation, hevaluation, plan, hplan, hunranked, hresult⟩

end DecisionEngine
