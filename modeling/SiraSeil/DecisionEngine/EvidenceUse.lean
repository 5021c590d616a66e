-- SUMMARY: Which evidence an evaluation cites, and that assessments of other evidence do not reach its plans.
import SiraSeil.DecisionEngine.Readings

/-!
# Use of evidence

Every stage after the assessment reads the assessments through evidence ids: the
ids of the facts of a plan, of the claims of a seller rule and of the observed
outcomes. Two lists of assessments that agree on these ids therefore lead to the
same plans.
-/

namespace DecisionEngine

open Domain Sorting Raising

variable {rt : Runtime} {input : DecisionGraphInput} {ids : List String}
  {assessments assessments' : List EvidenceAssessment}

/-- The same assessments of the evidence `ids`. -/
def AgreeOn (ids : List String) (assessments assessments' : List EvidenceAssessment) : Prop :=
  assessments.filter (fun a => a.evidenceId ∈ ids) =
    assessments'.filter (fun a => a.evidenceId ∈ ids)

/-! ## The assessment index -/

theorem filter_indexWrites (ids : List String) (assessments : List EvidenceAssessment) :
    (assessments.map (fun a => ((toLex (a.evidenceId, a.field) : EvidencePair), a))).filter
        (fun p => decide ((ofLex p.1).1 ∈ ids)) =
      (assessments.filter (fun a => a.evidenceId ∈ ids)).map
        (fun a => ((toLex (a.evidenceId, a.field) : EvidencePair), a)) := by
  rw [List.filter_map]
  rfl

theorem indexItems_agreeOn (h : AgreeOn ids assessments assessments') :
    (assessmentIndex assessments).items.filter (fun p => decide ((ofLex p.1).1 ∈ ids)) =
      (assessmentIndex assessments').items.filter (fun p => decide ((ofLex p.1).1 ∈ ids)) := by
  unfold assessmentIndex
  rw [← Dict.items_ofList_filter (fun pair : EvidencePair => decide ((ofLex pair).1 ∈ ids)),
    ← Dict.items_ofList_filter (fun pair : EvidencePair => decide ((ofLex pair).1 ∈ ids)),
    filter_indexWrites, filter_indexWrites, h]

theorem get?_agreeOn (h : AgreeOn ids assessments assessments') {id : String} (hid : id ∈ ids)
    (field : String) : (assessmentIndex assessments).get? (toLex (id, field)) =
      (assessmentIndex assessments').get? (toLex (id, field)) := by
  have hrestrict : ∀ l : List (EvidencePair × EvidenceAssessment),
      (Dict.ofList (l.filter (fun p => decide ((ofLex p.1).1 ∈ ids)))).get? (toLex (id, field)) =
        (Dict.ofList l).get? (toLex (id, field)) :=
    Dict.get?_ofList_filter (fun pair : EvidencePair => decide ((ofLex pair).1 ∈ ids))
      (decide_eq_true hid)
  unfold assessmentIndex
  rw [← hrestrict, filter_indexWrites, h, ← filter_indexWrites, hrestrict]

theorem assessmentsFor_agreeOn (h : AgreeOn ids assessments assessments') {read : List String}
    (hread : read ⊆ ids) (field : String) :
    assessmentsFor (assessmentIndex assessments) read field =
      assessmentsFor (assessmentIndex assessments') read field :=
  List.filterMap_congr (fun _ hid => get?_agreeOn h (hread hid) field)

/-! ## Field states and gates -/

/-- The facts rest on the evidence `ids`. -/
def FactsCite (ids : List String) (facts : List ProductFact) : Prop :=
  ∀ fact ∈ facts, fact.evidenceIds.items ⊆ ids

variable {facts : List ProductFact} {material : PlanMaterial} {records : List RawCandidateRecord}

theorem fieldState_agreeOn (h : AgreeOn ids assessments assessments') (hfacts : FactsCite ids facts)
    (field : String) :
    fieldState rt facts field (assessmentIndex assessments) =
      fieldState rt facts field (assessmentIndex assessments') := by
  have hread : sortedSet ((facts.filter (fun fact => fact.field = field)).flatMap
      (·.evidenceIds.items)) ⊆ ids := by
    intro id hid
    obtain ⟨fact, hfact, hid⟩ := List.mem_flatMap.mp (mem_sortedSet.mp hid)
    exact hfacts fact (List.mem_of_mem_filter hfact) hid
  unfold fieldState
  simp only [assessmentsFor_agreeOn h hread]

/-- What the evaluation of a material reads rests on the evidence `ids`. -/
structure Cites (ids : List String) (input : DecisionGraphInput) (material : PlanMaterial) :
    Prop where
  facts : FactsCite ids material.facts
  gateFacts : FactsCite ids material.gateFacts
  claims : ∀ gate ∈ applicableGates input material, gate.isSeller = true →
    gate.evidenceClaimIds.items ⊆ ids
  outcomes : ∀ o ∈ activeOutcomes input, o.evidenceIds.items ⊆ ids

theorem componentFieldStates_agreeOn (h : AgreeOn ids assessments assessments')
    (hfacts : FactsCite ids material.gateFacts) (field : String) :
    componentFieldStates rt material field (assessmentIndex assessments) =
      componentFieldStates rt material field (assessmentIndex assessments') := by
  unfold componentFieldStates
  apply mapM_congr
  intro componentId _
  apply fieldState_agreeOn h
  intro fact hfact
  unfold componentGateFacts at hfact
  split at hfact
  · exact hfacts fact hfact
  · exact hfacts fact (List.mem_of_mem_filter hfact)

theorem referencedStates_agreeOn (h : AgreeOn ids assessments assessments') {gate : GateRule}
    (hclaims : gate.evidenceClaimIds.items ⊆ ids) :
    referencedStates gate (assessmentIndex assessments) =
      referencedStates gate (assessmentIndex assessments') := by
  have hfilter : ∀ items : List (EvidencePair × EvidenceAssessment),
      items.filter (fun p => decide ((ofLex p.1).1 ∈ gate.evidenceClaimIds.items)) =
        (items.filter (fun p => decide ((ofLex p.1).1 ∈ ids))).filter
          (fun p => decide ((ofLex p.1).1 ∈ gate.evidenceClaimIds.items)) := by
    intro items
    rw [List.filter_filter]
    refine List.filter_congr (fun p _ => ?_)
    by_cases hp : (ofLex p.1).1 ∈ gate.evidenceClaimIds.items
    · simp [hp, hclaims hp]
    · simp [hp]
  unfold referencedStates
  rw [hfilter, indexItems_agreeOn h, ← hfilter]

theorem evaluateGate_agreeOn (h : AgreeOn ids assessments assessments')
    (hfacts : FactsCite ids material.gateFacts) {gate : GateRule}
    (hclaims : gate.isSeller = true → gate.evidenceClaimIds.items ⊆ ids)
    (values : Dict String FactValue) :
    evaluateGate rt gate material values (assessmentIndex assessments) =
      evaluateGate rt gate material values (assessmentIndex assessments') := by
  have hevidence : sellerEvidenceTrace gate (assessmentIndex assessments) =
      sellerEvidenceTrace gate (assessmentIndex assessments') := by
    unfold sellerEvidenceTrace
    cases hseller : gate.isSeller with
    | false => rfl
    | true => simp only [referencedStates_agreeOn h (hclaims hseller)]
  have hpredicates : predicateTrace rt gate material values (assessmentIndex assessments) =
      predicateTrace rt gate material values (assessmentIndex assessments') := by
    funext predicate
    unfold predicateTrace buyerPredicateTrace
    rw [componentFieldStates_agreeOn h hfacts]
  unfold evaluateGate gateTrace
  rw [hevidence, hpredicates]

theorem evaluateGates_agreeOn (h : AgreeOn ids assessments assessments')
    (hcites : Cites ids input material) :
    evaluateGates rt input material assessments = evaluateGates rt input material assessments' := by
  unfold evaluateGates
  rw [mapM_congr (fun gate hgate =>
    evaluateGate_agreeOn h hcites.gateFacts (hcites.claims gate hgate) (buyerValueMap input))]

/-! ## Dimensions -/

theorem outcomeValue_mem {subject criterion : String} {observed : OutcomeObservation}
    (h : outcomeValue input subject criterion = some observed) : observed ∈ activeOutcomes input := by
  obtain ⟨o, ho, hsame⟩ := List.mem_map.mp (Dict.mem_of_get?_ofList h)
  rw [← (Prod.mk.inj hsame).2]
  exact ho

theorem scoreCriterion_agreeOn (h : AgreeOn ids assessments assessments')
    (hcites : Cites ids input material) (criterion : PreferenceCriterion) :
    scoreCriterion rt input material (assessmentIndex assessments) criterion =
      scoreCriterion rt input material (assessmentIndex assessments') criterion := by
  unfold scoreCriterion
  rw [fieldState_agreeOn h hcites.facts]
  cases hobserved : outcomeValue input material.outcomeSubjectId criterion.criterionId with
  | none => rfl
  | some observed =>
    have hread := hcites.outcomes observed (outcomeValue_mem hobserved)
    unfold observedSatisfaction
    simp only [assessmentsFor_agreeOn h hread]

theorem unknownSatisfaction_evidenceIds (criterion : PreferenceCriterion) (read : List String)
    (state : EvidenceState) : (unknownSatisfaction criterion read state).evidenceIds = read := by
  unfold unknownSatisfaction
  split <;> rfl

theorem priorSatisfaction_evidenceIds (criterion : PreferenceCriterion) (read : List String) :
    (priorSatisfaction criterion read).evidenceIds = read := by
  unfold priorSatisfaction
  split <;> rfl

theorem observedSatisfaction_evidenceIds (criterion : PreferenceCriterion)
    (observed : OutcomeObservation) (index : AssessmentIndex) :
    (observedSatisfaction criterion observed index).evidenceIds = observed.evidenceIds.items := by
  unfold observedSatisfaction
  dsimp only
  split
  · rfl
  · exact unknownSatisfaction_evidenceIds criterion _ _

theorem factSatisfaction_evidenceIds {criterion : PreferenceCriterion} {state : FieldState}
    {satisfaction : Satisfaction} (h : factSatisfaction rt criterion state = .ok satisfaction) :
    satisfaction.evidenceIds = state.evidenceIds := by
  unfold factSatisfaction at h
  split at h
  · obtain ⟨values, -, h⟩ := bind_eq_ok.mp h
    split at h
    · rw [← pure_eq_ok.mp h]
      exact unknownSatisfaction_evidenceIds criterion _ _
    · rw [← pure_eq_ok.mp h]
  · rw [← pure_eq_ok.mp h]
    exact unknownSatisfaction_evidenceIds criterion _ _

theorem fieldState_evidenceIds {field : String} {index : AssessmentIndex} {state : FieldState}
    (hfacts : FactsCite ids facts)
    (h : fieldState rt facts field index = .ok state) : state.evidenceIds ⊆ ids := by
  unfold fieldState at h
  dsimp only at h
  split at h
  · rw [← pure_eq_ok.mp h]
    exact List.nil_subset ids
  · obtain ⟨values, -, h⟩ := bind_eq_ok.mp h
    rw [← pure_eq_ok.mp h]
    intro id hid
    obtain ⟨fact, hfact, hid⟩ := List.mem_flatMap.mp (mem_sortedSet.mp hid)
    exact hfacts fact (List.mem_of_mem_filter hfact) hid

theorem scoreCriterion_cites (hcites : Cites ids input material) {index : AssessmentIndex}
    {criterion : PreferenceCriterion} {score : ScoreComponent} {reasons : List String}
    (h : scoreCriterion rt input material index criterion = .ok (score, reasons)) :
    score.evidenceIds ⊆ ids := by
  unfold scoreCriterion at h
  obtain ⟨state, hstate, h⟩ := bind_eq_ok.mp h
  have hfield := fieldState_evidenceIds hcites.facts hstate
  dsimp only at h
  split at h
  · split at h
    · obtain ⟨_, hprior, h⟩ := bind_eq_ok.mp h
      obtain ⟨rfl, -⟩ := Prod.mk.inj (pure_eq_ok.mp h)
      rw [← pure_eq_ok.mp hprior, priorSatisfaction_evidenceIds]
      exact hfield
    · rename_i observed hobserved
      obtain ⟨_, hseen, h⟩ := bind_eq_ok.mp h
      obtain ⟨rfl, -⟩ := Prod.mk.inj (pure_eq_ok.mp h)
      rw [← pure_eq_ok.mp hseen, observedSatisfaction_evidenceIds]
      exact hcites.outcomes observed (outcomeValue_mem hobserved)
  · obtain ⟨satisfaction, hsatisfaction, h⟩ := bind_eq_ok.mp h
    obtain ⟨rfl, -⟩ := Prod.mk.inj (pure_eq_ok.mp h)
    rw [factSatisfaction_evidenceIds hsatisfaction]
    exact hfield

theorem scoreComponents_cites (hcites : Cites ids input material) {scores : List ScoreComponent}
    {reasons : List String}
    (h : scoreComponents rt input material assessments = .ok (scores, reasons)) :
    ∀ score ∈ scores, score.evidenceIds ⊆ ids := by
  unfold scoreComponents at h
  obtain ⟨scored, hscored, h⟩ := bind_eq_ok.mp h
  obtain ⟨rfl, -⟩ := Prod.mk.inj (pure_eq_ok.mp h)
  intro score hscore
  obtain ⟨⟨_, extra⟩, hmem, rfl⟩ := List.mem_map.mp hscore
  obtain ⟨criterion, -, hrun⟩ := (mem_of_mapM_eq_ok hscored).mp hmem
  exact scoreCriterion_cites hcites hrun

theorem scoreComponents_agreeOn (h : AgreeOn ids assessments assessments')
    (hcites : Cites ids input material) :
    scoreComponents rt input material assessments =
      scoreComponents rt input material assessments' := by
  unfold scoreComponents
  rw [funext (scoreCriterion_agreeOn h hcites)]

theorem riskBounds_agreeOn (h : AgreeOn ids assessments assessments')
    (hfacts : FactsCite ids material.facts) :
    riskBounds rt input material assessments = riskBounds rt input material assessments' := by
  have htrace : riskTrace rt material (assessmentIndex assessments) =
      riskTrace rt material (assessmentIndex assessments') := by
    funext rule
    unfold riskTrace
    cases rule.predicate with
    | none => rfl
    | some predicate => simp only [fieldState_agreeOn h hfacts]
  unfold riskBounds
  rw [htrace]

theorem materialAssessments_agreeOn (h : AgreeOn ids assessments assessments')
    (hfacts : FactsCite ids material.facts) {scores : List ScoreComponent}
    (hscores : ∀ score ∈ scores, score.evidenceIds ⊆ ids) :
    materialAssessments material scores assessments =
      materialAssessments material scores assessments' := by
  have hfilter : ∀ list : List EvidenceAssessment, materialAssessments material scores list =
      materialAssessments material scores (list.filter (fun a => a.evidenceId ∈ ids)) := by
    intro list
    unfold materialAssessments
    rw [List.filter_filter]
    refine List.filter_congr (fun a _ => ?_)
    have hin : a.evidenceId ∈ material.facts.flatMap (·.evidenceIds.items) ∨
        a.evidenceId ∈ scores.flatMap (·.evidenceIds) → a.evidenceId ∈ ids := by
      rintro (hmem | hmem)
      · obtain ⟨fact, hfact, hid⟩ := List.mem_flatMap.mp hmem
        exact hfacts fact hfact hid
      · obtain ⟨score, hscore, hid⟩ := List.mem_flatMap.mp hmem
        exact hscores score hscore hid
    rw [← Bool.decide_or, ← Bool.decide_and]
    exact decide_eq_decide.mpr ⟨fun hmem => ⟨hmem, hin hmem⟩, And.left⟩
  rw [hfilter assessments, h, ← hfilter]

theorem materialDimensions_agreeOn (h : AgreeOn ids assessments assessments')
    (hcites : Cites ids input material) (gates : List GateResult) (evaluated discovered : Nat) :
    materialDimensions rt input material gates assessments evaluated discovered =
      materialDimensions rt input material gates assessments' evaluated discovered := by
  unfold materialDimensions
  rw [← scoreComponents_agreeOn h hcites, ← riskBounds_agreeOn h hcites.facts]
  cases hscores : scoreComponents rt input material assessments with
  | error e => simp only [error_bind]
  | ok scored =>
    obtain ⟨scores, reasons⟩ := scored
    have hcoverage : coverageAndAge input material gates scores assessments =
        coverageAndAge input material gates scores assessments' := by
      unfold coverageAndAge
      rw [materialAssessments_agreeOn h hcites.facts (scoreComponents_cites hcites hscores)]
    simp only [ok_bind, hcoverage]

theorem buildPlan_agreeOn (h : AgreeOn ids assessments assessments')
    (hcites : Cites ids input material) (evaluated discovered : Nat) :
    buildPlan rt input assessments evaluated discovered material =
      buildPlan rt input assessments' evaluated discovered material := by
  unfold buildPlan
  simp only [evaluateGates_agreeOn h hcites, materialDimensions_agreeOn h hcites]

/-! ## Evidence of the materials -/

/-- The evidence ids of some records. -/
def recordEvidence (records : List RawCandidateRecord) : List String :=
  records.flatMap (fun r => r.facts.flatMap (·.evidenceIds.items))

theorem factsCite_recordEvidence {r : RawCandidateRecord}
    (hr : r ∈ records) : FactsCite (recordEvidence records) r.facts := by
  intro fact hfact id hid
  exact List.mem_flatMap.mpr ⟨r, hr, List.mem_flatMap.mpr ⟨fact, hfact, hid⟩⟩

theorem FactsCite.mono {ids' : List String} (h : FactsCite ids facts)
    (hsub : ids ⊆ ids') : FactsCite ids' facts :=
  fun fact hfact _ hid => hsub (h fact hfact hid)

theorem FactsCite.append {facts' : List ProductFact} (h : FactsCite ids facts)
    (h' : FactsCite ids facts') : FactsCite ids (facts ++ facts') := by
  intro fact hfact
  rcases List.mem_append.mp hfact with hfact | hfact
  · exact h fact hfact
  · exact h' fact hfact

theorem FactsCite.filter (h : FactsCite ids facts)
    (p : ProductFact → Bool) : FactsCite ids (facts.filter p) :=
  fun fact hfact => h fact (List.mem_of_mem_filter hfact)

theorem mem_of_mapM_single {lists : List (List ProductFact)}
    (h : lists.mapM single? = some facts) : facts ⊆ lists.flatten := by
  induction lists generalizing facts with
  | nil =>
    cases h
    exact List.nil_subset _
  | cons list lists ih =>
    rw [List.mapM_cons] at h
    obtain ⟨fact, hfact, h⟩ := Option.bind_eq_some_iff.mp h
    obtain ⟨rest, hrest, h⟩ := Option.bind_eq_some_iff.mp h
    cases h
    have hlist : list = [fact] := by
      match list, hfact with
      | [_], rfl => rfl
    intro other hother
    rw [List.flatten_cons, hlist]
    rcases List.mem_cons.mp hother with rfl | hother
    · exact List.mem_append_left _ (List.mem_singleton_self _)
    · exact List.mem_append_right _ (ih hrest hother)

theorem aggregateField_cites {bundleId field : String} {aggregation : Aggregation}
    (h : aggregateField rt records bundleId field aggregation = .ok facts) :
    FactsCite (recordEvidence records) facts := by
  have hcomponents : FactsCite (recordEvidence records)
      (records.map (fun r => r.facts.filter (fun fact => fact.field = field))).flatten := by
    intro fact hfact
    obtain ⟨r, hr, hfact⟩ := List.mem_flatMap.mp (List.flatMap_def ▸ hfact)
    exact factsCite_recordEvidence hr fact (List.mem_of_mem_filter hfact)
  unfold aggregateField at h
  dsimp only at h
  split at h
  · rw [← pure_eq_ok.mp h]
    cases hlast : (records.map (fun r => r.facts.filter (fun fact => fact.field = field))).getLast? with
    | none => exact fun fact hfact => by cases hfact
    | some last =>
      intro fact hfact
      exact hcomponents fact (List.mem_flatten.mpr ⟨last, List.mem_of_getLast? hlast, hfact⟩)
  · split at h
    · rw [← pure_eq_ok.mp h]
      exact hcomponents
    · rename_i single hsingle
      have hsub := mem_of_mapM_single hsingle
      obtain ⟨value, -, h⟩ := bind_eq_ok.mp h
      split at h
      · rw [← pure_eq_ok.mp h]
        exact fun fact hfact => hcomponents fact (hsub hfact)
      · obtain ⟨aggregated, hnew, h⟩ := bind_eq_ok.mp h
        rw [← pure_eq_ok.mp h]
        intro fact hfact id hid
        rw [List.mem_singleton.mp hfact, ProductFact.new_eq_ok hnew, SortedTuple.mem_items_of] at hid
        obtain ⟨source, hsource, hid⟩ := List.mem_flatMap.mp hid
        exact hcomponents source (hsub hsource) hid

theorem aggregatePreferenceFacts_cites (h : aggregatePreferenceFacts rt input records = .ok facts) :
    FactsCite (recordEvidence records) facts := by
  have hraw : FactsCite (recordEvidence records) (records.flatMap (·.facts)) := by
    intro fact hfact
    obtain ⟨r, hr, hfact⟩ := List.mem_flatMap.mp hfact
    exact factsCite_recordEvidence hr fact hfact
  unfold aggregatePreferenceFacts at h
  split at h
  · cases h
    exact hraw
  · cases h
    exact hraw
  · unfold bundleFacts at h
    obtain ⟨aggregated, haggregated, h⟩ := bind_eq_ok.mp h
    rw [← pure_eq_ok.mp h]
    refine (hraw.filter _).append ?_
    intro fact hfact
    obtain ⟨list, hlist, hfact⟩ := List.mem_flatten.mp hfact
    obtain ⟨p, -, hp⟩ := (mem_of_mapM_eq_ok haggregated).mp hlist
    exact aggregateField_cites hp fact hfact

theorem costFacts_cites {cost : OfferCost} {evidence : Ids} {componentIds : List String}
    (h : costFacts cost evidence componentIds = .ok facts)
    (hevidence : evidence.items ⊆ ids) : FactsCite ids facts := by
  unfold costFacts at h
  split at h
  · cases h
    exact fun fact hfact => by cases hfact
  · intro fact hfact
    obtain ⟨componentId, -, hnew⟩ := (mem_of_mapM_eq_ok h).mp hfact
    unfold costFact at hnew
    rw [ProductFact.new_eq_ok hnew]
    exact hevidence

theorem packMaterial_cites {offers : Dict String OfferCost}
    {representatives : List RawCandidateRecord} {root : RawCandidateRecord}
    (hroot : root ∈ representatives)
    (h : packMaterial rt input offers representatives root = .ok material) :
    FactsCite (recordEvidence representatives) material.facts ∧
      FactsCite (recordEvidence representatives) material.gateFacts := by
  have hsub : recordEvidence (closure representatives root).1 ⊆ recordEvidence representatives := by
    intro id hid
    obtain ⟨r, hr, hid⟩ := List.mem_flatMap.mp hid
    exact List.mem_flatMap.mpr ⟨r, closure_subset hroot hr, hid⟩
  have hraw : FactsCite (recordEvidence representatives)
      ((closure representatives root).1.flatMap (·.facts)) := by
    intro fact hfact
    obtain ⟨r, hr, hfact⟩ := List.mem_flatMap.mp hfact
    exact factsCite_recordEvidence (closure_subset hroot hr) fact hfact
  have hcostEvidence : (SortedTuple.of ((((closure representatives root).1.flatMap (·.facts)).filter
      (fun fact => fact.field = landedTotal)).flatMap (·.evidenceIds.items))).items ⊆
        recordEvidence representatives := by
    intro id hid
    obtain ⟨fact, hfact, hid⟩ := List.mem_flatMap.mp (SortedTuple.mem_items_of.mp hid)
    exact hraw fact (List.mem_of_mem_filter hfact) hid
  unfold packMaterial at h
  simp only [bind_eq_ok, pure_eq_ok] at h
  obtain ⟨_, -, gateCosts, hgateCosts, aggregated, haggregated, rootCosts, hrootCosts, rfl⟩ := h
  refine ⟨?_, ?_⟩
  · exact (((aggregatePreferenceFacts_cites haggregated).mono hsub).filter _).append
      (costFacts_cites hrootCosts hcostEvidence)
  · exact (hraw.filter _).append (costFacts_cites hgateCosts hcostEvidence)

/-- The evidence that facts, active seller rules and active observations cite. -/
def citedEvidence (input : DecisionGraphInput) (recallResult : RecallResult) : List String :=
  recordEvidence recallResult.representatives ++
    input.currentActions.flatMap (fun a => a.facts.flatMap (·.evidenceIds.items)) ++
    (input.gates.filter (fun g => g.isSeller &&
      sourcesActive g.sourceFactIds (activeSourceIds input))).flatMap (·.evidenceClaimIds.items) ++
    (activeOutcomes input).flatMap (·.evidenceIds.items)

theorem withCanonicalOffer_facts {record canonicalRecord : RawCandidateRecord}
    (h : withCanonicalOffer rt input record = .ok canonicalRecord) :
    canonicalRecord.facts = record.facts := by
  unfold withCanonicalOffer at h
  rw [RawCandidateRecord.new_eq_ok h]

theorem cites_of_mem_planMaterials {recallResult : RecallResult} {materials : List PlanMaterial}
    (hmaterials : planMaterials rt input recallResult = .ok materials)
    (hmem : material ∈ materials) : Cites (citedEvidence input recallResult) input material := by
  have hfacts : FactsCite (citedEvidence input recallResult) material.facts ∧
      FactsCite (citedEvidence input recallResult) material.gateFacts := by
    unfold planMaterials packMaterials at hmaterials
    obtain ⟨packs, hpacks, happend⟩ := bind_eq_ok.mp hmaterials
    obtain ⟨representatives, hrepresentatives, hpacks⟩ := bind_eq_ok.mp hpacks
    obtain rfl := pure_eq_ok.mp happend
    rcases List.mem_append.mp hmem with hpack | hcurrent
    · obtain ⟨root, hroot, hmaterial⟩ := (mem_of_mapM_eq_ok hpacks).mp hpack
      have hsub : recordEvidence representatives ⊆ citedEvidence input recallResult := by
        intro id hid
        obtain ⟨r, hr, hid⟩ := List.mem_flatMap.mp hid
        obtain ⟨source, hsource, hoffer⟩ := (mem_of_mapM_eq_ok hrepresentatives).mp hr
        rw [withCanonicalOffer_facts hoffer] at hid
        have hevidence : id ∈ recordEvidence recallResult.representatives :=
          List.mem_flatMap.mpr ⟨source, hsource, hid⟩
        simp only [citedEvidence, List.mem_append, hevidence, true_or]
      obtain ⟨hfacts, hgateFacts⟩ := packMaterial_cites hroot hmaterial
      exact ⟨hfacts.mono hsub, hgateFacts.mono hsub⟩
    · obtain ⟨item, hitem, rfl⟩ := List.mem_map.mp hcurrent
      have hitemFacts : FactsCite (citedEvidence input recallResult) item.facts := by
        intro fact hfact id hid
        have hevidence : id ∈ input.currentActions.flatMap
            (fun a => a.facts.flatMap (·.evidenceIds.items)) :=
          List.mem_flatMap.mpr ⟨item, hitem, List.mem_flatMap.mpr ⟨fact, hfact, hid⟩⟩
        simp only [citedEvidence, List.mem_append, hevidence, true_or, or_true]
      exact ⟨hitemFacts, hitemFacts⟩
  refine ⟨hfacts.1, hfacts.2, ?_, ?_⟩
  · intro gate hgate hseller id hid
    obtain ⟨hin, happlies⟩ := List.mem_filter.mp hgate
    unfold gateApplies at happlies
    simp only [Bool.and_eq_true] at happlies
    have hevidence : id ∈ (input.gates.filter (fun g => g.isSeller &&
        sourcesActive g.sourceFactIds (activeSourceIds input))).flatMap
          (·.evidenceClaimIds.items) := by
      refine List.mem_flatMap.mpr ⟨gate, List.mem_filter.mpr ⟨mem_sortedBy.mp hin, ?_⟩, hid⟩
      rw [hseller, happlies.1.1]
      rfl
    simp only [citedEvidence, List.mem_append, hevidence, true_or, or_true]
  · intro o ho id hid
    have hevidence : id ∈ (activeOutcomes input).flatMap (·.evidenceIds.items) :=
      List.mem_flatMap.mpr ⟨o, ho, hid⟩
    simp only [citedEvidence, List.mem_append, hevidence, or_true]

theorem buildSolutionPlans_agreeOn {recallResult : RecallResult}
    (h : AgreeOn (citedEvidence input recallResult) assessments assessments') :
    buildSolutionPlans rt input recallResult assessments =
      buildSolutionPlans rt input recallResult assessments' := by
  unfold buildSolutionPlans
  cases hmaterials : planMaterials rt input recallResult with
  | error e => simp only [error_bind]
  | ok materials =>
    simp only [ok_bind]
    apply mapM_congr
    intro material hmaterial
    exact buildPlan_agreeOn h
      (cites_of_mem_planMaterials hmaterials (mem_sortedBy.mp hmaterial)) _ _

end DecisionEngine
