-- SUMMARY: When the order of the tuples of an input is irrelevant, and an input on which it decides the selection.
import SiraSeil.DecisionEngine.Counterfactual
import SiraSeil.DecisionEngine.Readings
import SiraSeil.Domain.Hashing

/-!
# Input order

Groups with a unique identifier are read in the order of their identifiers. Four
dictionaries are keyed by something else: buyer values by field, offers by
canonical id, outcome observations by subject and criterion, and aggregations by
the field of a preference. Where two entries of one of these collide and are
read, the last one wins and the order shows.
-/

namespace DecisionEngine

open Domain Sorting Raising

variable {rt : Runtime} {input input' : DecisionGraphInput}

/-! ## Permuted inputs -/

/-- The same input with the tuples in another order. -/
structure Permuted (input input' : DecisionGraphInput) : Prop where
  versions : input.versions = input'.versions
  evaluatedAt : input.evaluatedAt = input'.evaluatedAt
  riskRuleSetComplete : input.riskRuleSetComplete = input'.riskRuleSetComplete
  identityNormalization : input.identityNormalization = input'.identityNormalization
  removed : input.removedPrivateFactIds = input'.removedPrivateFactIds
  actorConflictResolutions : input.actorConflictResolutions = input'.actorConflictResolutions
  recallPolicy : input.recallPolicy = input'.recallPolicy
  buyerFacts : input.buyerFacts.Perm input'.buyerFacts
  candidates : input.candidates.Perm input'.candidates
  offers : input.offers.Perm input'.offers
  evidence : input.evidence.Perm input'.evidence
  evidencePolicies : input.evidencePolicies.Perm input'.evidencePolicies
  gates : input.gates.Perm input'.gates
  preferences : input.preferences.Perm input'.preferences
  riskRules : input.riskRules.Perm input'.riskRules
  currentActions : input.currentActions.Perm input'.currentActions
  outcomeValues : input.outcomeValues.Perm input'.outcomeValues

theorem Permuted.withRemoved (h : Permuted input input') (removed : Ids) :
    Permuted (input.withRemoved removed) (input'.withRemoved removed) :=
  ⟨h.versions, h.evaluatedAt, h.riskRuleSetComplete, h.identityNormalization, rfl,
    h.actorConflictResolutions, h.recallPolicy, h.buyerFacts, h.candidates, h.offers, h.evidence,
    h.evidencePolicies, h.gates, h.preferences, h.riskRules, h.currentActions, h.outcomeValues⟩

theorem Permuted.activeBuyerFacts (h : Permuted input input') :
    (activeBuyerFacts input).Perm (activeBuyerFacts input') := by
  unfold DecisionEngine.activeBuyerFacts
  rw [h.removed]
  exact h.buyerFacts.filter _

theorem Permuted.sourcesActive (h : Permuted input input') (sourceFactIds : Ids) :
    sourcesActive sourceFactIds (activeSourceIds input) =
      sourcesActive sourceFactIds (activeSourceIds input') := by
  have hmem : ∀ id, id ∈ activeSourceIds input ↔ id ∈ activeSourceIds input' :=
    fun id => (h.activeBuyerFacts.map (·.factId)).mem_iff
  unfold DecisionEngine.sourcesActive
  simp only [hmem]

/-! ## Collisions -/

/-- No dictionary that is keyed by something else than an identifier reads two
    different entries under one key: the active buyer values that a seller rule of a
    plan asks for, the offers of the recalled packs, the outcome observations, and the
    aggregations of the fields of a bundle. -/
structure OrderFree (rt : Runtime) (input : DecisionGraphInput) : Prop where
  buyerValues : ∀ recallResult, recallAndDeduplicate rt input = .ok recallResult →
    ∀ materials, planMaterials rt input recallResult = .ok materials → ∀ material ∈ materials,
      ∀ gate ∈ applicableGates input material, gate.isSeller = true →
        ∀ predicate ∈ gate.predicates, ∀ fact ∈ activeBuyerFacts input,
          ∀ fact' ∈ activeBuyerFacts input, fact.field = predicate.field →
            fact'.field = predicate.field → fact.value = fact'.value
  offers : ∀ representatives, packRepresentatives rt input = .ok representatives →
    ∀ record ∈ representatives, ∀ o ∈ input.offers, ∀ o' ∈ input.offers,
      canonicalOffer rt (aliasMap input) o.offerId = record.offerId →
      canonicalOffer rt (aliasMap input) o'.offerId = record.offerId → o = o'
  outcomes : KeyOn (fun o => toLex (o.subjectId, o.criterionId)) input.outcomeValues
  aggregations : ∀ representatives, packRepresentatives rt input = .ok representatives →
    ∀ root ∈ representatives, 1 < (closure representatives root).1.length →
      ∀ r ∈ (closure representatives root).1, ∀ fact ∈ r.facts,
        ∀ c ∈ input.preferences, ∀ c' ∈ input.preferences, c.field = fact.field →
          c'.field = fact.field → c.aggregation = c'.aggregation

theorem OrderFree.withRemoved (h : OrderFree rt input) {removed : Ids}
    (hsub : input.removedPrivateFactIds.items ⊆ removed.items) :
    OrderFree rt (input.withRemoved removed) := by
  have hactive : activeBuyerFacts (input.withRemoved removed) ⊆ activeBuyerFacts input := by
    intro fact hfact
    obtain ⟨hin, hkept⟩ := List.mem_filter.mp hfact
    refine List.mem_filter.mpr ⟨hin, decide_eq_true (fun hremoved => ?_)⟩
    exact of_decide_eq_true hkept (hsub hremoved)
  refine ⟨?_, h.offers, h.outcomes, h.aggregations⟩
  intro recallResult hrecall materials hmaterials material hmaterial gate hgate hseller predicate
    hpredicate fact hfact fact' hfact'
  refine h.buyerValues recallResult hrecall materials hmaterials material hmaterial gate ?_ hseller
    predicate hpredicate fact (hactive hfact) fact' (hactive hfact')
  obtain ⟨hin, happlies⟩ := List.mem_filter.mp hgate
  refine List.mem_filter.mpr ⟨hin, ?_⟩
  unfold gateApplies DecisionEngine.sourcesActive at happlies ⊢
  simp only [Bool.and_eq_true, List.all_eq_true, decide_eq_true_eq] at happlies ⊢
  refine ⟨⟨fun id hid => ?_, happlies.1.2⟩, happlies.2⟩
  obtain ⟨fact, hfact, rfl⟩ := List.mem_map.mp (happlies.1.1 id hid)
  exact List.mem_map_of_mem (hactive hfact)

/-! ## Readings of a permuted input -/

section Permuted

variable (h : Permuted input input')

include h

theorem recallReading_permuted : RecallReading input input' where
  candidates := sortedBy_congr_perm h.candidates (KeyOn.of_nodup input.candidates_nodup)
  normalization := h.identityNormalization
  recallPolicy := h.recallPolicy

theorem pairReading_permuted : PairReading input input' where
  evaluatedAt := h.evaluatedAt
  evidence := by
    intro id
    refine Dict.get?_ofList_perm (h.evidence.map _) (Dict.ConsistentAt.of_nodup ?_ id)
    rw [List.map_map]
    exact input.evidence_nodup
  policies := by
    intro field
    refine Dict.get?_ofList_perm (h.evidencePolicies.map _) (Dict.ConsistentAt.of_nodup ?_ field)
    rw [List.map_map]
    exact input.evidencePolicies_nodup

theorem aggregationOf_permuted {field : String}
    (hfield : ∀ c ∈ input.preferences, ∀ c' ∈ input.preferences, c.field = field →
      c'.field = field → c.aggregation = c'.aggregation) :
    aggregationOf input field = aggregationOf input' field := by
  unfold aggregationOf preferenceByField
  rw [← Dict.get?_ofList_map, ← Dict.get?_ofList_map]
  refine Dict.get?_ofList_perm ((h.preferences.map _).map _) ?_
  intro p hp q hq hpk hqk
  rw [List.map_map] at hp hq
  obtain ⟨c, hc, rfl⟩ := List.mem_map.mp hp
  obtain ⟨c', hc', rfl⟩ := List.mem_map.mp hq
  exact hfield c hc c' hc' hpk hqk

theorem materialReading_permuted (hfree : OrderFree rt input)
    {representatives : List RawCandidateRecord}
    (hpacks : packRepresentatives rt input = .ok representatives) :
    MaterialReading rt input input' representatives where
  offers := by
    intro record hrecord
    unfold offerIndex
    rw [← (recallReading_permuted h).aliasMap_eq]
    refine Dict.get?_ofList_perm (h.offers.map _) ?_
    intro p hp q hq hpk hqk
    obtain ⟨o, ho, rfl⟩ := List.mem_map.mp hp
    obtain ⟨o', ho', rfl⟩ := List.mem_map.mp hq
    exact hfree.offers representatives hpacks record hrecord o ho o' ho' hpk hqk
  bundles := by
    intro root hroot
    refine aggregatePreferenceFacts_congr (fun hlen r hr fact hfact => ?_)
    exact aggregationOf_permuted h
      (hfree.aggregations representatives hpacks root hroot hlen r hr fact hfact)

theorem dimensionReading_permuted
    (hkey : KeyOn (fun o => toLex (o.subjectId, o.criterionId)) input.outcomeValues) :
    DimensionReading input input' where
  criteria := by
    intro action
    unfold applicableCriteria
    rw [sortedBy_congr_perm h.preferences (KeyOn.of_nodup input.preferences_nodup)]
    simp only [h.sourcesActive]
  outcomes := by
    intro subject criterion
    have hactive : (activeOutcomes input).Perm (activeOutcomes input') := by
      unfold activeOutcomes
      simp only [h.sourcesActive]
      exact h.outcomeValues.filter _
    refine Dict.get?_ofList_perm (hactive.map _) ?_
    intro p hp q hq hpk hqk
    obtain ⟨o, ho, rfl⟩ := List.mem_map.mp hp
    obtain ⟨o', ho', rfl⟩ := List.mem_map.mp hq
    refine hkey o (List.mem_of_mem_filter ho) o' (List.mem_of_mem_filter ho') ?_
    exact congrArg toLex (hpk.trans hqk.symm)
  riskRules := sortedBy_congr_perm h.riskRules (KeyOn.of_nodup input.riskRules_nodup)
  riskRuleSetComplete := h.riskRuleSetComplete

theorem currentMaterials_permuted : currentMaterials input = currentMaterials input' := by
  refine sortedBy_congr_perm (h.currentActions.map _) ?_
  intro m hm m' hm' hkey
  obtain ⟨a, ha, rfl⟩ := List.mem_map.mp hm
  obtain ⟨b, hb, rfl⟩ := List.mem_map.mp hm'
  have hid : a.actionId = b.actionId :=
    congrArg (fun key => (ofLex (ofLex key).2).2) hkey
  rw [KeyOn.of_nodup input.currentActions_nodup a ha b hb hid]

theorem evidencePairs_permuted (recallResult : RecallResult) (pair : EvidencePair) :
    pair ∈ evidencePairs input recallResult ↔ pair ∈ evidencePairs input' recallResult := by
  have hcriteria : ∀ o, outcomePairs
      (Dict.ofList (input.preferences.map (fun c => (c.criterionId, c.field)))) o =
        outcomePairs (Dict.ofList (input'.preferences.map (fun c => (c.criterionId, c.field)))) o := by
    intro o
    unfold outcomePairs
    rw [Dict.get?_ofList_perm (h.preferences.map _)]
    refine Dict.ConsistentAt.of_nodup ?_ o.criterionId
    rw [List.map_map]
    exact input.preferences_nodup
  simp only [evidencePairs, List.mem_append, List.mem_flatMap, hcriteria, h.currentActions.mem_iff,
    h.outcomeValues.mem_iff]

theorem planReading_permuted {material : PlanMaterial}
    (hvalues : ∀ gate ∈ applicableGates input material, gate.isSeller = true →
      ∀ predicate ∈ gate.predicates, ∀ fact ∈ activeBuyerFacts input,
        ∀ fact' ∈ activeBuyerFacts input, fact.field = predicate.field →
          fact'.field = predicate.field → fact.value = fact'.value) :
    PlanReading rt input input' material where
  gates := by
    refine ⟨?_, fun gate hgate hseller predicate hpredicate => ?_⟩
    · unfold applicableGates gateApplies
      rw [sortedBy_congr_perm h.gates (KeyOn.of_nodup input.gates_nodup)]
      simp only [h.sourcesActive]
    · refine Dict.get?_ofList_perm (h.activeBuyerFacts.map _) ?_
      intro p hp q hq hpk hqk
      obtain ⟨fact, hfact, rfl⟩ := List.mem_map.mp hp
      obtain ⟨fact', hfact', rfl⟩ := List.mem_map.mp hq
      exact hvalues gate hgate hseller predicate hpredicate fact hfact fact' hfact' hpk hqk
  hardGates := by
    intro assessments gates _
    have hids : ∀ id, id ∈ (input.gates.filter GateRule.isSeller).map (·.gateId) ↔
        id ∈ (input'.gates.filter GateRule.isSeller).map (·.gateId) :=
      fun id => ((h.gates.filter _).map _).mem_iff
    unfold activeHardGates
    simp only [List.contains_eq_mem, hids]

theorem pipelineReading_permuted (hfree : OrderFree rt input) : PipelineReading rt input input' where
  recallResult := recallReading_permuted h
  pair := pairReading_permuted h
  materials := fun _ hpacks => materialReading_permuted h hfree hpacks
  dimensions := dimensionReading_permuted h hfree.outcomes
  current := currentMaterials_permuted h
  pairs := fun recallResult _ => evidencePairs_permuted h recallResult
  plans := fun recallResult hrecall materials hmaterials material hmaterial =>
    planReading_permuted h
    (hfree.buyerValues recallResult hrecall materials hmaterials material hmaterial)

theorem evaluationReading_permuted
    (hkey : KeyOn (fun o => toLex (o.subjectId, o.criterionId)) input.outcomeValues) :
    EvaluationReading input input' where
  versions := h.versions
  removed := h.removed
  artifacts := by
    have hfacts := sortedBy_congr_perm h.activeBuyerFacts
      ((KeyOn.of_nodup input.buyerFacts_nodup).filter _)
    unfold frozenArtifacts
    rw [hfacts, sortedBy_congr_perm h.candidates (KeyOn.of_nodup input.candidates_nodup),
      sortedBy_congr_perm h.currentActions (KeyOn.of_nodup input.currentActions_nodup),
      sortedBy_congr_perm h.evidence (KeyOn.of_nodup input.evidence_nodup),
      sortedBy_congr_perm h.evidencePolicies (KeyOn.of_nodup input.evidencePolicies_nodup),
      sortedBy_congr_perm h.gates (KeyOn.of_nodup input.gates_nodup),
      sortedBy_congr_perm h.offers (KeyOn.of_nodup input.offers_nodup),
      sortedBy_congr_perm h.outcomeValues hkey,
      sortedBy_congr_perm h.preferences (KeyOn.of_nodup input.preferences_nodup),
      sortedBy_congr_perm h.riskRules (KeyOn.of_nodup input.riskRules_nodup),
      h.actorConflictResolutions, h.identityNormalization, h.recallPolicy, h.riskRuleSetComplete]

theorem evaluateDecisionGraphOnce_permuted (hfree : OrderFree rt input) (evaluationId : String)
    (generatedAt : Datetime) :
    evaluateDecisionGraphOnce rt input evaluationId generatedAt =
      evaluateDecisionGraphOnce rt input' evaluationId generatedAt :=
  evaluateDecisionGraphOnce_congr (pipelineReading_permuted h hfree)
    (evaluationReading_permuted h hfree.outcomes) evaluationId generatedAt

theorem evaluate_removing_permuted (hfree : OrderFree rt input) {removed removed' : List String}
    (hremoved : ∀ id, id ∈ removed ↔ id ∈ removed') (evaluationId : String)
    (generatedAt : Datetime) :
    evaluateDecisionGraphOnce rt (input.removing removed) evaluationId generatedAt =
      evaluateDecisionGraphOnce rt (input'.removing removed') evaluationId generatedAt := by
  have hids : input.removedPrivateFactIds.union removed =
      input'.removedPrivateFactIds.union removed' := by
    refine SortedTuple.ext_mem (fun id => ?_)
    rw [SortedTuple.mem_items_union, SortedTuple.mem_items_union, h.removed, hremoved]
  unfold DecisionGraphInput.removing
  rw [← hids]
  refine evaluateDecisionGraphOnce_permuted (h.withRemoved _) (hfree.withRemoved ?_) _ _
  intro id hid
  exact SortedTuple.mem_items_union.mpr (Or.inl hid)

theorem activePrivateIds_permuted : activePrivateIds input = activePrivateIds input' := by
  unfold activePrivateIds
  rw [h.removed]
  refine sortedBy_congr_perm ((h.buyerFacts.filter _).map _) ?_
  intro a _ b _ hab
  exact hab

end Permuted

/-- Without collisions, the order of the tuples of an input reaches nothing that an
    evaluation returns or raises: plans, ranking, selection and all hashes are the same. -/
theorem evaluateDecisionGraph_permuted (h : Permuted input input') (hfree : OrderFree rt input)
    (evaluationId : String) (generatedAt : Datetime) (limit : Nat) :
    evaluateDecisionGraph rt input evaluationId generatedAt limit =
      evaluateDecisionGraph rt input' evaluationId generatedAt limit := by
  have hgeneric : evaluateDecisionGraphOnce rt input.genericInput "generic_evaluation_id"
      generatedAt = evaluateDecisionGraphOnce rt input'.genericInput "generic_evaluation_id"
        generatedAt :=
    evaluate_removing_permuted h hfree
      (fun id => ((h.buyerFacts.filter _).map (·.factId)).mem_iff) _ _
  have hsearch : ∀ base generic, searchPrivateFactCounterfactuals rt input base generic limit =
      searchPrivateFactCounterfactuals rt input' base generic limit := by
    intro base generic
    have hrerun : rerun rt input base = rerun rt input' base := by
      funext removed
      unfold rerun
      rw [evaluate_removing_permuted h hfree (fun _ => Iff.rfl)]
    unfold searchPrivateFactCounterfactuals
    rw [activePrivateIds_permuted h, hrerun]
  unfold evaluateDecisionGraph
  rw [evaluateDecisionGraphOnce_permuted h hfree, hgeneric]
  simp only [hsearch]

/-! ## Two observations of one outcome -/

namespace Sample

/-- A second observation of the same outcome, with the opposite value. -/
def doubted : OutcomeObservation where
  subjectId := "alpha"
  criterionId := "uptime"
  value := 0
  evidenceIds := .of ["e1"]
  sourceFactIds := .of ["team_size"]

def observedLast : DecisionGraphInput :=
  { Sample.input with outcomeValues := [doubted, observed] }

def doubtedLast : DecisionGraphInput :=
  { Sample.input with outcomeValues := [observed, doubted] }

/-- The sample with its actions in the other order. -/
def swappedActions : DecisionGraphInput :=
  { Sample.input with
    currentActions := [keep, reuse]
    currentActions_nodup := by decide +kernel }

end Sample

theorem Permuted.refl (input : DecisionGraphInput) : Permuted input input :=
  ⟨rfl, rfl, rfl, rfl, rfl, rfl, rfl, .refl _, .refl _, .refl _, .refl _, .refl _, .refl _, .refl _,
    .refl _, .refl _, .refl _⟩

/-- The order of two observations decides which plan is selected. -/
theorem observation_order_changes_selection :
    Permuted Sample.observedLast Sample.doubtedLast ∧
    ∃ decision decision',
      evaluateDecisionGraph .ascii Sample.observedLast "base" Sample.now 1 = .ok decision ∧
      evaluateDecisionGraph .ascii Sample.doubtedLast "base" Sample.now 1 = .ok decision' ∧
      decision.base.selectedPlanId ≠ decision'.base.selectedPlanId := by
  have hrun : (do
      let decision ← evaluateDecisionGraph .ascii Sample.observedLast "base" Sample.now 1
      let decision' ← evaluateDecisionGraph .ascii Sample.doubtedLast "base" Sample.now 1
      return decide (decision.base.selectedPlanId ≠ decision'.base.selectedPlanId) : Py Bool) =
        .ok true := by decide +kernel
  obtain ⟨decision, hdecision, hrun⟩ := bind_eq_ok.mp hrun
  obtain ⟨decision', hdecision', hrun⟩ := bind_eq_ok.mp hrun
  have hswap : [Sample.doubted, Sample.observed].Perm [Sample.observed, Sample.doubted] :=
    List.Perm.swap _ _ []
  exact ⟨{ Permuted.refl Sample.observedLast with outcomeValues := hswap }, decision, decision',
    hdecision, hdecision', of_decide_eq_true (pure_eq_ok.mp hrun)⟩

theorem orderFree_input : OrderFree .ascii Sample.input where
  buyerValues := by
    intro recallResult _ materials _ material _ gate hgate
    cases mem_sortedBy.mp (List.mem_of_mem_filter hgate)
  offers := by
    intro representatives _ record _ o ho
    cases ho
  outcomes := by
    intro o ho o' ho' _
    rw [List.mem_singleton.mp ho, List.mem_singleton.mp ho']
  aggregations := by
    intro representatives _ root _ _ r _ fact _ c hc c' hc' _ _
    rw [List.mem_singleton.mp hc, List.mem_singleton.mp hc']

theorem evaluateDecisionGraph_permuted_sample :
    Permuted Sample.input Sample.swappedActions ∧ OrderFree .ascii Sample.input ∧
      evaluateDecisionGraph .ascii Sample.input "base" Sample.now 3 =
        evaluateDecisionGraph .ascii Sample.swappedActions "base" Sample.now 3 := by
  have hswap : [Sample.reuse, Sample.keep].Perm [Sample.keep, Sample.reuse] :=
    List.Perm.swap _ _ []
  have hpermuted : Permuted Sample.input Sample.swappedActions :=
    { Permuted.refl Sample.input with currentActions := hswap }
  exact ⟨hpermuted, orderFree_input,
    evaluateDecisionGraph_permuted hpermuted orderFree_input "base" Sample.now 3⟩

end DecisionEngine
