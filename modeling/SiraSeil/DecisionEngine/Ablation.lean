-- SUMMARY: When removing private facts equals deleting them together with every rule and observation that rests on them.
import SiraSeil.DecisionEngine.EvidenceUse
import SiraSeil.Domain.Digests
import SiraSeil.DecisionEngine.GateTruth
import SiraSeil.DecisionEngine.Counterfactual
import SiraSeil.Domain.Hashing

/-!
# Ablation

Removing a fact deactivates the gates, preferences and observations that rest on
it. Gates, scores and outcomes check this one by one; the assessment of evidence
and the aggregation of bundle facts read the full lists. This file deletes what
a removal deactivates, and says when the plans stay the same.
-/

namespace DecisionEngine

open Domain Sorting Raising

variable {rt : Runtime} {input : DecisionGraphInput} {removed : Ids}

/-! ## Deletion -/

/-- Something rests on a removed fact. -/
def restsOn (sourceFactIds removed : Ids) : Bool :=
  sourceFactIds.items.any (fun id => id ∈ removed.items)

/-- The input without the removed facts and without all that rests on them. -/
def DecisionGraphInput.without (input : DecisionGraphInput) (removed : Ids) :
    DecisionGraphInput :=
  { input with
    buyerFacts := input.buyerFacts.filter (fun fact => fact.factId ∉ removed.items)
    gates := input.gates.filter (fun g => !restsOn g.sourceFactIds removed)
    preferences := input.preferences.filter (fun c => !restsOn c.sourceFactIds removed)
    outcomeValues := input.outcomeValues.filter (fun o => !restsOn o.sourceFactIds removed)
    removedPrivateFactIds := .of []
    buyerFacts_nodup := input.buyerFacts_nodup.sublist (List.filter_sublist.map _)
    gates_nodup := input.gates_nodup.sublist (List.filter_sublist.map _)
    preferences_nodup := input.preferences_nodup.sublist (List.filter_sublist.map _) }

theorem activeBuyerFacts_without :
    activeBuyerFacts (input.without removed) = activeBuyerFacts (input.withRemoved removed) := by
  have hnone : ∀ fact : FrozenFact, fact.factId ∉ (SortedTuple.of ([] : List String)).items := by
    intro fact hmem
    cases SortedTuple.mem_items_of.mp hmem
  refine List.filter_eq_self.mpr (fun fact _ => ?_)
  exact decide_eq_true (hnone fact)

theorem activeSourceIds_without :
    activeSourceIds (input.without removed) = activeSourceIds (input.withRemoved removed) := by
  unfold activeSourceIds
  rw [activeBuyerFacts_without]

theorem restsOn_eq_false {sourceFactIds : Ids}
    (h : sourcesActive sourceFactIds (activeSourceIds (input.withRemoved removed)) = true) :
    restsOn sourceFactIds removed = false := by
  refine List.any_eq_false.mpr (fun id hid => ?_)
  have hactive := of_decide_eq_true (List.all_eq_true.mp h id hid)
  obtain ⟨fact, hfact, rfl⟩ := List.mem_map.mp hactive
  have hkept : fact.factId ∉ removed.items := of_decide_eq_true (List.mem_filter.mp hfact).2
  simpa using hkept

theorem filter_restsOn {α : Type} {sources : α → Ids} {active : α → Bool} {l : List α}
    (h : ∀ a ∈ l, active a = true →
      sourcesActive (sources a) (activeSourceIds (input.withRemoved removed)) = true) :
    (l.filter (fun a => !restsOn (sources a) removed)).filter active = l.filter active := by
  rw [List.filter_filter]
  refine List.filter_congr (fun a ha => ?_)
  cases hactive : active a with
  | false => rfl
  | true => simp [restsOn_eq_false (h a ha hactive)]

/-! ## What the stages read -/

theorem recallReading_without : RecallReading (input.withRemoved removed) (input.without removed) :=
  ⟨rfl, rfl, rfl⟩

theorem applicableGates_without (material : PlanMaterial) :
    applicableGates (input.withRemoved removed) material =
      applicableGates (input.without removed) material := by
  have hsorted : sortedBy (·.gateId) (input.without removed).gates =
      (sortedBy (·.gateId) input.gates).filter (fun g => !restsOn g.sourceFactIds removed) :=
    (filter_sortedBy (KeyOn.of_nodup input.gates_nodup) _).symm
  unfold applicableGates
  rw [hsorted, activeSourceIds_without, filter_restsOn]
  · rfl
  · intro gate _ happlies
    unfold gateApplies at happlies
    simp only [Bool.and_eq_true] at happlies
    exact happlies.1.1

theorem gateReading_without (material : PlanMaterial) :
    GateReading (input.withRemoved removed) (input.without removed) material where
  gates := applicableGates_without material
  buyerValues := by
    intro gate _ _ predicate _
    unfold buyerValueMap
    rw [activeBuyerFacts_without]

theorem applicableCriteria_without (action : SolutionAction) :
    applicableCriteria (input.withRemoved removed) action =
      applicableCriteria (input.without removed) action := by
  have hsorted : sortedBy (·.criterionId) (input.without removed).preferences =
      (sortedBy (·.criterionId) input.preferences).filter
        (fun c => !restsOn c.sourceFactIds removed) :=
    (filter_sortedBy (KeyOn.of_nodup input.preferences_nodup) _).symm
  unfold applicableCriteria
  rw [hsorted, activeSourceIds_without, filter_restsOn]
  · rfl
  · intro criterion _ happlies
    simp only [Bool.and_eq_true] at happlies
    exact happlies.2

theorem activeOutcomes_without :
    activeOutcomes (input.withRemoved removed) = activeOutcomes (input.without removed) := by
  unfold activeOutcomes
  rw [activeSourceIds_without]
  exact (filter_restsOn (fun _ _ hactive => hactive)).symm

theorem dimensionReading_without :
    DimensionReading (input.withRemoved removed) (input.without removed) where
  criteria := applicableCriteria_without
  outcomes := by
    intro subject criterion
    unfold outcomeValue
    rw [activeOutcomes_without]
  riskRules := rfl
  riskRuleSetComplete := rfl

/-! ## Hard gates -/

/-- A seller rule that is deleted has the id of a dependency gate, which is then no
    longer taken for a seller's. -/
def HidesDependency (input : DecisionGraphInput) (removed : Ids) (material : PlanMaterial) : Prop :=
  ∃ gate ∈ input.gates, gate.isSeller = true ∧ restsOn gate.sourceFactIds removed = true ∧
    ∃ result ∈ dependencyGates material, result.gateId = gate.gateId

theorem startsWith_append (start s : String) : startsWith (start ++ s) start = true := by
  unfold startsWith
  rw [String.toList_append, List.isPrefixOf_iff_prefix]
  exact List.prefix_append _ _

theorem deleted_gateId_ne {material : PlanMaterial} {gate deleted : GateRule}
    (hgate : gate ∈ applicableGates (input.withRemoved removed) material)
    (hdeleted : deleted ∈ input.gates) (hrests : restsOn deleted.sourceFactIds removed = true) :
    gate.gateId ≠ deleted.gateId := by
  intro hsame
  obtain ⟨hin, happlies⟩ := List.mem_filter.mp hgate
  have hgates : gate ∈ input.gates := mem_sortedBy.mp hin
  obtain rfl := KeyOn.of_nodup input.gates_nodup gate hgates deleted hdeleted hsame
  unfold gateApplies at happlies
  simp only [Bool.and_eq_true] at happlies
  rw [restsOn_eq_false happlies.1.1] at hrests
  cases hrests

theorem activeHardGates_without {material : PlanMaterial} {assessments : List EvidenceAssessment}
    {gates : List GateResult}
    (h : evaluateGates rt (input.withRemoved removed) material assessments = .ok gates)
    (hhides : ¬ HidesDependency input removed material) :
    activeHardGates (input.withRemoved removed) gates =
      activeHardGates (input.without removed) gates := by
  unfold activeHardGates
  refine List.filter_congr (fun result hresult => ?_)
  -- The two sides can differ only where a deleted seller rule has the id of the result.
  have hsub : result.gateId ∈ ((input.without removed).gates.filter GateRule.isSeller).map
      (·.gateId) → result.gateId ∈ (input.gates.filter GateRule.isSeller).map (·.gateId) := by
    intro hmem
    obtain ⟨gate, hgate, hid⟩ := List.mem_map.mp hmem
    obtain ⟨hkept, hseller⟩ := List.mem_filter.mp hgate
    exact List.mem_map.mpr ⟨gate, List.mem_filter.mpr ⟨List.mem_of_mem_filter hkept, hseller⟩, hid⟩
  have hsup : startsWith result.gateId "availability_" = false →
      startsWith result.gateId "authority_" = false →
      result.gateId ∈ (input.gates.filter GateRule.isSeller).map (·.gateId) →
      result.gateId ∈ ((input.without removed).gates.filter GateRule.isSeller).map (·.gateId) := by
    intro havailability hauthority hmem
    obtain ⟨gate, hgate, hid⟩ := List.mem_map.mp hmem
    obtain ⟨hin, hseller⟩ := List.mem_filter.mp hgate
    cases hrests : restsOn gate.sourceFactIds removed with
    | false =>
      refine List.mem_map.mpr ⟨gate, List.mem_filter.mpr ⟨List.mem_filter.mpr ⟨hin, ?_⟩, hseller⟩, hid⟩
      rw [hrests]
      rfl
    | true =>
      rcases (mem_evaluateGates h).mp hresult with rfl | hdependency | hauth | ⟨rule, hrule, hrun⟩
      · rw [availabilityGate, startsWith_append] at havailability
        cases havailability
      · exact absurd ⟨gate, hin, hseller, hrests, result, hdependency, hid.symm⟩ hhides
      · unfold authorityGate at hauth
        split at hauth
        · cases hauth
        · cases hauth
        · cases hauth
          rw [startsWith_append] at hauthority
          cases hauthority
      · exact absurd ((evaluateGate_gateId hrun).symm.trans hid.symm)
          (deleted_gateId_ne hrule hin hrests)
  cases havailability : startsWith result.gateId "availability_" with
  | true => rfl
  | false =>
    cases hauthority : startsWith result.gateId "authority_" with
    | true => rfl
    | false =>
      have hiff := Iff.intro (hsup havailability hauthority) hsub
      simp only [Bool.not_false, Bool.true_and, List.contains_eq_mem]
      exact congrArg not (decide_eq_decide.mpr hiff)

/-! ## Evidence pairs -/

theorem evidencePairs_without (recallResult : RecallResult) {pair : EvidencePair}
    (h : pair ∈ evidencePairs (input.without removed) recallResult) :
    pair ∈ evidencePairs input recallResult := by
  simp only [evidencePairs, List.mem_append] at h ⊢
  refine h.imp_right (fun houtcome => ?_)
  obtain ⟨o, ho, hpair⟩ := List.mem_flatMap.mp houtcome
  refine List.mem_flatMap.mpr ⟨o, List.mem_of_mem_filter ho, ?_⟩
  have hunique : Dict.ConsistentAt (input.preferences.map (fun c => (c.criterionId, c.field)))
      o.criterionId := by
    refine Dict.ConsistentAt.of_nodup ?_ o.criterionId
    rw [List.map_map]
    exact input.preferences_nodup
  unfold outcomePairs at hpair ⊢
  split at hpair
  · cases hpair
  · rename_i field hfield
    obtain ⟨c, hc, hsame⟩ := List.mem_map.mp (Dict.mem_of_get?_ofList hfield)
    have hmem : (o.criterionId, field) ∈ input.preferences.map (fun c => (c.criterionId, c.field)) :=
      List.mem_map.mpr ⟨c, List.mem_of_mem_filter hc, hsame⟩
    rw [(Dict.get?_ofList_eq_some_iff hunique).mpr hmem]
    exact hpair

/-- What a removal leaves in place is not read: the evidence that only removed
    observations or preferences bring in is assessed without an error and cited by
    nothing that is kept, no bundle has a fact on a field whose aggregation changes, and
    no deleted seller rule has the id of a dependency gate. -/
structure Unread (rt : Runtime) (input : DecisionGraphInput) (removed : Ids) : Prop where
  evidence : ∀ recallResult, recallAndDeduplicate rt input = .ok recallResult →
    ∀ pair ∈ evidencePairs input recallResult,
      pair ∉ evidencePairs (input.without removed) recallResult →
      (∃ a, assessPair rt input pair = .ok a) ∧
        (ofLex pair).1 ∉ citedEvidence (input.without removed) recallResult
  bundles : ∀ representatives, packRepresentatives rt input = .ok representatives →
    ∀ root ∈ representatives, 1 < (closure representatives root).1.length →
      ∀ r ∈ (closure representatives root).1, ∀ fact ∈ r.facts,
        aggregationOf input fact.field = aggregationOf (input.without removed) fact.field
  dependencies : ∀ recallResult, recallAndDeduplicate rt input = .ok recallResult →
    ∀ materials, planMaterials rt input recallResult = .ok materials →
      ∀ material ∈ materials, ¬ HidesDependency input removed material

theorem assessEvidence_without {recallResult : RecallResult}
    (hok : ∀ pair ∈ evidencePairs input recallResult,
      pair ∉ evidencePairs (input.without removed) recallResult →
        ∃ a, assessPair rt input pair = .ok a) :
    assessEvidence rt (input.without removed) recallResult =
      List.filter (fun a => decide ((toLex (a.evidenceId, a.field) : EvidencePair) ∈
        evidencePairs (input.without removed) recallResult)) <$>
          assessEvidence rt (input.withRemoved removed) recallResult := by
  have hpairs : sortedSet (evidencePairs (input.without removed) recallResult) =
      (sortedSet (evidencePairs input recallResult)).filter
        (fun pair => decide (pair ∈ evidencePairs (input.without removed) recallResult)) := by
    refine eq_of_pairwise_lt (sortedSet_pairwise_lt _) ((sortedSet_pairwise_lt _).filter _) ?_
    intro pair
    simp only [mem_sortedSet, List.mem_filter, decide_eq_true_eq]
    exact ⟨fun h => ⟨evidencePairs_without recallResult h, h⟩, And.right⟩
  unfold assessEvidence
  rw [hpairs]
  refine mapM_filter ?_ ?_
  · intro pair hpair hleft
    exact hok pair (mem_sortedSet.mp hpair) (of_decide_eq_false hleft)
  · intro pair _ a ha
    rw [assessPair_pair ha]

/-! ## Ablation and absence -/

theorem assessments_agreeOn_without (h : Unread rt input removed) {recallResult : RecallResult}
    (hrecall : recallAndDeduplicate rt input = .ok recallResult)
    {assessments : List EvidenceAssessment}
    (hassessments : assessEvidence rt (input.withRemoved removed) recallResult = .ok assessments) :
    AgreeOn (citedEvidence (input.without removed) recallResult) assessments
      (assessments.filter (fun a => decide ((toLex (a.evidenceId, a.field) : EvidencePair) ∈
        evidencePairs (input.without removed) recallResult))) := by
  unfold AgreeOn
  rw [List.filter_filter]
  refine List.filter_congr (fun a ha => ?_)
  obtain ⟨pair, hpair, hassess⟩ := (mem_of_mapM_eq_ok hassessments).mp ha
  have hmem : (toLex (a.evidenceId, a.field) : EvidencePair) ∈
      evidencePairs input recallResult := by
    rw [assessPair_pair hassess]
    exact mem_sortedSet.mp hpair
  rw [← Bool.decide_and]
  refine decide_eq_decide.mpr ⟨fun hcited => ⟨hcited, ?_⟩, And.left⟩
  by_contra hleft
  exact (h.evidence recallResult hrecall _ hmem hleft).2 hcited

theorem buildSolutionPlans_without (h : Unread rt input removed) {recallResult : RecallResult}
    (hrecall : recallAndDeduplicate rt input = .ok recallResult)
    (assessments : List EvidenceAssessment) :
    buildSolutionPlans rt (input.withRemoved removed) recallResult assessments =
      buildSolutionPlans rt (input.without removed) recallResult assessments := by
  have hpacks : packMaterials rt (input.withRemoved removed) recallResult =
      packMaterials rt (input.without removed) recallResult := by
    refine packMaterials_congr recallReading_without hrecall (fun representatives hpacks => ?_)
    refine ⟨fun _ _ => rfl, fun root hroot => aggregatePreferenceFacts_congr ?_⟩
    exact h.bundles representatives hpacks root hroot
  refine buildSolutionPlans_congr dimensionReading_without hpacks rfl ?_
  intro materials hmaterials material hmaterial
  refine ⟨gateReading_without material, fun assessments gates hgates => ?_⟩
  exact activeHardGates_without hgates
    (h.dependencies recallResult hrecall materials hmaterials material hmaterial)

/-- Where a removal leaves nothing to read, the stages end in the same plans and the
    same ranking as after a deletion, or in the same error. -/
theorem runPipeline_without (h : Unread rt input removed) :
    (fun p => (p.plans, p.ranking)) <$> runPipeline rt (input.withRemoved removed) =
      (fun p => (p.plans, p.ranking)) <$> runPipeline rt (input.without removed) := by
  unfold runPipeline
  rw [← recallAndDeduplicate_congr (@recallReading_without input removed)]
  cases hrecall : recallAndDeduplicate rt (input.withRemoved removed) with
  | error e => rfl
  | ok recallResult =>
    have hok := fun pair hpair hleft => (h.evidence recallResult hrecall pair hpair hleft).1
    simp only [ok_bind, assessEvidence_without hok]
    cases hassessments : assessEvidence rt (input.withRemoved removed) recallResult with
    | error e => rfl
    | ok assessments =>
      have hplans := (buildSolutionPlans_without h hrecall assessments).trans
        (buildSolutionPlans_agreeOn (assessments_agreeOn_without h hrecall hassessments))
      simp only [ok_bind, hplans, Functor.map, Except.map]
      cases buildSolutionPlans rt (input.without removed) recallResult (assessments.filter
        (fun a => decide ((toLex (a.evidenceId, a.field) : EvidencePair) ∈
          evidencePairs (input.without removed) recallResult))) with
      | error e => rfl
      | ok built =>
        simp only [ok_bind]
        cases rankAndFrontiers built with
        | error e => rfl
        | ok ranked => rfl

/-- Removing facts gives the plans, the ranking and the selection that deleting them
    with all that rests on them gives. -/
theorem ablation_eq_absence (h : Unread rt input removed) {id id' : String} {at_ at' : Datetime}
    {evaluation evaluation' : DecisionGraphEvaluation}
    (hremoved : evaluateDecisionGraphOnce rt (input.withRemoved removed) id at_ = .ok evaluation)
    (hwithout : evaluateDecisionGraphOnce rt (input.without removed) id' at' = .ok evaluation') :
    evaluation.plans = evaluation'.plans ∧
      evaluation.rankedPlanIds = evaluation'.rankedPlanIds ∧
      evaluation.selectedPlanId = evaluation'.selectedPlanId := by
  obtain ⟨pipeline, hpipeline, _, -, _, -, _, -, rfl⟩ := evaluateDecisionGraphOnce_eq_ok.mp hremoved
  obtain ⟨pipeline', hpipeline', _, -, _, -, _, -, rfl⟩ := evaluateDecisionGraphOnce_eq_ok.mp hwithout
  have hsame := runPipeline_without h
  rw [hpipeline, hpipeline'] at hsame
  obtain ⟨hplans, hranking⟩ := Prod.mk.inj (Except.ok.inj hsame)
  refine ⟨hplans, congrArg Ranking.rankedIds hranking, ?_⟩
  exact congrArg (fun ranking => ranking.rankedIds.head?) hranking

/-! ## Evidence of a removed observation -/

namespace Sample

/-- Evidence from half an hour before the evaluation. -/
def agedEvidence : EvidenceRecord where
  evidenceId := "e2"
  recordId := "log"
  sourceClass := "AUDIT"
  verificationMethod := "LOG"
  verificationScope := "global"
  reconstructable := true
  observedAtLower := some ⟨1699998200000000, true⟩
  observedAtUpper := some ⟨1699998200000000, true⟩

def agedFact : ProductFact where
  field := "hosting"
  value := .str "cloud"
  evidenceIds := .of ["e2"]

def agedAction : CurrentActionRecord where
  actionId := "a5"
  action := .renew
  instanceId := "epsilon"
  facts := [agedFact]
  cost := cost

/-- Hosting may be ten times as old as an outcome. -/
def patientHostingPolicy : EvidencePolicy where
  field := "hosting"
  allowedSourceClasses := ["AUDIT"]
  allowedVerificationMethods := ["LOG"]
  requiredScope := "global"
  freshnessSlaSeconds := 36000

/-- An outcome that rests on the private fact and on the evidence of the action. -/
def agedObservation : OutcomeObservation where
  subjectId := "epsilon"
  criterionId := "uptime"
  value := 1
  evidenceIds := .of ["e2"]
  sourceFactIds := .of ["team_size"]

def ablationInput : DecisionGraphInput :=
  { Sample.input with
    evidence := [agedEvidence]
    evidencePolicies := [policy, patientHostingPolicy]
    currentActions := [agedAction]
    outcomeValues := [agedObservation]
    evidence_nodup := by decide +kernel
    evidencePolicies_nodup := by decide +kernel
    currentActions_nodup := by decide +kernel }

end Sample

/-- The evidence age of a plan as the outcome policy sees it. -/
def halfSpent (evaluation : DecisionGraphEvaluation) : Bool :=
  evaluation.plans.any (fun plan => decide (plan.dimensions.maximumEvidenceAgeRatio.upper = 1 / 2))

/-- The removed observation still ages the evidence of the plan; deleted, it does not. -/
theorem removed_observation_ages_evidence :
    ∃ evaluation evaluation',
      evaluateDecisionGraphOnce .ascii (Sample.ablationInput.withRemoved (.of ["team_size"])) "base"
        Sample.now = .ok evaluation ∧
      evaluateDecisionGraphOnce .ascii (Sample.ablationInput.without (.of ["team_size"])) "base"
        Sample.now = .ok evaluation' ∧
      evaluation.plans ≠ evaluation'.plans := by
  have hremoved : (evaluateDecisionGraphOnce .ascii
      (Sample.ablationInput.withRemoved (.of ["team_size"])) "base" Sample.now).toOption.any
        halfSpent = true := by
    rw [Runtime.ascii_eq]
    decide +kernel
  have hwithout : (evaluateDecisionGraphOnce .ascii
      (Sample.ablationInput.without (.of ["team_size"])) "base" Sample.now).toOption.any
        (fun evaluation => !halfSpent evaluation) = true := by
    rw [Runtime.ascii_eq]
    decide +kernel
  obtain ⟨evaluation, hevaluation, hspent⟩ := exists_of_toOption_any hremoved
  obtain ⟨evaluation', hevaluation', hunspent⟩ := exists_of_toOption_any hwithout
  refine ⟨evaluation, evaluation', hevaluation, hevaluation', fun hplans => ?_⟩
  unfold halfSpent at hspent hunspent
  rw [← hplans, hspent] at hunspent
  cases hunspent

theorem unread_input : Unread .ascii Sample.input (.of ["team_size"]) where
  evidence := by
    have hrun : (recallAndDeduplicate .ascii Sample.input).toOption.all (fun recallResult =>
        (evidencePairs Sample.input recallResult).all (fun pair =>
          (assessPair .ascii Sample.input pair).isOk &&
            !decide ((ofLex pair).1 ∈
              citedEvidence (Sample.input.without (.of ["team_size"])) recallResult))) = true := by
      decide +kernel
    intro recallResult hrecall pair hpair _
    rw [hrecall] at hrun
    have hchecks := List.all_eq_true.mp hrun pair hpair
    simp only [Bool.and_eq_true, Bool.not_eq_true', decide_eq_false_iff_not] at hchecks
    exact ⟨exists_of_isOk hchecks.1, hchecks.2⟩
  bundles := by
    have hrun : (packRepresentatives .ascii Sample.input).toOption.all List.isEmpty = true := by
      decide +kernel
    intro representatives hpacks root hroot
    rw [hpacks] at hrun
    rw [List.isEmpty_iff.mp hrun] at hroot
    cases hroot
  dependencies := by
    rintro recallResult - materials - material - ⟨gate, hgate, -⟩
    cases hgate

theorem ablation_eq_absence_sample :
    Unread .ascii Sample.input (.of ["team_size"]) ∧
    ∃ evaluation evaluation',
      evaluateDecisionGraphOnce .ascii (Sample.input.withRemoved (.of ["team_size"])) "base"
        Sample.now = .ok evaluation ∧
      evaluateDecisionGraphOnce .ascii (Sample.input.without (.of ["team_size"])) "base"
        Sample.now = .ok evaluation' ∧
      evaluation.plans = evaluation'.plans := by
  have hremoved : (evaluateDecisionGraphOnce .ascii
      (Sample.input.withRemoved (.of ["team_size"])) "base" Sample.now).isOk = true := by
    rw [Runtime.ascii_eq]
    decide +kernel
  have hwithout : (evaluateDecisionGraphOnce .ascii
      (Sample.input.without (.of ["team_size"])) "base" Sample.now).isOk = true := by
    rw [Runtime.ascii_eq]
    decide +kernel
  obtain ⟨evaluation, hevaluation⟩ := exists_of_isOk hremoved
  obtain ⟨evaluation', hevaluation'⟩ := exists_of_isOk hwithout
  exact ⟨unread_input, evaluation, evaluation', hevaluation, hevaluation',
    (ablation_eq_absence unread_input hevaluation hevaluation').1⟩

end DecisionEngine
