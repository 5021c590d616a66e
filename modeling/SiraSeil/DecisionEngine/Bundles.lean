-- SUMMARY: How the gate result of a bundle relates to the results of its components, and when a blocked component is hidden.
import SiraSeil.DecisionEngine.GateTruth
import SiraSeil.Domain.Digests

/-!
# Bundles and their components

A bundle is read component by component, so a component alone reads as its part
of the bundle. A required match that fails for a component therefore fails, or
stays open, for the bundle. A blocking match does not carry over: one component
on which a predicate fails clears the whole bundle.
-/

namespace DecisionEngine

open Domain Sorting Raising

variable {rt : Runtime} {gate : GateRule} {material : PlanMaterial}
  {values : Dict String FactValue} {index : AssessmentIndex} {predicate : Predicate}

/-! ## A component on its own -/

/-- The plan that consists of one component, with the facts of that component only. -/
def PlanMaterial.alone (material : PlanMaterial) (componentId : String) : PlanMaterial :=
  { material with
    componentIds := [componentId]
    gateFacts := componentGateFacts material componentId }

theorem componentGateFacts_alone (componentId other : String) :
    componentGateFacts (material.alone componentId) other =
      componentGateFacts material componentId := by
  unfold componentGateFacts PlanMaterial.alone
  rfl

variable {componentId : String}

theorem componentFieldStates_alone {field : String} {states : List FieldState} :
    componentFieldStates rt (material.alone componentId) field index = .ok states ↔
      ∃ state, fieldState rt (componentGateFacts material componentId) field index = .ok state ∧
        states = [state] := by
  have hids : (material.alone componentId).componentIds = [componentId] := rfl
  unfold componentFieldStates
  rw [mapM_eq_ok, hids]
  simp only [componentGateFacts_alone, List.forall₂_cons_left_iff, List.forall₂_nil_left_iff]
  constructor
  · rintro ⟨state, rest, hstate, rfl, rfl⟩
    exact ⟨state, hstate, rfl⟩
  · rintro ⟨state, hstate, rfl⟩
    exact ⟨state, [], hstate, rfl, rfl⟩

theorem mem_componentFieldStates {field : String} {states : List FieldState} {state : FieldState}
    (hmem : componentId ∈ material.componentIds)
    (hstates : componentFieldStates rt material field index = .ok states)
    (hstate : fieldState rt (componentGateFacts material componentId) field index = .ok state) :
    state ∈ states :=
  (mem_of_mapM_eq_ok hstates).mpr ⟨componentId, hmem, hstate⟩

theorem Reads.truth_mem {truth : Bool} {truths : List Bool} (hbuyer : gate.isSeller = false)
    (hmem : componentId ∈ material.componentIds)
    (halone : Reads rt gate (material.alone componentId) values index predicate (.decided [truth]))
    (hbundle : Reads rt gate material values index predicate (.decided truths)) :
    truth ∈ truths := by
  cases halone with
  | value hseller _ _ => simp [hbuyer] at hseller
  | resolved _ hstates htruths =>
    obtain ⟨state, hstate, rfl⟩ := componentFieldStates_alone.mp hstates
    obtain ⟨-, value, hvalue, hmatch⟩ := (List.forall₂_cons.mp htruths).1
    cases hbundle with
    | value hseller _ _ => simp [hbuyer] at hseller
    | @resolved states _ _ hall hreads =>
      have hin : state ∈ states := mem_componentFieldStates hmem hall hstate
      obtain ⟨i, hi, hget⟩ := List.mem_iff_getElem.mp hin
      have hlen : i < truths.length := hreads.length_eq ▸ hi
      obtain ⟨-, value', hvalue', hmatch'⟩ := hreads.get hi hlen
      simp only [List.get_eq_getElem, hget] at hvalue'
      obtain rfl : value = value' := by simpa [hvalue] using hvalue'
      have hsame : truth = truths[i] := Except.ok.inj (hmatch.symm.trans hmatch')
      rw [hsame]
      exact List.getElem_mem hlen

theorem Reads.single {truths : List Bool}
    (h : Reads rt gate (material.alone componentId) values index predicate (.decided truths)) :
    ∃ truth, truths = [truth] := by
  cases h with
  | value _ _ _ => exact ⟨_, rfl⟩
  | resolved _ hstates htruths =>
    obtain ⟨state, -, rfl⟩ := componentFieldStates_alone.mp hstates
    obtain ⟨truth, rest, -, hrest, rfl⟩ := List.forall₂_cons_left_iff.mp htruths
    cases hrest
    exact ⟨truth, rfl⟩

/-! ## Readings exist where an evaluation returned -/

theorem exists_evaluateGate_of_reads
    (h : ∀ p ∈ gate.predicates, ∃ reading, Reads rt gate material values index p reading) :
    ∃ result, evaluateGate rt gate material values index = .ok result := by
  obtain ⟨traces, htraces⟩ := exists_mapM_eq_ok (fun p hp => by
    obtain ⟨reading, hreads⟩ := h p hp
    obtain ⟨trace, htrace, -⟩ := hreads.exists_trace
    exact ⟨trace, htrace⟩ : ∀ p ∈ gate.predicates,
      ∃ trace, predicateTrace rt gate material values index p = .ok trace)
  simp only [evaluateGate, gateTrace, htraces, ok_bind]
  exact ⟨_, rfl⟩

theorem Reads.unique {r r' : Reading} (h : Reads rt gate material values index predicate r)
    (h' : Reads rt gate material values index predicate r') : r.states = r'.states := by
  obtain ⟨trace, htrace, hstates⟩ := h.exists_trace
  obtain ⟨trace', htrace', hstates'⟩ := h'.exists_trace
  obtain rfl : trace = trace' := Except.ok.inj (htrace.symm.trans htrace')
  exact hstates.symm.trans hstates'

/-! ## Hidden components -/

/-- Every predicate of the gate matches the component on its own. -/
def MatchesAlone (rt : Runtime) (gate : GateRule) (material : PlanMaterial)
    (values : Dict String FactValue) (index : AssessmentIndex) (componentId : String) : Prop :=
  ∀ p ∈ gate.predicates, Reads rt gate (material.alone componentId) values index p (.decided [true])

/-- A blocking gate matches one component outright, while the bundle is cleared by
    another one on which some predicate fails. -/
def HidesComponent (rt : Runtime) (gate : GateRule) (material : PlanMaterial)
    (values : Dict String FactValue) (index : AssessmentIndex) : Prop :=
  gate.mode = .blockOnMatch ∧
    (∃ componentId ∈ material.componentIds, MatchesAlone rt gate material values index componentId) ∧
    ¬ GateConflicts rt gate material values index ∧ GateFails rt gate material values index

theorem not_ruleConflicts (hbuyer : gate.isSeller = false) : ¬ RuleConflicts gate index := by
  unfold RuleConflicts
  simp [hbuyer]

theorem not_ruleUnresolved (hbuyer : gate.isSeller = false) : ¬ RuleUnresolved gate index := by
  unfold RuleUnresolved
  simp [hbuyer]

theorem MatchesAlone.false (hbuyer : gate.isSeller = false) (hmode : gate.mode = .blockOnMatch)
    (h : MatchesAlone rt gate material values index componentId) :
    ∃ own, evaluateGate rt gate (material.alone componentId) values index = .ok own ∧
      own.truth = .false := by
  obtain ⟨own, hown⟩ := exists_evaluateGate_of_reads (fun p hp => ⟨_, h p hp⟩)
  have htrue : ∀ p ∈ gate.predicates, ∀ r, Reads rt gate (material.alone componentId) values index p r →
      r.states = [.true] := fun p hp r hr => hr.unique (h p hp)
  refine ⟨own, hown, (evaluateGate_false_iff hown).mpr ⟨?_, by simp [hmode], fun _ => ⟨?_, ?_⟩⟩⟩
  · rintro (hrule | ⟨p, hp, hreads⟩)
    · exact not_ruleConflicts hbuyer hrule
    · cases htrue p hp _ hreads
  · rintro ⟨p, hp, truths, hreads, hfalse⟩
    have hstates := htrue p hp _ hreads
    have hmem : TruthValue.false ∈ Reading.states (.decided truths) :=
      Reading.false_mem_states.mpr ⟨truths, rfl, hfalse⟩
    rw [hstates] at hmem
    cases List.mem_singleton.mp hmem
  · rintro (hrule | ⟨p, hp, hreads⟩)
    · exact not_ruleUnresolved hbuyer hrule
    · cases htrue p hp _ hreads

theorem matchesAlone_of_false {own : GateResult} (hmode : gate.mode = .blockOnMatch)
    (hown : evaluateGate rt gate (material.alone componentId) values index = .ok own)
    (hfalse : own.truth = .false) : MatchesAlone rt gate material values index componentId := by
  obtain ⟨hclear, -, hblock⟩ := (evaluateGate_false_iff hown).mp hfalse
  obtain ⟨hfails, hopen⟩ := hblock hmode
  intro p hp
  obtain ⟨reading, hreads⟩ := exists_reads_of_evaluateGate hown hp
  cases reading with
  | conflict => exact absurd (Or.inr ⟨p, hp, hreads⟩) hclear
  | unresolved => exact absurd (Or.inr ⟨p, hp, hreads⟩) hopen
  | decided truths =>
    obtain ⟨truth, rfl⟩ := hreads.single
    cases truth with
    | true => exact hreads
    | false => exact absurd ⟨p, hp, _, hreads, by simp⟩ hfails

theorem bundle_not_true_of_require {own result : GateResult} (hbuyer : gate.isSeller = false)
    (hmode : gate.mode = .requireMatch) (hmem : componentId ∈ material.componentIds)
    (hown : evaluateGate rt gate (material.alone componentId) values index = .ok own)
    (hfalse : own.truth = .false)
    (hresult : evaluateGate rt gate material values index = .ok result) : result.truth ≠ .true := by
  intro htrue
  obtain ⟨hclear, hrequire, -⟩ := (evaluateGate_true_iff hresult).mp htrue
  obtain ⟨hpasses, hsettled⟩ := hrequire hmode
  obtain ⟨p, hp, truths, hreads, hin⟩ := ((evaluateGate_false_iff hown).mp hfalse).2.1 hmode
  obtain ⟨truth, rfl⟩ := hreads.single
  obtain ⟨reading, hbundle⟩ := exists_reads_of_evaluateGate hresult hp
  cases reading with
  | conflict => exact hclear (Or.inr ⟨p, hp, hbundle⟩)
  | unresolved => exact hsettled (Or.inr ⟨p, hp, hbundle⟩)
  | decided all =>
    have htruth : truth ∈ all := Reads.truth_mem hbuyer hmem hreads hbundle
    rw [← List.mem_singleton.mp hin] at htruth
    exact hpasses ⟨p, hp, all, hbundle, htruth⟩

/-- A bundle of a buyer gate never hides a component that fails on its own, except
    where a blocking gate matches one component and fails on another. -/
theorem bundle_hides_no_component_iff {result : GateResult} (hbuyer : gate.isSeller = false)
    (hresult : evaluateGate rt gate material values index = .ok result) :
    (∀ componentId ∈ material.componentIds, ∀ own,
      evaluateGate rt gate (material.alone componentId) values index = .ok own →
        own.truth = .false → result.truth ≠ .true) ↔
      ¬ HidesComponent rt gate material values index := by
  constructor
  · rintro hkeeps ⟨hmode, ⟨componentId, hmem, hmatch⟩, hclear, hfails⟩
    obtain ⟨own, hown, hfalse⟩ := hmatch.false hbuyer hmode
    refine hkeeps componentId hmem own hown hfalse ?_
    exact (evaluateGate_true_iff hresult).mpr ⟨hclear, by simp [hmode], fun _ => hfails⟩
  · intro hhides componentId hmem own hown hfalse
    cases hmode : gate.mode with
    | requireMatch => exact bundle_not_true_of_require hbuyer hmode hmem hown hfalse hresult
    | blockOnMatch =>
      intro htrue
      obtain ⟨hclear, -, hblock⟩ := (evaluateGate_true_iff hresult).mp htrue
      exact hhides ⟨hmode, ⟨componentId, hmem, matchesAlone_of_false hmode hown hfalse⟩, hclear,
        hblock hmode⟩

/-! ## A hidden component -/

/-- The evaluation of the sample bundle by its gate: the product on premises is
    blocked alone and cleared as part of the bundle. -/
theorem bundleInput_hides : ∃ recallResult,
    recallAndDeduplicate .ascii Sample.bundleInput = .ok recallResult ∧
    ∃ assessments, assessEvidence .ascii Sample.bundleInput recallResult = .ok assessments ∧
    ∃ materials, packMaterials .ascii Sample.bundleInput recallResult = .ok materials ∧
    ∃ material ∈ materials, material.dependencyIssues = [] ∧ "crm" ∈ material.componentIds ∧
      (∃ own, evaluateGate .ascii Sample.noOnPremises (material.alone "crm")
        (buyerValueMap Sample.bundleInput) (assessmentIndex assessments) = .ok own ∧
          own.truth = .false) ∧
      (∃ result, evaluateGate .ascii Sample.noOnPremises material
        (buyerValueMap Sample.bundleInput) (assessmentIndex assessments) = .ok result ∧
          result.truth = .true) := by
  have hrun : (do
      let recallResult ← recallAndDeduplicate .ascii Sample.bundleInput
      let assessments ← assessEvidence .ascii Sample.bundleInput recallResult
      let materials ← packMaterials .ascii Sample.bundleInput recallResult
      let truth (material : PlanMaterial) (expected : TruthValue) : Bool :=
        (evaluateGate .ascii Sample.noOnPremises material (buyerValueMap Sample.bundleInput)
          (assessmentIndex assessments)).toOption.any (fun r => decide (r.truth = expected))
      return materials.any (fun m => decide (m.dependencyIssues = []) &&
        (decide ("crm" ∈ m.componentIds) && (truth (m.alone "crm") .false && truth m .true))) :
          Py Bool) = .ok true := by
    rw [Runtime.ascii_eq]
    decide +kernel
  simp only [bind_eq_ok, pure_eq_ok] at hrun
  obtain ⟨recallResult, hrecall, assessments, hassessments, materials, hmaterials, hany⟩ := hrun
  obtain ⟨material, hmaterial, hchecks⟩ := List.any_eq_true.mp hany
  simp only [Bool.and_eq_true, decide_eq_true_eq] at hchecks
  obtain ⟨hissues, hmem, hown, hresult⟩ := hchecks
  obtain ⟨own, hown, hfalse⟩ := exists_of_toOption_any hown
  obtain ⟨result, hresult, htrue⟩ := exists_of_toOption_any hresult
  exact ⟨recallResult, hrecall, assessments, hassessments, materials, hmaterials, material,
    hmaterial,
    hissues, hmem, ⟨own, hown, of_decide_eq_true hfalse⟩, ⟨result, hresult, of_decide_eq_true htrue⟩⟩

/-- Bundles do hide a blocked component. -/
theorem bundle_hides_blocked_component :
    ¬ ∀ (rt : Runtime) (input : DecisionGraphInput) (recallResult : RecallResult)
      (assessments : List EvidenceAssessment) (materials : List PlanMaterial),
      recallAndDeduplicate rt input = .ok recallResult →
      assessEvidence rt input recallResult = .ok assessments →
      packMaterials rt input recallResult = .ok materials →
      ∀ material ∈ materials, material.dependencyIssues = [] →
      ∀ gate ∈ input.gates, gate.isSeller = false →
      ∀ componentId ∈ material.componentIds, ∀ own result,
        evaluateGate rt gate (material.alone componentId) (buyerValueMap input)
          (assessmentIndex assessments) = .ok own →
        evaluateGate rt gate material (buyerValueMap input) (assessmentIndex assessments) =
          .ok result →
        own.truth = .false → result.truth ≠ .true := by
  intro hclaim
  obtain ⟨recallResult, hrecall, assessments, hassessments, materials, hmaterials, material,
    hmaterial,
    hissues, hmem, ⟨own, hown, hfalse⟩, ⟨result, hresult, htrue⟩⟩ := bundleInput_hides
  exact hclaim .ascii Sample.bundleInput recallResult assessments materials hrecall hassessments
    hmaterials material hmaterial hissues Sample.noOnPremises (List.mem_singleton_self _) rfl "crm"
    hmem own result hown hresult hfalse htrue

/-- The exception is met by the sample bundle. -/
theorem bundle_hides_no_component_iff_sample :
    ∃ material assessments, HidesComponent .ascii Sample.noOnPremises material
      (buyerValueMap Sample.bundleInput) (assessmentIndex assessments) := by
  obtain ⟨recallResult, -, assessments, -, materials, -, material, -, -, hmem, ⟨own, hown, hfalse⟩,
    ⟨result, hresult, htrue⟩⟩ := bundleInput_hides
  refine ⟨material, assessments, ?_⟩
  by_contra hhides
  exact (bundle_hides_no_component_iff rfl hresult).mpr hhides "crm" hmem own hown hfalse htrue

end DecisionEngine
