-- SUMMARY: When a decision can be written to the ledger, with one component result for every recalled identity.
import SiraSeil.DecisionEngine.Identities
import SiraSeil.Domain.Digests
import SiraSeil.SiraApi.GraphLedger

/-!
# Coverage of the ledger

The ledger looks its plans up by the product ids the candidates were written
with, and its evidence by the evidence ids. This file says exactly for which
decisions both joins succeed and return the plan of every recalled identity.
-/

namespace SiraApi

open Domain Sorting DecisionEngine Raising

variable {rt : Runtime} {input : DecisionGraphInput} {evaluation : DecisionGraphEvaluation}

/-! ## Emitted candidates -/

section Emit

variable {recalled emitted : List String} {candidates : List RawCandidateRecord}
  {candidate : RawCandidateRecord}

theorem mem_of_emit (h : candidate ∈ emit recalled emitted candidates) :
    candidate ∈ candidates ∧ candidate.recordId ∈ recalled ∧ candidate.productId ∉ emitted := by
  induction candidates generalizing emitted with
  | nil => cases h
  | cons first candidates ih =>
    unfold emit at h
    split at h
    · obtain ⟨hin, hrest⟩ := ih h
      exact ⟨List.mem_cons_of_mem first hin, hrest⟩
    · rename_i hfirst
      rw [not_or, not_not] at hfirst
      rcases List.mem_cons.mp h with rfl | h
      · exact ⟨List.mem_cons_self, hfirst⟩
      · obtain ⟨hin, hrecalled, hnew⟩ := ih h
        exact ⟨List.mem_cons_of_mem first hin, hrecalled,
          fun hold => hnew (List.mem_cons_of_mem _ hold)⟩

theorem nodup_emit : ((emit recalled emitted candidates).map (·.productId)).Nodup := by
  induction candidates generalizing emitted with
  | nil => exact List.nodup_nil
  | cons first candidates ih =>
    unfold emit
    split
    · exact ih
    · refine List.nodup_cons.mpr ⟨fun hsame => ?_, ih⟩
      obtain ⟨other, hother, heq⟩ := List.mem_map.mp hsame
      exact (mem_of_emit hother).2.2 (heq ▸ List.mem_cons_self)

theorem exists_emit (hsorted : candidates.Pairwise (fun c d => c.recordId ≤ d.recordId))
    (hcandidate : candidate ∈ candidates) (hrecalled : candidate.recordId ∈ recalled)
    (hnew : candidate.productId ∉ emitted) :
    ∃ first ∈ emit recalled emitted candidates,
      first.productId = candidate.productId ∧ first.recordId ≤ candidate.recordId := by
  induction candidates generalizing emitted with
  | nil => cases hcandidate
  | cons head candidates ih =>
    obtain ⟨hhead, htail⟩ := List.pairwise_cons.mp hsorted
    unfold emit
    rcases List.mem_cons.mp hcandidate with rfl | hcandidate
    · rw [if_neg (by simp [hrecalled, hnew])]
      exact ⟨candidate, List.mem_cons_self, rfl, le_refl _⟩
    · split
      · exact ih htail hcandidate hnew
      · by_cases hsame : head.productId = candidate.productId
        · exact ⟨head, List.mem_cons_self, hsame, hhead candidate hcandidate⟩
        · have hnew' : candidate.productId ∉ head.productId :: emitted := by
            rw [List.mem_cons, not_or]
            exact ⟨fun heq => hsame heq.symm, hnew⟩
          obtain ⟨first, hfirst, hrest⟩ := ih htail hcandidate hnew'
          exact ⟨first, List.mem_cons_of_mem head hfirst, hrest⟩

end Emit

/-- A recalled candidate with the least record id of all that have its product id. -/
structure FirstOfProduct (evaluation : DecisionGraphEvaluation) (input : DecisionGraphInput)
    (candidate : RawCandidateRecord) : Prop where
  mem : candidate ∈ input.candidates
  recalled : candidate.recordId ∈ recalledRecordIds evaluation
  least : ∀ other ∈ input.candidates, other.recordId ∈ recalledRecordIds evaluation →
    other.productId = candidate.productId → candidate.recordId ≤ other.recordId

/-- The product ids that the recalled candidates were written with. -/
def recalledProductIds (evaluation : DecisionGraphEvaluation) (input : DecisionGraphInput) :
    List String :=
  (input.candidates.filter (fun c => c.recordId ∈ recalledRecordIds evaluation)).map (·.productId)

theorem mem_recalledProductIds {productId : String} :
    productId ∈ recalledProductIds evaluation input ↔
      ∃ c ∈ input.candidates, c.recordId ∈ recalledRecordIds evaluation ∧ c.productId = productId := by
  unfold recalledProductIds
  simp only [List.mem_map, List.mem_filter, decide_eq_true_eq, and_assoc]

theorem exists_emittedCandidate {candidate : RawCandidateRecord}
    (hcandidate : candidate ∈ input.candidates)
    (hrecalled : candidate.recordId ∈ recalledRecordIds evaluation) :
    ∃ first ∈ emittedCandidates evaluation input,
      first.productId = candidate.productId ∧ first.recordId ≤ candidate.recordId :=
  exists_emit (sortedBy_pairwise _ _) (mem_sortedBy.mpr hcandidate) hrecalled List.not_mem_nil

theorem mem_emittedCandidates {candidate : RawCandidateRecord} :
    candidate ∈ emittedCandidates evaluation input ↔ FirstOfProduct evaluation input candidate := by
  constructor
  · intro h
    obtain ⟨hin, hrecalled, -⟩ := mem_of_emit h
    refine ⟨mem_sortedBy.mp hin, hrecalled, fun other hother hrecalled' hsame => ?_⟩
    obtain ⟨first, hfirst, hproduct, hle⟩ := exists_emittedCandidate hother hrecalled'
    -- Only one candidate is emitted for a product id.
    obtain rfl : first = candidate :=
      List.inj_on_of_nodup_map nodup_emit hfirst h (hproduct.trans hsame)
    exact hle
  · intro h
    obtain ⟨first, hfirst, hproduct, hle⟩ := exists_emittedCandidate h.mem h.recalled
    obtain ⟨hin, hrecalled, -⟩ := mem_of_emit hfirst
    have hge := h.least first (mem_sortedBy.mp hin) hrecalled hproduct
    have hsame : first = candidate := List.inj_on_of_nodup_map input.candidates_nodup
      (mem_sortedBy.mp hin) h.mem (le_antisymm hle hge)
    exact hsame ▸ hfirst

theorem mem_emittedProductIds {productId : String} :
    productId ∈ (emittedCandidates evaluation input).map (·.productId) ↔
      productId ∈ recalledProductIds evaluation input := by
  rw [mem_recalledProductIds, List.mem_map]
  constructor
  · rintro ⟨c, hc, hproduct⟩
    have hfirst := mem_emittedCandidates.mp hc
    exact ⟨c, hfirst.mem, hfirst.recalled, hproduct⟩
  · rintro ⟨c, hc, hrecalled, hproduct⟩
    obtain ⟨first, hfirst, hsame, -⟩ := exists_emittedCandidate hc hrecalled
    exact ⟨first, hfirst, hsame.trans hproduct⟩

/-! ## Plans by product -/

theorem packPlan?_identity {assessments : List EvidenceAssessment} {identity : IdentityRecord}
    {plan : EvaluatedPlan} (h : BuiltFromIdentity rt input assessments identity plan) :
    packPlan? plan = some (identity.productId, plan) := by
  unfold packPlan?
  rw [h.getLast?_components]
  rfl

theorem packPlan?_current {assessments : List EvidenceAssessment} {item : CurrentActionRecord}
    {plan : EvaluatedPlan} (h : BuiltFrom rt input assessments (currentMaterial item) plan) :
    packPlan? plan = none := by
  unfold packPlan?
  rw [h.components]
  rfl

section Plans

variable {evaluationId : String} {generatedAt : Datetime}
  (h : evaluateDecisionGraphOnce rt input evaluationId generatedAt = .ok evaluation)
include h

theorem identity_of_planByProduct {productId : String} {plan : EvaluatedPlan}
    (hget : (planByProduct evaluation.plans).get? productId = some plan) :
    plan ∈ evaluation.plans ∧ ∃ identity ∈ evaluation.identityRecords,
      identity.productId = productId ∧
        BuiltFromIdentity rt input evaluation.evidenceAssessments identity plan := by
  obtain ⟨own, hown, hpack⟩ := List.mem_filterMap.mp (Dict.mem_of_get?_ofList hget)
  rcases plan_source h hown with ⟨identity, hidentity, hbuilt⟩ | ⟨item, -, hbuilt⟩
  · rw [packPlan?_identity hbuilt] at hpack
    cases hpack
    exact ⟨hown, identity, hidentity, rfl, hbuilt⟩
  · rw [packPlan?_current hbuilt] at hpack
    cases hpack

theorem exists_planByProduct {productId : String}
    (hproduct : productId ∈ evaluation.identityRecords.map (·.productId)) :
    ∃ plan, (planByProduct evaluation.plans).get? productId = some plan := by
  obtain ⟨identity, hidentity, rfl⟩ := List.mem_map.mp hproduct
  obtain ⟨plan, hplan, hbuilt⟩ := exists_plan_of_identity h hidentity
  cases hget : (planByProduct evaluation.plans).get? identity.productId with
  | some plan => exact ⟨plan, rfl⟩
  | none =>
    refine absurd ?_ (Dict.get?_eq_none_iff.mp hget)
    refine Dict.mem_keys_ofList.mpr (List.mem_map.mpr ⟨(identity.productId, plan), ?_, rfl⟩)
    exact List.mem_filterMap.mpr ⟨plan, hplan, packPlan?_identity hbuilt⟩

end Plans

/-! ## Component results -/

section Results

variable {names : Dict String String} {candidate : RawCandidateRecord} {entry : ComponentResult}
  {assessments : List EvidenceAssessment}

theorem exists_evidence_iff {id : String} :
    (∃ record, getItem (Dict.ofList (input.evidence.map (fun e => (e.evidenceId, e)))) id id =
      .ok record) ↔ id ∈ input.evidence.map (·.evidenceId) := by
  have hkeys : id ∈ (input.evidence.map (fun e => (e.evidenceId, e))).map Prod.fst ↔
      id ∈ input.evidence.map (·.evidenceId) := by
    rw [List.map_map]
    rfl
  rw [← hkeys, ← Dict.mem_keys_ofList, ← not_iff_not, ← Dict.get?_eq_none_iff]
  unfold getItem
  cases (Dict.ofList (input.evidence.map (fun e => (e.evidenceId, e)))).get? id with
  | none => simp
  | some record => simp

theorem key_of_assessmentIndex {pair : EvidencePair} {a : EvidenceAssessment}
    (h : (assessmentIndex assessments).get? pair = some a) :
    a ∈ assessments ∧ toLex (a.evidenceId, a.field) = pair := by
  obtain ⟨own, hown, hsame⟩ := List.mem_map.mp (Dict.mem_of_get?_ofList h)
  cases hsame
  exact ⟨hown, rfl⟩

theorem mem_relevantAssessments {a : EvidenceAssessment}
    (h : a ∈ relevantAssessments (assessmentIndex assessments) candidate) :
    a ∈ assessments ∧ toLex (a.evidenceId, a.field) ∈ factPairs candidate.facts := by
  obtain ⟨⟨key, own⟩, hitem, rfl⟩ := List.mem_map.mp (mem_sortedBy.mp h)
  obtain ⟨hrelevant, -⟩ := key_of_assessmentIndex (Dict.get?_eq_some_iff.mpr hitem)
  obtain ⟨pair, hpair, hget⟩ := List.mem_filterMap.mp hrelevant
  obtain ⟨hown, hkey⟩ := key_of_assessmentIndex hget
  exact ⟨hown, hkey ▸ hpair⟩

theorem exists_relevantAssessment {pair : EvidencePair} {a : EvidenceAssessment}
    (hpair : pair ∈ factPairs candidate.facts)
    (hget : (assessmentIndex assessments).get? pair = some a) :
    ∃ b ∈ relevantAssessments (assessmentIndex assessments) candidate,
      toLex (b.evidenceId, b.field) = pair := by
  have hrelevant : a ∈ (factPairs candidate.facts).filterMap (assessmentIndex assessments).get? :=
    List.mem_filterMap.mpr ⟨pair, hpair, hget⟩
  obtain ⟨-, hkey⟩ := key_of_assessmentIndex hget
  have hwritten : pair ∈ (assessmentIndex
      ((factPairs candidate.facts).filterMap (assessmentIndex assessments).get?)).items.map
        Prod.fst :=
    Dict.mem_keys_ofList.mpr (List.mem_map.mpr ⟨_, List.mem_map_of_mem hrelevant, hkey⟩)
  obtain ⟨⟨key, b⟩, hitem, rfl⟩ := List.mem_map.mp hwritten
  refine ⟨b, mem_sortedBy.mpr (List.mem_map.mpr ⟨(key, b), hitem, rfl⟩), ?_⟩
  exact (key_of_assessmentIndex (Dict.get?_eq_some_iff.mpr hitem)).2

theorem componentResult_eq_ok (h : componentResult evaluation input names candidate = .ok entry) :
    entry.componentId = candidate.productId ∧
      ∃ plan, (planByProduct evaluation.plans).get? candidate.productId = some plan ∧
        entry.status = plan.status ∧ entry.gateResults = plan.gateResults := by
  unfold componentResult at h
  obtain ⟨plan, hplan, h⟩ := bind_eq_ok.mp h
  obtain ⟨entries, -, h⟩ := bind_eq_ok.mp h
  obtain rfl := pure_eq_ok.mp h
  refine ⟨rfl, plan, ?_, rfl, rfl⟩
  unfold getItem at hplan
  split at hplan
  · rename_i own hown
    cases hplan
    exact hown
  · cases hplan

/-- All evidence that the candidate cites has a record in the input. -/
def CitesRecords (input : DecisionGraphInput) (candidate : RawCandidateRecord) : Prop :=
  ∀ fact ∈ candidate.facts, ∀ id ∈ fact.evidenceIds.items, id ∈ input.evidence.map (·.evidenceId)

theorem citesRecords_iff : CitesRecords input candidate ↔
    ∀ pair ∈ factPairs candidate.facts, (ofLex pair).1 ∈ input.evidence.map (·.evidenceId) := by
  constructor
  · intro h pair hpair
    obtain ⟨fact, hfact, hcited⟩ := List.mem_flatMap.mp hpair
    obtain ⟨id, hid, rfl⟩ := List.mem_map.mp hcited
    exact h fact hfact id hid
  · intro h fact hfact id hid
    exact h (toLex (id, fact.field))
      (List.mem_flatMap.mpr ⟨fact, hfact, List.mem_map.mpr ⟨id, hid, rfl⟩⟩)

theorem exists_componentResult {plan : EvaluatedPlan}
    (hplan : (planByProduct evaluation.plans).get? candidate.productId = some plan)
    (hcites : CitesRecords input candidate) :
    ∃ entry, componentResult evaluation input names candidate = .ok entry := by
  have hassessments : ∃ entries, (relevantAssessments
      (assessmentIndex evaluation.evidenceAssessments) candidate).mapM
        (evidenceAssessment (Dict.ofList (input.evidence.map (fun e => (e.evidenceId, e))))) =
          .ok entries := by
    refine exists_mapM_eq_ok (fun a ha => ?_)
    obtain ⟨-, hpair⟩ := mem_relevantAssessments ha
    obtain ⟨record, hrecord⟩ := exists_evidence_iff.mpr (citesRecords_iff.mp hcites _ hpair)
    refine ⟨assessmentEntry a record, ?_⟩
    unfold evidenceAssessment
    exact bind_eq_ok.mpr ⟨record, hrecord, rfl⟩
  obtain ⟨entries, hentries⟩ := hassessments
  unfold componentResult getItem
  rw [hplan, ok_bind]
  dsimp only
  rw [hentries, ok_bind]
  exact ⟨_, rfl⟩

theorem citesRecords_of_componentResult {evaluationId : String} {generatedAt : Datetime}
    (hrun : evaluateDecisionGraphOnce rt input evaluationId generatedAt = .ok evaluation)
    (hfirst : FirstOfProduct evaluation input candidate)
    (h : componentResult evaluation input names candidate = .ok entry) :
    CitesRecords input candidate := by
  refine citesRecords_iff.mpr (fun pair hpair => ?_)
  obtain ⟨a, ha⟩ := exists_assessment hrun hfirst.mem hfirst.recalled hpair
  obtain ⟨b, hb, hkey⟩ := exists_relevantAssessment hpair ha
  unfold componentResult at h
  obtain ⟨plan, -, h⟩ := bind_eq_ok.mp h
  obtain ⟨entries, hentries, -⟩ := bind_eq_ok.mp h
  obtain ⟨written, -, hwritten⟩ := exists_of_mapM_eq_ok hentries hb
  unfold evidenceAssessment at hwritten
  obtain ⟨record, hrecord, -⟩ := bind_eq_ok.mp hwritten
  rw [← hkey]
  exact exists_evidence_iff.mp ⟨record, hrecord⟩

end Results

/-! ## Integers

Hashing has already accepted the integers of an evaluation. The ledger writes
some that no earlier hash has seen: those of its metadata, the weighted
contributions, the coverage of the universe and the counts of open gates. -/

def metadataIntegers (metadata : DecisionLedgerMetadata) : List Int :=
  [metadata.decisionVersion, metadata.purchaseBriefVersion, metadata.requirementBriefVersion,
    metadata.companyProfileVersion, metadata.stackSnapshot, metadata.policyVersion]

def scoreIntegers (score : ScoreComponent) : List Int :=
  [score.contributionConservative.num, score.contributionConservative.den,
    score.contributionOptimistic.num, score.contributionOptimistic.den]

def dimensionIntegers (d : PlanDimensions) : List Int :=
  [d.universeCoverage.num, d.universeCoverage.den, d.unresolvedCount, d.conflictingCount]

def planIntegers (plan : EvaluatedPlan) : List Int :=
  plan.scoreComponents.flatMap scoreIntegers ++ dimensionIntegers plan.dimensions

/-- The integers that only the ledger writes. -/
def ledgerIntegers (evaluation : DecisionGraphEvaluation) (metadata : DecisionLedgerMetadata) :
    List Int :=
  metadataIntegers metadata ++ evaluation.plans.flatMap planIntegers

/-- RFC 8785 text can carry the integers. -/
def Representable (integers : List Int) : Prop :=
  ∀ n ∈ integers, -(2 ^ 53) < n ∧ n < 2 ^ 53

@[simp] theorem representable_append {l l' : List Int} :
    Representable (l ++ l') ↔ Representable l ∧ Representable l' :=
  List.forall_mem_append

theorem representable_iff {l : List Int} :
    Representable l ↔ ∀ n ∈ l, (Value.int n).Canonical := by
  simp only [Representable, Value.canonical_int]

theorem representable_flatMap {α : Type} {f : α → List Int} {l : List α} :
    Representable (l.flatMap f) ↔ ∀ a ∈ l, Representable (f a) := by
  simp only [Representable, List.mem_flatMap]
  exact ⟨fun h a ha n hn => h n ⟨a, ha, hn⟩, fun h n ⟨a, ha, hn⟩ => h a ha n hn⟩

@[simp] theorem canonical_money (m : Money) : m.toValue.Canonical := by
  simp [Money.toValue]

@[simp] theorem canonical_reason (r : GateReason) : (reason r).Canonical := by
  simp [reason]

@[simp] theorem canonical_gate (g : GateResult) : (gate g).Canonical := by
  simp [gate]

@[simp] theorem canonical_boundOr {α : Type} {missingReason : String} {f : α → Value}
    {o : Option α} :
    (boundOr missingReason f o).Canonical ↔ ∀ a, o = some a → (f a).Canonical := by
  cases o with
  | none => simp [boundOr, unavailable]
  | some a => simp [boundOr]

@[simp] theorem canonical_displayedRatio {q : ℚ} :
    (displayedRatio q).Canonical ↔ (Value.ratio q).Canonical := by
  simp [displayedRatio]

theorem canonical_dimensions {d : PlanDimensions} (h : d.toValue.Canonical) :
    (dimensions d).Canonical ↔ Representable (dimensionIntegers d) := by
  simp only [PlanDimensions.toValue, Value.canonical_obj, List.forall_mem_cons, Value.canonical_opt,
    Value.canonical_seq, List.forall_mem_map] at h
  obtain ⟨hpreference, -, ⟨-, -, -, -, -, hitems, -⟩, hcoverage, hage, hhard, -⟩ := h
  simp only [representable_iff, dimensionIntegers, dimensions, Value.canonical_obj,
    List.forall_mem_cons, canonical_boundOr, canonical_displayedRatio, EvidenceAgeBounds.toValue,
    Value.canonical_seq, List.forall_mem_map, canonical_money, Value.canonical_str,
    Value.canonical_bool, implies_true, true_and, List.not_mem_nil, false_implies, and_true]
  constructor
  · rintro ⟨-, -, -, -, -, huniverse, hunresolved, hconflicting⟩
    exact ⟨(Value.canonical_ratio.mp huniverse).1, (Value.canonical_ratio.mp huniverse).2,
      hunresolved, hconflicting⟩
  · rintro ⟨hnum, hden, hunresolved, hconflicting⟩
    refine ⟨fun p hp => ?_, hitems, ⟨hhard.1, hhard.2.1⟩, ⟨hcoverage.1, hcoverage.2.1⟩,
      ⟨hage.1, hage.2.1⟩, Value.canonical_ratio.mpr ⟨hnum, hden⟩, hunresolved, hconflicting⟩
    exact ⟨(hpreference p hp).1, (hpreference p hp).2.1⟩

theorem canonical_scoreEntry {score : ScoreComponent} {coverageWeight : Nat}
    (h : score.toValue.Canonical) (hweight : (Value.nat coverageWeight).Canonical) :
    (scoreEntry score coverageWeight).Canonical ↔ Representable (scoreIntegers score) := by
  simp only [ScoreComponent.toValue, Value.canonical_obj, List.forall_mem_cons] at h
  obtain ⟨-, hown, hconservative, hoptimistic, -⟩ := h
  simp only [representable_iff, scoreIntegers, scoreEntry, Value.canonical_obj,
    List.forall_mem_cons, Value.canonical_opt, Value.canonical_seq, List.forall_mem_map,
    Value.canonical_str, implies_true, true_and, List.not_mem_nil, false_implies, and_true]
  constructor
  · rintro ⟨-, -, -, -, hlow, hhigh⟩
    exact ⟨(Value.canonical_ratio.mp hlow).1, (Value.canonical_ratio.mp hlow).2,
      (Value.canonical_ratio.mp hhigh).1, (Value.canonical_ratio.mp hhigh).2⟩
  · rintro ⟨hnum, hden, hnum', hden'⟩
    exact ⟨hown, hweight, hconservative, hoptimistic, Value.canonical_ratio.mpr ⟨hnum, hden⟩,
      Value.canonical_ratio.mpr ⟨hnum', hden'⟩⟩

/-- What the hashes of an evaluation and of its inputs have already accepted. -/
structure Hashed (input : DecisionGraphInput) (evaluation : DecisionGraphEvaluation) : Prop where
  assessments : ∀ a ∈ evaluation.evidenceAssessments, a.toValue.Canonical
  plans : ∀ plan ∈ evaluation.plans, (canonicalPlan plan).Canonical
  coverage : evaluation.coverage.toValue.Canonical
  planCount : evaluation.coverage.generatedSolutionPlanCount = evaluation.plans.length
  candidates : ∀ c ∈ input.candidates, c.toValue.Canonical
  preferences : ∀ c ∈ input.preferences, c.toValue.Canonical

theorem canonical_frozenArtifacts {hashes : List (String × String)}
    (h : frozenInputHashes rt input = .ok hashes) (artifact : String × Value)
    (hartifact : artifact ∈ frozenArtifacts input) : artifact.2.Canonical := by
  obtain ⟨hash, -, hhash⟩ := exists_of_mapM_eq_ok h hartifact
  obtain ⟨text, htext, -⟩ := bind_eq_ok.mp hhash
  exact exists_contentHash_eq_ok.mp ⟨text, htext⟩

theorem hashed_of_evaluate {evaluationId : String} {generatedAt : Datetime}
    (h : evaluateDecisionGraphOnce rt input evaluationId generatedAt = .ok evaluation) :
    Hashed input evaluation := by
  obtain ⟨pipeline, -, inputHashes, hhashes, payload, hpayload, hash, hhash, rfl⟩ :=
    evaluateDecisionGraphOnce_eq_ok.mp h
  have hcanonical : payload.Canonical := exists_contentHash_eq_ok.mp ⟨hash, hhash⟩
  unfold evaluationCanonicalPayload at hpayload
  obtain ⟨ranked, -, hpayload⟩ := bind_eq_ok.mp hpayload
  obtain ⟨frontier, -, hpayload⟩ := bind_eq_ok.mp hpayload
  obtain ⟨unavailable, -, hpayload⟩ := bind_eq_ok.mp hpayload
  obtain rfl := pure_eq_ok.mp hpayload
  simp only [Value.canonical_obj, List.forall_mem_cons] at hcanonical
  obtain ⟨-, -, -, -, -, -, -, hassessments, hplans, -, -, -, -, -, hcoverage, -⟩ := hcanonical
  refine ⟨?_, ?_, hcoverage, rfl, ?_, ?_⟩
  · exact List.forall_mem_map.mp (Value.canonical_seq.mp hassessments)
  · exact List.forall_mem_map.mp (Value.canonical_seq.mp hplans)
  · have hrecords := canonical_frozenArtifacts hhashes ("candidate_records",
      .seq ((sortedBy (·.recordId) input.candidates).map RawCandidateRecord.toValue))
      (by simp [frozenArtifacts])
    intro c hc
    exact List.forall_mem_map.mp (Value.canonical_seq.mp hrecords) c (mem_sortedBy.mpr hc)
  · have hcriteria := canonical_frozenArtifacts hhashes ("preferences",
      .seq ((sortedBy (·.criterionId) input.preferences).map PreferenceCriterion.toValue))
      (by simp [frozenArtifacts])
    intro c hc
    exact List.forall_mem_map.mp (Value.canonical_seq.mp hcriteria) c (mem_sortedBy.mpr hc)

/-! ## Solution plans -/

theorem rank_le {rankedPlanIds : List String} {planId : String} {rank : Nat}
    (h : (rankById rankedPlanIds).get? planId = some rank) : rank ≤ rankedPlanIds.length := by
  have hlt := List.snd_lt_add_of_mem_zipIdx (Dict.mem_of_get?_ofList h)
  simp only at hlt
  omega

theorem criterionId_of_scoreCriterion {material : PlanMaterial} {index : AssessmentIndex}
    {criterion : PreferenceCriterion} {score : ScoreComponent × List String}
    (h : scoreCriterion rt input material index criterion = .ok score) :
    score.1.criterionId = criterion.criterionId := by
  unfold scoreCriterion at h
  obtain ⟨state, -, h⟩ := bind_eq_ok.mp h
  dsimp only at h
  split at h
  · split at h
    · rw [← pure_eq_ok.mp h]
    · rw [← pure_eq_ok.mp h]
  · obtain ⟨satisfaction, -, h⟩ := bind_eq_ok.mp h
    rw [← pure_eq_ok.mp h]

section SolutionPlans

variable {evaluationId : String} {generatedAt : Datetime} {decision : DecisionGraphDecision}
  {plan : EvaluatedPlan}
  (h : evaluateDecisionGraphOnce rt input evaluationId generatedAt = .ok decision.base)
include h

theorem mem_preferences_of_score (hplan : plan ∈ decision.base.plans) {score : ScoreComponent}
    (hscore : score ∈ plan.scoreComponents) :
    ∃ c ∈ input.preferences, c.criterionId = score.criterionId := by
  obtain ⟨pipeline, hpipeline, inputHashes, -, payload, -, hash, -, hbase⟩ :=
    evaluateDecisionGraphOnce_eq_ok.mp h
  obtain ⟨-, -, built, hbuilt, -, hplaced⟩ := runPipeline_eq_ok hpipeline
  have hin : plan ∈ built.map (·.placed pipeline.ranking) := by
    rw [← hplaced]
    rw [← hbase] at hplan
    exact hplan
  obtain ⟨bare, hbare, rfl⟩ := List.mem_map.mp hin
  unfold buildSolutionPlans at hbuilt
  obtain ⟨materials, -, hbuilt⟩ := bind_eq_ok.mp hbuilt
  obtain ⟨material, -, hbuild⟩ := (mem_of_mapM_eq_ok hbuilt).mp hbare
  unfold buildPlan at hbuild
  obtain ⟨gates, -, hbuild⟩ := bind_eq_ok.mp hbuild
  obtain ⟨⟨scores, dims, riskIds⟩, hdims, hbuild⟩ := bind_eq_ok.mp hbuild
  obtain ⟨componentHash, -, hbuild⟩ := bind_eq_ok.mp hbuild
  obtain ⟨bounds, -, hbuild⟩ := bind_eq_ok.mp hbuild
  obtain ⟨id, -, hbuild⟩ := bind_eq_ok.mp hbuild
  obtain rfl := pure_eq_ok.mp hbuild
  unfold materialDimensions at hdims
  obtain ⟨⟨scores', reasons⟩, hscores, hdims⟩ := bind_eq_ok.mp hdims
  simp only [bind_eq_ok, pure_eq_ok, Prod.mk.injEq] at hdims
  obtain ⟨_, -, _, -, _, -, _, -, _, -, rfl, -⟩ := hdims
  unfold scoreComponents at hscores
  obtain ⟨scored, hscored, hscores⟩ := bind_eq_ok.mp hscores
  obtain ⟨rfl, -⟩ := Prod.mk.inj (pure_eq_ok.mp hscores)
  obtain ⟨⟨own, ownReasons⟩, hown, rfl⟩ := List.mem_map.mp hscore
  obtain ⟨criterion, hcriterion, hrun⟩ := (mem_of_mapM_eq_ok hscored).mp hown
  refine ⟨criterion, mem_sortedBy.mp (List.mem_of_mem_filter hcriterion), ?_⟩
  exact (criterionId_of_scoreCriterion hrun).symm

theorem exists_coverageWeight (hplan : plan ∈ decision.base.plans) {score : ScoreComponent}
    (hscore : score ∈ plan.scoreComponents) :
    ∃ weight, getItem (coverageWeights input) score.criterionId score.criterionId = .ok weight ∧
      (Value.nat weight).Canonical := by
  obtain ⟨criterion, hcriterion, hid⟩ := mem_preferences_of_score h hplan hscore
  have hunique : Dict.ConsistentAt (input.preferences.map (fun c => (c.criterionId, c.coverageWeight)))
      score.criterionId := by
    refine Dict.ConsistentAt.of_nodup ?_ score.criterionId
    rw [List.map_map]
    exact input.preferences_nodup
  have hget : (coverageWeights input).get? score.criterionId = some criterion.coverageWeight :=
    (Dict.get?_ofList_eq_some_iff hunique).mpr (List.mem_map.mpr ⟨criterion, hcriterion, by rw [hid]⟩)
  refine ⟨criterion.coverageWeight, ?_, ?_⟩
  · unfold getItem
    rw [hget]
  · have hcanonical := (hashed_of_evaluate h).preferences criterion hcriterion
    simp only [PreferenceCriterion.toValue, Value.canonical_obj, List.forall_mem_cons] at hcanonical
    exact hcanonical.2.2.2.1

theorem exists_solutionPlan (hplan : plan ∈ decision.base.plans) (patchId : Option String) :
    ∃ v, solutionPlan decision input patchId plan = .ok v ∧
      (v.Canonical ↔ Representable (planIntegers plan)) := by
  have hhashed := hashed_of_evaluate h
  have hscores : ∃ values, plan.scoreComponents.mapM (scoreComponent input) = .ok values := by
    refine exists_mapM_eq_ok (fun score hscore => ?_)
    obtain ⟨weight, hweight, -⟩ := exists_coverageWeight h hplan hscore
    exact ⟨scoreEntry score weight, bind_eq_ok.mpr ⟨weight, hweight, rfl⟩⟩
  obtain ⟨values, hvalues⟩ := hscores
  have hrank : ∀ rank, (rankById decision.base.rankedPlanIds).get? plan.planId = some rank →
      (Value.nat rank).Canonical := by
    intro rank hrank
    obtain ⟨ranked, hsub, hperm, -⟩ := exists_ranked_plans h
    have hlength : rank ≤ decision.base.coverage.generatedSolutionPlanCount := by
      rw [hhashed.planCount]
      calc rank ≤ decision.base.rankedPlanIds.length := rank_le hrank
        _ = ranked.length := by rw [hperm.length_eq, List.length_map]
        _ ≤ decision.base.plans.length := hsub.length_le
    have hcount := hhashed.coverage
    simp only [EvaluationCoverage.toValue, Value.canonical_obj, List.forall_mem_cons] at hcount
    have hbound := Value.canonical_int.mp hcount.2.2.2.2.1
    exact Value.canonical_int.mpr (by omega)
  have hplanValue := hhashed.plans plan hplan
  simp only [canonicalPlan, Value.canonical_obj, List.forall_mem_cons] at hplanValue
  obtain ⟨-, -, -, -, -, -, -, hscoreValues, hbounds, -⟩ := hplanValue
  have hentries : (Value.seq values).Canonical ↔
      Representable (plan.scoreComponents.flatMap scoreIntegers) := by
    rw [Value.canonical_seq, representable_flatMap]
    have hscoreCanonical := List.forall_mem_map.mp (Value.canonical_seq.mp hscoreValues)
    have hentry : ∀ score ∈ plan.scoreComponents, ∀ v, scoreComponent input score = .ok v →
        (v.Canonical ↔ Representable (scoreIntegers score)) := by
      intro score hscore v hv
      obtain ⟨weight, hweight, hcanonical⟩ := exists_coverageWeight h hplan hscore
      unfold scoreComponent at hv
      rw [hweight, ok_bind] at hv
      rw [← pure_eq_ok.mp hv]
      exact canonical_scoreEntry (hscoreCanonical score hscore) hcanonical
    constructor
    · intro hall score hscore
      obtain ⟨v, hv, hrun⟩ := exists_of_mapM_eq_ok hvalues hscore
      exact (hentry score hscore v hrun).mp (hall v hv)
    · intro hall v hv
      obtain ⟨score, hscore, hrun⟩ := (mem_of_mapM_eq_ok hvalues).mp hv
      exact (hentry score hscore v hrun).mpr (hall score hscore)
  unfold solutionPlan
  dsimp only
  rw [hvalues, ok_bind]
  refine ⟨_, rfl, ?_⟩
  have hcomponent : ∀ byProduct component,
      (solutionComponent byProduct component).Canonical := by
    intro byProduct component
    simp [solutionComponent]
  have hpatch : ∀ condition : Prop, ∀ [Decidable condition],
      (if condition then Value.opt Value.str patchId else Value.null).Canonical := by
    intro condition _
    split
    · simp
    · simp
  unfold planIntegers
  rw [representable_append, ← hentries, ← canonical_dimensions hbounds]
  simp only [Value.canonical_obj, List.forall_mem_cons, Value.canonical_str, Value.canonical_bool,
    Value.canonical_opt, Value.canonical_seq, List.forall_mem_map, hcomponent, canonical_reason,
    canonical_gate, hpatch, implies_true, true_and, and_true, List.not_mem_nil, false_implies]
  exact ⟨fun hall => ⟨hall.1, hall.2.1⟩, fun hall => ⟨hall.1, hall.2, hrank⟩⟩

end SolutionPlans

/-! ## The payload -/

theorem canonical_assessmentEntry {a : EvidenceAssessment} (h : a.toValue.Canonical)
    (source : EvidenceRecord) : (assessmentEntry a source).Canonical := by
  simp only [EvidenceAssessment.toValue, Value.canonical_obj, List.forall_mem_cons] at h
  obtain ⟨-, -, -, -, -, -, -, -, -, -, -, -, hage, -⟩ := h
  simp only [assessmentEntry, Value.canonical_obj, List.forall_mem_cons, Value.canonical_str,
    Value.canonical_bool, Value.canonical_opt, Value.canonical_seq, List.forall_mem_map,
    implies_true, true_and, and_true, List.not_mem_nil, false_implies]
  exact Value.canonical_opt.mp hage

theorem canonical_componentResult {names : Dict String String} {candidate : RawCandidateRecord}
    {entry : ComponentResult} (hhashed : Hashed input evaluation)
    (hcandidate : candidate ∈ input.candidates)
    (h : componentResult evaluation input names candidate = .ok entry) :
    entry.toValue.Canonical := by
  have hrecord := hhashed.candidates candidate hcandidate
  simp only [RawCandidateRecord.toValue, Value.canonical_obj, List.forall_mem_cons] at hrecord
  unfold componentResult at h
  obtain ⟨plan, -, h⟩ := bind_eq_ok.mp h
  obtain ⟨entries, hentries, h⟩ := bind_eq_ok.mp h
  obtain rfl := pure_eq_ok.mp h
  have hassessments : ∀ v ∈ entries, v.Canonical := by
    intro v hv
    obtain ⟨a, ha, hrun⟩ := (mem_of_mapM_eq_ok hentries).mp hv
    unfold evidenceAssessment at hrun
    obtain ⟨source, -, hrun⟩ := bind_eq_ok.mp hrun
    rw [← pure_eq_ok.mp hrun]
    exact canonical_assessmentEntry (hhashed.assessments a (mem_relevantAssessments ha).1) source
  simp only [ComponentResult.toValue, Value.canonical_obj, List.forall_mem_cons,
    Value.canonical_str, Value.canonical_opt, Value.canonical_seq, List.forall_mem_map,
    Value.canonical_null, canonical_reason, canonical_gate, implies_true, true_and, and_true,
    List.not_mem_nil, false_implies]
  exact ⟨hrecord.2.2.1, hassessments⟩

theorem canonical_ledgerFields {decision : DecisionGraphDecision}
    {metadata : DecisionLedgerMetadata} {results : List ComponentResult} {plans : List Value}
    {evaluatedAt createdAt : String} (hcoverage : decision.base.coverage.toValue.Canonical)
    (hlimit : (Value.nat decision.counterfactual.testedLimit).Canonical)
    (hresults : ∀ entry ∈ results, entry.toValue.Canonical) :
    (Value.obj (ledgerFields decision input metadata results plans evaluatedAt
      createdAt)).Canonical ↔
        Representable (metadataIntegers metadata) ∧ (Value.seq plans).Canonical := by
  have hevaluation : ∀ text, (evaluationEntry decision.base text).Canonical := by
    intro text
    simp [evaluationEntry, frozenVersions]
  have huniverse : (evaluatedUniverse decision.base input).Canonical := by
    have hmerge : ∀ m : IdentityMerge, m.toValue.Canonical := by
      intro m
      simp [IdentityMerge.toValue]
    have hexclusion : ∀ e : RecallExclusion, e.toValue.Canonical := by
      intro e
      simp [RecallExclusion.toValue]
    simp only [EvaluationCoverage.toValue, Value.canonical_obj, List.forall_mem_cons] at hcoverage
    obtain ⟨hraw, hpack, hproduct, hduplicate, hgenerated, hevaluated, hexcluded, -⟩ := hcoverage
    simp only [evaluatedUniverse, Value.canonical_obj, List.forall_mem_append,
      List.forall_mem_cons, Value.canonical_str, Value.canonical_seq, List.forall_mem_map, hmerge,
      implies_true, List.not_mem_nil, false_implies, and_true]
    refine ⟨⟨hraw, hpack, hproduct, hduplicate, hgenerated, hevaluated, hexcluded⟩, ?_⟩
    split
    · exact List.forall_mem_nil _
    · simp [hexclusion]
  have hcounterfactual : (counterfactualEntry decision.counterfactual).Canonical := by
    simp only [counterfactualEntry, Value.canonical_obj, List.forall_mem_cons, Value.canonical_str,
      Value.canonical_opt, Value.canonical_seq, List.forall_mem_map, implies_true, true_and,
      List.not_mem_nil, false_implies, and_true]
    exact hlimit
  have hfrontier : ∀ planId, (frontierEntry planId).Canonical := by
    intro planId
    simp [frontierEntry]
  have hresolution : ∀ r : ActorConflictResolution, r.toValue.Canonical := by
    intro r
    simp [ActorConflictResolution.toValue]
  have hactors : ∀ field ∈ (if input.actorConflictResolutions.isEmpty then []
      else [("actor_conflict_resolutions", Value.seq
        (input.actorConflictResolutions.map ActorConflictResolution.toValue))]),
      field.2.Canonical := by
    split
    · exact List.forall_mem_nil _
    · simp [hresolution]
  simp only [representable_iff, metadataIntegers, ledgerFields, Value.canonical_obj,
    List.forall_mem_append, List.forall_mem_cons, Value.canonical_str, Value.canonical_opt,
    hevaluation, huniverse, hcounterfactual, hfrontier, Value.canonical_seq,
    List.forall_mem_map, implies_true, true_and, List.not_mem_nil, false_implies, and_true]
  constructor
  · rintro ⟨⟨hdecision, hpurchase, hrequirement, hprofile, hstack, hpolicy, -, hplans⟩, -⟩
    exact ⟨⟨hdecision, hpurchase, hrequirement, hprofile, hstack, hpolicy⟩, hplans⟩
  · rintro ⟨⟨hdecision, hpurchase, hrequirement, hprofile, hstack, hpolicy⟩, hplans⟩
    exact ⟨⟨hdecision, hpurchase, hrequirement, hprofile, hstack, hpolicy, hresults, hplans⟩, hactors⟩

theorem evaluateDecisionGraph_base {evaluationId : String} {generatedAt : Datetime} {limit : Nat}
    {decision : DecisionGraphDecision}
    (h : evaluateDecisionGraph rt input evaluationId generatedAt limit = .ok decision) :
    evaluateDecisionGraphOnce rt input evaluationId generatedAt = .ok decision.base ∧
      (Value.nat decision.counterfactual.testedLimit).Canonical := by
  unfold evaluateDecisionGraph at h
  obtain ⟨base, hbase, h⟩ := bind_eq_ok.mp h
  obtain ⟨generic, -, h⟩ := bind_eq_ok.mp h
  obtain ⟨counterfactual, hcounterfactual, h⟩ := bind_eq_ok.mp h
  obtain ⟨hash, -, h⟩ := bind_eq_ok.mp h
  obtain rfl := pure_eq_ok.mp h
  refine ⟨hbase, ?_⟩
  unfold searchPrivateFactCounterfactuals at hcounterfactual
  obtain ⟨-, -, hcounterfactual⟩ := bind_eq_ok.mp hcounterfactual
  obtain ⟨winners, -, hcounterfactual⟩ := bind_eq_ok.mp hcounterfactual
  obtain ⟨recordHash, hrecord, hcounterfactual⟩ := bind_eq_ok.mp hcounterfactual
  rw [← pure_eq_ok.mp hcounterfactual]
  have hcanonical := exists_contentHash_eq_ok.mp ⟨recordHash, hrecord⟩
  simp only [counterfactualPayload, Value.canonical_obj, List.forall_mem_cons] at hcanonical
  exact hcanonical.2.2.2.1

/-! ## Coverage -/

/-- The entry is the one of the identity: it has the product id of the identity, and
    the status and gate results of the plan built from it. -/
structure EntryFor (rt : Runtime) (input : DecisionGraphInput)
    (evaluation : DecisionGraphEvaluation) (identity : IdentityRecord) (entry : ComponentResult) :
    Prop where
  componentId : entry.componentId = identity.productId
  plan : ∃ plan ∈ evaluation.plans,
    BuiltFromIdentity rt input evaluation.evidenceAssessments identity plan ∧
      entry.status = plan.status ∧ entry.gateResults = plan.gateResults

/-- The decision can be written, with exactly one entry for every recalled identity. -/
def LedgerCovers (rt : Runtime) (decision : DecisionGraphDecision) (input : DecisionGraphInput)
    (metadata : DecisionLedgerMetadata) (names : Dict String String) : Prop :=
  ∃ ledger, buildDecisionLedger rt decision input metadata names = .ok ledger ∧
    ∃ entries, ledger.componentResults.Perm entries ∧
      List.Forall₂ (EntryFor rt input decision.base) decision.base.identityRecords entries

/-- The ledger finds what it looks up: identities have different products, the
    candidates are written with the product ids of the identities, the first
    candidate of every product cites recorded evidence only, and the integers that
    only the ledger writes are in range. -/
structure Joinable (decision : DecisionGraphDecision) (input : DecisionGraphInput)
    (metadata : DecisionLedgerMetadata) : Prop where
  identities : (decision.base.identityRecords.map (·.productId)).Nodup
  products : ∀ productId, productId ∈ recalledProductIds decision.base input ↔
    productId ∈ decision.base.identityRecords.map (·.productId)
  evidence : ∀ candidate, FirstOfProduct decision.base input candidate →
    CitesRecords input candidate
  integers : Representable (ledgerIntegers decision.base metadata)

section Coverage

variable {evaluationId : String} {generatedAt : Datetime} {limit : Nat}
  {decision : DecisionGraphDecision} {metadata : DecisionLedgerMetadata}
  {names : Dict String String}

theorem buildDecisionLedger_eq_ok {ledger : DecisionLedger} :
    buildDecisionLedger rt decision input metadata names = .ok ledger ↔
      ∃ results, componentResults decision.base input names = .ok results ∧
      ∃ evaluatedAt, timestamp decision.base.evaluatedAt = .ok evaluatedAt ∧
      ∃ plans, decision.base.plans.mapM
        (solutionPlan decision input metadata.selectedStackPatchId) = .ok plans ∧
      ∃ createdAt, timestamp metadata.createdAt = .ok createdAt ∧
      ∃ hash, contentHash rt (.obj (ledgerFields decision input metadata results plans evaluatedAt
        createdAt)) = .ok hash ∧
      ⟨results, ledgerFields decision input metadata results plans evaluatedAt createdAt, hash⟩ =
        ledger := by
  simp only [buildDecisionLedger, bind_eq_ok, pure_eq_ok]

variable {results : List ComponentResult}

theorem componentIds_of_componentResults
    (h : componentResults evaluation input names = .ok results) :
    results.map (·.componentId) = (emittedCandidates evaluation input).map (·.productId) := by
  rw [← List.forall₂_eq_eq_eq, List.forall₂_map_left_iff, List.forall₂_map_right_iff]
  exact (mapM_eq_ok.mp h).flip.imp (fun _ _ hrun => (componentResult_eq_ok hrun).1)

theorem canonical_ledger_iff
    (h : evaluateDecisionGraph rt input evaluationId generatedAt limit = .ok decision)
    {plans : List Value} {evaluatedAt createdAt : String}
    (hresults : componentResults decision.base input names = .ok results)
    (hplans : decision.base.plans.mapM
      (solutionPlan decision input metadata.selectedStackPatchId) = .ok plans) :
    (Value.obj (ledgerFields decision input metadata results plans evaluatedAt
      createdAt)).Canonical ↔ Representable (ledgerIntegers decision.base metadata) := by
  obtain ⟨hbase, hlimit⟩ := evaluateDecisionGraph_base h
  have hhashed := hashed_of_evaluate hbase
  have hentries : ∀ entry ∈ results, entry.toValue.Canonical := by
    intro entry hentry
    obtain ⟨candidate, hcandidate, hrun⟩ := (mem_of_mapM_eq_ok hresults).mp hentry
    exact canonical_componentResult hhashed (mem_emittedCandidates.mp hcandidate).mem hrun
  have hsame : (Value.seq plans).Canonical ↔
      ∀ plan ∈ decision.base.plans, Representable (planIntegers plan) := by
    rw [Value.canonical_seq]
    constructor
    · intro hall plan hplan
      obtain ⟨v, hv, hiff⟩ := exists_solutionPlan hbase hplan metadata.selectedStackPatchId
      exact hiff.mp (hall v ((mem_of_mapM_eq_ok hplans).mpr ⟨plan, hplan, hv⟩))
    · intro hall v hv
      obtain ⟨plan, hplan, hrun⟩ := (mem_of_mapM_eq_ok hplans).mp hv
      obtain ⟨w, hw, hiff⟩ := exists_solutionPlan hbase hplan metadata.selectedStackPatchId
      obtain rfl : w = v := Except.ok.inj (hw.symm.trans hrun)
      exact hiff.mpr (hall plan hplan)
  unfold ledgerIntegers
  rw [canonical_ledgerFields hhashed.coverage hlimit hentries, representable_append,
    representable_flatMap, hsame]

/-- A written entry whose id is the product of an identity is the entry of that
    identity, when no other identity has the product. -/
theorem entryFor_of_componentId
    (h : evaluateDecisionGraphOnce rt input evaluationId generatedAt = .ok evaluation)
    (hnodup : (evaluation.identityRecords.map (·.productId)).Nodup)
    (hresults : componentResults evaluation input names = .ok results) {identity : IdentityRecord}
    (hidentity : identity ∈ evaluation.identityRecords) {entry : ComponentResult}
    (hentry : entry ∈ results) (hsame : entry.componentId = identity.productId) :
    EntryFor rt input evaluation identity entry := by
  obtain ⟨candidate, -, hrun⟩ := (mem_of_mapM_eq_ok hresults).mp hentry
  obtain ⟨hid, plan, hget, hstatus, hgates⟩ := componentResult_eq_ok hrun
  obtain ⟨hplan, other, hother, hproduct, hbuilt⟩ := identity_of_planByProduct h hget
  obtain rfl : other = identity := by
    refine List.inj_on_of_nodup_map hnodup hother hidentity ?_
    rw [hproduct, ← hid, hsame]
  exact ⟨hsame, plan, hplan, hbuilt, hstatus, hgates⟩

theorem covers_of_joinable
    (h : evaluateDecisionGraph rt input evaluationId generatedAt limit = .ok decision)
    (hcreated : metadata.createdAt.aware = true) (hjoin : Joinable decision input metadata) :
    LedgerCovers rt decision input metadata names := by
  obtain ⟨hbase, -⟩ := evaluateDecisionGraph_base h
  have hevaluated : decision.base.evaluatedAt.aware = true := by
    obtain ⟨pipeline, -, inputHashes, -, payload, -, hash, -, hsame⟩ :=
      evaluateDecisionGraphOnce_eq_ok.mp hbase
    rw [← hsame]
    exact input.evaluatedAt_aware
  have hresults : ∃ results, componentResults decision.base input names = .ok results := by
    refine exists_mapM_eq_ok (fun candidate hcandidate => ?_)
    have hemitted := mem_emittedProductIds.mp (List.mem_map_of_mem hcandidate)
    obtain ⟨plan, hplan⟩ := exists_planByProduct hbase ((hjoin.products _).mp hemitted)
    exact exists_componentResult hplan
      (hjoin.evidence candidate (mem_emittedCandidates.mp hcandidate))
  obtain ⟨results, hresults⟩ := hresults
  have hplans : ∃ plans, decision.base.plans.mapM
      (solutionPlan decision input metadata.selectedStackPatchId) = .ok plans := by
    refine exists_mapM_eq_ok (fun plan hplan => ?_)
    obtain ⟨v, hv, -⟩ := exists_solutionPlan hbase hplan metadata.selectedStackPatchId
    exact ⟨v, hv⟩
  obtain ⟨plans, hplans⟩ := hplans
  have htimestamp : ∀ d : Datetime, d.aware = true → ∃ text, timestamp d = .ok text := by
    intro d hd
    exact ⟨_, if_pos hd⟩
  obtain ⟨evaluatedAt, hat⟩ := htimestamp _ hevaluated
  obtain ⟨createdAt, hcreatedAt⟩ := htimestamp _ hcreated
  obtain ⟨hash, hhash⟩ := exists_contentHash_eq_ok.mpr
    ((canonical_ledger_iff h hresults hplans).mpr hjoin.integers)
  refine ⟨_, buildDecisionLedger_eq_ok.mpr ⟨results, hresults, evaluatedAt, hat, plans, hplans,
    createdAt, hcreatedAt, hash, hhash, rfl⟩, ?_⟩
  -- The entries have the product ids of the identities, so they can be put in their order.
  have hperm : (results.map (·.componentId)).Perm
      (decision.base.identityRecords.map (·.productId)) := by
    rw [componentIds_of_componentResults hresults]
    refine (List.perm_ext_iff_of_nodup nodup_emit hjoin.identities).mpr (fun productId => ?_)
    exact mem_emittedProductIds.trans (hjoin.products productId)
  have hids : List.Forall₂ (fun (entry : ComponentResult) id => entry.componentId = id) results
      (results.map (·.componentId)) := by
    rw [List.forall₂_map_right_iff]
    exact List.forall₂_same.mpr (fun _ _ => rfl)
  have hcomp : Relation.Comp List.Perm (List.Forall₂
      (fun (entry : ComponentResult) id => entry.componentId = id)) results
        (decision.base.identityRecords.map (·.productId)) := by
    rw [← List.forall₂_comp_perm_eq_perm_comp_forall₂]
    exact ⟨_, hids, hperm⟩
  obtain ⟨entries, hentries, hordered⟩ := hcomp
  refine ⟨entries, hentries, ?_⟩
  rw [List.forall₂_map_right_iff] at hordered
  have hmem : List.Forall₂ (fun entry identity => entry ∈ results ∧
      identity ∈ decision.base.identityRecords ∧ entry.componentId = identity.productId) entries
        decision.base.identityRecords := by
    rw [List.forall₂_iff_get] at hordered ⊢
    refine ⟨hordered.1, fun i hi hi' => ⟨hentries.mem_iff.mpr (List.get_mem _ _),
      List.get_mem _ _, hordered.2 i hi hi'⟩⟩
  exact hmem.flip.imp (fun identity entry hboth =>
    entryFor_of_componentId hbase hjoin.identities hresults hboth.2.1 hboth.1 hboth.2.2)

theorem joinable_of_covers
    (h : evaluateDecisionGraph rt input evaluationId generatedAt limit = .ok decision)
    (hcovers : LedgerCovers rt decision input metadata names) : Joinable decision input metadata := by
  obtain ⟨hbase, -⟩ := evaluateDecisionGraph_base h
  obtain ⟨ledger, hledger, entries, hperm, hentries⟩ := hcovers
  obtain ⟨results, hresults, evaluatedAt, -, plans, hplans, createdAt, -, hash, hhash, rfl⟩ :=
    buildDecisionLedger_eq_ok.mp hledger
  have hids : entries.map (·.componentId) =
      decision.base.identityRecords.map (·.productId) := by
    rw [← List.forall₂_eq_eq_eq, List.forall₂_map_left_iff, List.forall₂_map_right_iff]
    exact hentries.flip.imp (fun _ _ hentry => hentry.componentId)
  have hproducts : ((emittedCandidates decision.base input).map (·.productId)).Perm
      (decision.base.identityRecords.map (·.productId)) := by
    rw [← componentIds_of_componentResults hresults, ← hids]
    exact hperm.map _
  refine ⟨hproducts.nodup_iff.mp nodup_emit, fun productId => ?_, fun candidate hfirst => ?_, ?_⟩
  · rw [← mem_emittedProductIds]
    exact hproducts.mem_iff
  · obtain ⟨entry, -, hrun⟩ := exists_of_mapM_eq_ok hresults
      (mem_emittedCandidates.mpr hfirst)
    exact citesRecords_of_componentResult hbase hfirst hrun
  · exact (canonical_ledger_iff h hresults hplans).mp (exists_contentHash_eq_ok.mp ⟨hash, hhash⟩)

/-- A decision is written with one entry for every recalled identity exactly when the
    ledger finds what it looks up. -/
theorem ledgerCovers_iff_joinable (rt : Runtime) (input : DecisionGraphInput)
    (evaluationId : String) (generatedAt : Datetime) (limit : Nat)
    (decision : DecisionGraphDecision) (metadata : DecisionLedgerMetadata)
    (names : Dict String String)
    (h : evaluateDecisionGraph rt input evaluationId generatedAt limit = .ok decision)
    (hcreated : metadata.createdAt.aware = true) :
    LedgerCovers rt decision input metadata names ↔ Joinable decision input metadata :=
  ⟨joinable_of_covers h, covers_of_joinable h hcreated⟩

end Coverage

/-! ## A product id in capitals -/

namespace Sample

def metadata : DecisionLedgerMetadata where
  decisionId := "decision"
  decisionVersion := 1
  supersedesDecisionId := none
  requestId := "request"
  purchaseBriefId := "purchase_brief"
  purchaseBriefVersion := 1
  requirementBriefId := "requirement_brief"
  requirementBriefVersion := 1
  companyProfileVersion := 1
  stackSnapshot := 1
  policyVersion := 1
  createdAt := DecisionEngine.Sample.now

/-- A recalled product whose id is not in its canonical form. -/
def capitalSso : RawCandidateRecord :=
  { DecisionEngine.Sample.sso with productId := "SSO", admitted := by decide +kernel }

/-- A recalled product that cites evidence without a record. -/
def danglingFact : ProductFact :=
  { DecisionEngine.Sample.cloudFact with evidenceIds := .of ["e9"], admitted := by decide +kernel }

def danglingSso : RawCandidateRecord :=
  { DecisionEngine.Sample.sso with facts := [danglingFact], admitted := by decide +kernel }

/-- One candidate and no other option. -/
def inputOf (candidate : RawCandidateRecord) : DecisionGraphInput :=
  { DecisionEngine.Sample.input with
    candidates := [candidate]
    offers := [DecisionEngine.Sample.ssoOffer]
    evidencePolicies := [DecisionEngine.Sample.policy, DecisionEngine.Sample.hostingPolicy]
    currentActions := []
    candidates_nodup := List.nodup_singleton _
    offers_nodup := DecisionEngine.Sample.ssoOffer_nodup
    evidencePolicies_nodup := DecisionEngine.Sample.bundleInput.evidencePolicies_nodup
    currentActions_nodup := DecisionEngine.Sample.noActions_nodup }

/-- The error of the ledger of a decision, if there is a decision. -/
def ledgerError (input : DecisionGraphInput) : Option PyError :=
  match evaluateDecisionGraph .ascii input "base" DecisionEngine.Sample.now 3 with
  | .error _ => none
  | .ok decision =>
    match buildDecisionLedger .ascii decision input metadata .empty with
    | .error e => some e
    | .ok _ => none

end Sample

/-- Recall folds the id of the product, but the ledger looks its plan up by the id as
    it was written; and it asks for a record of evidence that the engine only marks
    as missing. Neither decision can be written. -/
theorem decision_without_ledger :
    Sample.metadata.createdAt.aware = true ∧
      ∀ p ∈ [(Sample.capitalSso, "SSO"), (Sample.danglingSso, "e9")],
        ∃ decision, evaluateDecisionGraph .ascii (Sample.inputOf p.1) "base"
            DecisionEngine.Sample.now 3 = .ok decision ∧
          buildDecisionLedger .ascii decision (Sample.inputOf p.1) Sample.metadata .empty =
            .error (.key p.2) ∧
          ¬ LedgerCovers .ascii decision (Sample.inputOf p.1) Sample.metadata .empty := by
  refine ⟨rfl, fun p hp => ?_⟩
  have hruns : ∀ p ∈ [(Sample.capitalSso, "SSO"), (Sample.danglingSso, "e9")],
      Sample.ledgerError (Sample.inputOf p.1) = some (.key p.2) := by
    simp only [List.forall_mem_cons, List.not_mem_nil, false_implies, implies_true, and_true]
    exact ⟨by decide +kernel, by decide +kernel⟩
  have herror := hruns p hp
  unfold Sample.ledgerError at herror
  split at herror
  · cases herror
  · rename_i decision hdecision
    split at herror
    · rename_i e hledger
      cases herror
      refine ⟨decision, hdecision, hledger, ?_⟩
      rintro ⟨ledger, hok, -⟩
      rw [hledger] at hok
      cases hok
    · cases herror

/-- The decision on a single product is written with its one entry. -/
theorem ledgerCovers_iff_joinable_sample :
    ∃ decision, evaluateDecisionGraph .ascii (Sample.inputOf DecisionEngine.Sample.sso) "base"
        DecisionEngine.Sample.now 3 = .ok decision ∧
      (LedgerCovers .ascii decision (Sample.inputOf DecisionEngine.Sample.sso) Sample.metadata
        .empty ↔ Joinable decision (Sample.inputOf DecisionEngine.Sample.sso) Sample.metadata) ∧
      LedgerCovers .ascii decision (Sample.inputOf DecisionEngine.Sample.sso) Sample.metadata
        .empty := by
  have hrun : (evaluateDecisionGraph .ascii (Sample.inputOf DecisionEngine.Sample.sso) "base"
      DecisionEngine.Sample.now 3).toOption.any (fun decision =>
        decide (decision.base.identityRecords.map (·.productId) = ["sso"] ∧
          recalledProductIds decision.base (Sample.inputOf DecisionEngine.Sample.sso) = ["sso"] ∧
          ∀ n ∈ ledgerIntegers decision.base Sample.metadata, -(2 ^ 53) < n ∧ n < 2 ^ 53)) =
        true := by
    rw [Runtime.ascii_eq]
    decide +kernel
  obtain ⟨decision, hdecision, hchecks⟩ := exists_of_toOption_any hrun
  obtain ⟨hidentities, hproducts, hintegers⟩ := of_decide_eq_true hchecks
  have hiff := ledgerCovers_iff_joinable .ascii (Sample.inputOf DecisionEngine.Sample.sso) "base"
    DecisionEngine.Sample.now 3 decision Sample.metadata .empty hdecision rfl
  refine ⟨decision, hdecision, hiff, hiff.mpr ⟨?_, ?_, ?_, hintegers⟩⟩
  · rw [hidentities]
    exact List.nodup_singleton _
  · intro productId
    rw [hidentities, hproducts]
  · intro candidate hfirst
    obtain rfl : candidate = DecisionEngine.Sample.sso := List.mem_singleton.mp hfirst.mem
    unfold CitesRecords
    decide +kernel

end SiraApi
