-- SUMMARY: The gates of one candidate: buyer constraints, seller anti-fit rules and the dependency, and that a decided status stays the same when the contexts tell more.
import SiraSeil.Domain.Rules

/-!
# Candidates

`evaluate_candidate` of `decision_engine/evaluation.py` over the definitions of
`decision_engine/models.py`: the gates of the buyer are evaluated in the buyer's context, those of the
seller in the sanitized seller context.
-/

namespace DecisionEngine

open Domain Raising

variable {V : Type}

/-! ## Definitions -/

/-- `BuyerConstraint` -/
structure BuyerConstraint (host : Host V) where
  ruleId : String
  expression : RuleExpression host
  reasonCode : String
  displayReason : String
  exceptionAllowed : Bool := false
  rule_id : isId ruleId = true
  reason : reasonCode ≠ "" ∧ displayReason ≠ ""

/-- `SellerAntiFitRule` -/
structure SellerAntiFitRule (host : Host V) where
  ruleId : String
  expression : RuleExpression host
  reasonCode : String
  displayReason : String
  evidenceClaimIds : List String
  rule_id : isId ruleId = true
  reason : reasonCode ≠ "" ∧ displayReason ≠ ""
  evidence : evidenceClaimIds ≠ [] ∧ ∀ id ∈ evidenceClaimIds, isId id = true

/-- `PreferenceResult`, which the gates carry along -/
structure PreferenceResult where
  criterionId : String
  weight : Nat
  satisfaction : PyDecimal
  evidenceIds : List String := []
  unknown : Bool := false
  deriving DecidableEq

/-- `CandidateDefinition` -/
structure CandidateDefinition (host : Host V) where
  candidateId : String
  name : String
  packId : String
  packVersion : Nat
  available : Bool := true
  evidenceBlock : Option CandidateStatus := none
  buyerConstraints : List (BuyerConstraint host) := []
  sellerAntiFitRules : List (SellerAntiFitRule host) := []
  approvedExceptionRuleIds : List String := []
  dependencyState : TruthValue := .true
  preferenceResults : List PreferenceResult := []
  sellerPositioning : Option String := none
  ids : isId candidateId = true ∧ isId packId = true
  pack : name ≠ "" ∧ 1 ≤ packVersion
  block : ∀ status ∈ evidenceBlock,
    status = .staleEvidence ∨ status = .insufficientEvidence ∨ status = .conflictingEvidence
  exceptions : ∀ id ∈ approvedExceptionRuleIds, id ∈ buyerConstraints.map (·.ruleId)

structure CandidateResult where
  candidateId : String
  name : String
  packId : String
  packVersion : Nat
  status : CandidateStatus
  reasonCode : Option String
  reason : String
  preferenceResults : List PreferenceResult
  buyerRuleId : Option String := none
  sellerRuleId : Option String := none
  evidenceClaimIds : List String := []
  unresolvedFields : List String := []
  sellerPositioning : Option String := none
  deriving DecidableEq

/-- An optional id that is neither missing nor empty -/
def given (id : Option String) : Bool :=
  id.any (· ≠ "")

/-- `CandidateResult(…)` with its checks -/
def CandidateResult.checked (result : CandidateResult) : Py CandidateResult :=
  if result.status = .siraIneligible ∧ given result.buyerRuleId = false then
    .error (.domainValidation "SIRA_INELIGIBLE must identify the buyer rule")
  else if result.status = .seilPass ∧ given result.sellerRuleId = false then
    .error (.domainValidation "SEIL_PASS must identify the published seller rule")
  else if given result.buyerRuleId = true ∧ given result.sellerRuleId = true then
    .error (.domainValidation "buyer and seller rejection provenance cannot be conflated")
  else .ok { result with unresolvedFields := Sorting.sortedSet result.unresolvedFields }

/-! ## Gates -/

section Gates

variable {host : Host V}

/-- `_result`, before the fields that a gate adds -/
def CandidateDefinition.result (candidate : CandidateDefinition host) (status : CandidateStatus)
    (reasonCode : Option String) (reason : String) : CandidateResult where
  candidateId := candidate.candidateId
  name := candidate.name
  packId := candidate.packId
  packVersion := candidate.packVersion
  status := status
  reasonCode := reasonCode
  reason := reason
  preferenceResults := candidate.preferenceResults
  sellerPositioning := candidate.sellerPositioning

/-- The loop over the buyer constraints: the result of the first that stops, or whether an exception was
    used -/
def buyerGates (candidate : CandidateDefinition host) (context : V) :
    List (BuyerConstraint host) → Bool → Py (CandidateResult ⊕ Bool)
  | [], exceptionUsed => .ok (.inr exceptionUsed)
  | constraint :: constraints, exceptionUsed => do
    let evaluation ← constraint.expression.evaluate context
    if evaluation.value = .unresolved then
      .inl <$> CandidateResult.checked
        { candidate.result .insufficientEvidence (some "BUYER_RULE_UNRESOLVED")
            "A required buyer-policy fact is unresolved" with
          buyerRuleId := some constraint.ruleId
          unresolvedFields := evaluation.unresolvedFields }
    else if evaluation.value = .false then
      if constraint.exceptionAllowed = true ∧ constraint.ruleId ∈ candidate.approvedExceptionRuleIds then
        buyerGates candidate context constraints true
      else
        .inl <$> CandidateResult.checked
          { candidate.result .siraIneligible (some constraint.reasonCode) constraint.displayReason with
            buyerRuleId := some constraint.ruleId }
    else buyerGates candidate context constraints exceptionUsed

/-- The loop over the seller's rules: the result of the first that stops -/
def sellerGates (candidate : CandidateDefinition host) (context : V) :
    List (SellerAntiFitRule host) → Py (Option CandidateResult)
  | [] => .ok none
  | antiFit :: rules => do
    let evaluation ← antiFit.expression.evaluate context
    if evaluation.value = .true then
      some <$> CandidateResult.checked
        { candidate.result .seilPass (some antiFit.reasonCode) antiFit.displayReason with
          sellerRuleId := some antiFit.ruleId
          evidenceClaimIds := antiFit.evidenceClaimIds }
    else if evaluation.value = .unresolved then
      some <$> CandidateResult.checked
        { candidate.result .conditional (some "SELLER_CONDITION_UNRESOLVED")
            "A published seller condition needs an allowed field or seller revision" with
          sellerRuleId := some antiFit.ruleId
          evidenceClaimIds := antiFit.evidenceClaimIds
          unresolvedFields := evaluation.unresolvedFields }
    else sellerGates candidate context rules

/-- What is left once both parties' gates are passed -/
def dependencyGate (candidate : CandidateDefinition host) (exceptionUsed : Bool) : Py CandidateResult :=
  if candidate.dependencyState = .false then
    CandidateResult.checked
      { candidate.result .siraIneligible (some "DEPENDENCY_UNSATISFIED")
          "A required dependency cannot be satisfied" with
        buyerRuleId := some "dependency_plan" }
  else if candidate.dependencyState = .unresolved then
    CandidateResult.checked
      { candidate.result .conditional (some "DEPENDENCY_PLAN_REQUIRED")
          "A required dependency plan is unresolved" with
        unresolvedFields := ["dependency_plan"] }
  else if exceptionUsed then
    CandidateResult.checked (candidate.result .eligibleWithException (some "APPROVED_EXCEPTION")
      "Eligible with an approved buyer-policy exception")
  else
    CandidateResult.checked (candidate.result .eligible none
      "Meets evaluated buyer and published seller gates")

/-- The gates behind those of the buyer -/
def laterGates (candidate : CandidateDefinition host) (context : V) (exceptionUsed : Bool) :
    Py CandidateResult := do
  match ← sellerGates candidate context candidate.sellerAntiFitRules with
  | some result => return result
  | none => dependencyGate candidate exceptionUsed

/-- `evaluate_candidate` -/
def evaluateCandidate (candidate : CandidateDefinition host)
    (buyerEvaluationContext sanitizedSellerContext : V) : Py CandidateResult :=
  if candidate.available = false then
    CandidateResult.checked (candidate.result .unavailable (some "UNAVAILABLE") "Not available")
  else
    match candidate.evidenceBlock with
    | some status =>
      CandidateResult.checked (candidate.result status (some status.value)
        "Required evidence is not currently actionable")
    | none => do
      match ← buyerGates candidate buyerEvaluationContext candidate.buyerConstraints false with
      | .inl result => return result
      | .inr exceptionUsed => laterGates candidate sanitizedSellerContext exceptionUsed

/-! ## Results that are made -/

theorem given_of_isId {id : String} (h : isId id = true) : given (some id) = true := by
  have hne : id ≠ "" := by
    rintro rfl
    exact absurd h (by decide)
  simpa [given] using hne

/-- The rules that a result names fit its status. -/
structure CandidateResult.Provenance (result : CandidateResult) : Prop where
  ineligible : result.status = .siraIneligible → given result.buyerRuleId = true
  pass : result.status = .seilPass → given result.sellerRuleId = true
  apart : result.buyerRuleId = none ∨ result.sellerRuleId = none

theorem CandidateResult.Provenance.checked {result : CandidateResult} (h : result.Provenance) :
    result.checked =
      .ok { result with unresolvedFields := Sorting.sortedSet result.unresolvedFields } := by
  have happart : ¬ (given result.buyerRuleId = true ∧ given result.sellerRuleId = true) := by
    rintro ⟨hbuyer, hseller⟩
    rcases h.apart with hnone | hnone
    · simp [hnone, given] at hbuyer
    · simp [hnone, given] at hseller
  unfold CandidateResult.checked
  rw [if_neg, if_neg, if_neg happart]
  · rintro ⟨hstatus, hmissing⟩
    exact Bool.false_ne_true (hmissing.symm.trans (h.pass hstatus))
  · rintro ⟨hstatus, hmissing⟩
    exact Bool.false_ne_true (hmissing.symm.trans (h.ineligible hstatus))

theorem CandidateResult.Provenance.exists_checked {result : CandidateResult} (h : result.Provenance) :
    ∃ checked, result.checked = .ok checked ∧ checked.status = result.status :=
  ⟨_, h.checked, rfl⟩

/-! ## The gates in one context -/

/-- No rule of a candidate asks whether a field exists. -/
def CandidateDefinition.NoExists (candidate : CandidateDefinition host) : Prop :=
  (∀ constraint ∈ candidate.buyerConstraints, constraint.expression.NoExists) ∧
    ∀ antiFit ∈ candidate.sellerAntiFitRules, antiFit.expression.NoExists

section Steps

variable {candidate : CandidateDefinition host} {context : V} {e : RuleEvaluation}

variable {constraint : BuyerConstraint host} {constraints : List (BuyerConstraint host)}
  {exceptionUsed : Bool} {antiFit : SellerAntiFitRule host} {rules : List (SellerAntiFitRule host)}

attribute [local simp] buyerGates sellerGates

theorem buyerGates_unresolved (he : constraint.expression.evaluate context = .ok e)
    (hvalue : e.value = .unresolved) :
    ∃ result, buyerGates candidate context (constraint :: constraints) exceptionUsed =
      .ok (.inl result) ∧ result.status = .insufficientEvidence := by
  have hprovenance : CandidateResult.Provenance
      { candidate.result .insufficientEvidence (some "BUYER_RULE_UNRESOLVED")
          "A required buyer-policy fact is unresolved" with
        buyerRuleId := some constraint.ruleId
        unresolvedFields := e.unresolvedFields } := by
    constructor
    · exact fun _ => given_of_isId constraint.rule_id
    · simp [CandidateDefinition.result]
    · simp [CandidateDefinition.result]
  obtain ⟨checked, hchecked, hstatus⟩ := hprovenance.exists_checked
  refine ⟨checked, ?_, hstatus⟩
  simp only [buyerGates, he, ok_bind, hvalue, if_true, hchecked]
  rfl

theorem buyerGates_false (he : constraint.expression.evaluate context = .ok e)
    (hvalue : e.value = .false) :
    buyerGates candidate context (constraint :: constraints) exceptionUsed =
      if constraint.exceptionAllowed = true ∧ constraint.ruleId ∈ candidate.approvedExceptionRuleIds then
        buyerGates candidate context constraints true
      else .ok (.inl { candidate.result .siraIneligible (some constraint.reasonCode)
          constraint.displayReason with buyerRuleId := some constraint.ruleId }) := by
  have hprovenance : CandidateResult.Provenance
      { candidate.result .siraIneligible (some constraint.reasonCode) constraint.displayReason with
        buyerRuleId := some constraint.ruleId } := by
    constructor
    · exact fun _ => given_of_isId constraint.rule_id
    · simp [CandidateDefinition.result]
    · simp [CandidateDefinition.result]
  simp only [buyerGates, he, ok_bind, hvalue, reduceCtorEq, if_false, if_true,
    hprovenance.checked]
  rfl

theorem buyerGates_true (he : constraint.expression.evaluate context = .ok e)
    (hvalue : e.value = .true) :
    buyerGates candidate context (constraint :: constraints) exceptionUsed =
      buyerGates candidate context constraints exceptionUsed := by
  simp only [buyerGates, he, ok_bind, hvalue, reduceCtorEq, if_false]

theorem sellerGates_true (he : antiFit.expression.evaluate context = .ok e)
    (hvalue : e.value = .true) :
    sellerGates candidate context (antiFit :: rules) =
      .ok (some { candidate.result .seilPass (some antiFit.reasonCode) antiFit.displayReason with
        sellerRuleId := some antiFit.ruleId
        evidenceClaimIds := antiFit.evidenceClaimIds }) := by
  have hprovenance : CandidateResult.Provenance
      { candidate.result .seilPass (some antiFit.reasonCode) antiFit.displayReason with
        sellerRuleId := some antiFit.ruleId
        evidenceClaimIds := antiFit.evidenceClaimIds } := by
    constructor
    · simp [CandidateDefinition.result]
    · exact fun _ => given_of_isId antiFit.rule_id
    · simp [CandidateDefinition.result]
  simp only [sellerGates, he, ok_bind, hvalue, if_true, hprovenance.checked]
  rfl

theorem sellerGates_unresolved (he : antiFit.expression.evaluate context = .ok e)
    (hvalue : e.value = .unresolved) :
    ∃ result, sellerGates candidate context (antiFit :: rules) = .ok (some result) ∧
      result.status = .conditional := by
  have hprovenance : CandidateResult.Provenance
      { candidate.result .conditional (some "SELLER_CONDITION_UNRESOLVED")
          "A published seller condition needs an allowed field or seller revision" with
        sellerRuleId := some antiFit.ruleId
        evidenceClaimIds := antiFit.evidenceClaimIds
        unresolvedFields := e.unresolvedFields } := by
    constructor
    · simp [CandidateDefinition.result]
    · exact fun _ => given_of_isId antiFit.rule_id
    · simp [CandidateDefinition.result]
  obtain ⟨checked, hchecked, hstatus⟩ := hprovenance.exists_checked
  refine ⟨checked, ?_, hstatus⟩
  simp only [sellerGates, he, ok_bind, hvalue, reduceCtorEq, if_false, if_true, hchecked]
  rfl

theorem sellerGates_false (he : antiFit.expression.evaluate context = .ok e)
    (hvalue : e.value = .false) :
    sellerGates candidate context (antiFit :: rules) = sellerGates candidate context rules := by
  simp only [sellerGates, he, ok_bind, hvalue, reduceCtorEq, if_false]

theorem exists_dependencyGate (exceptionUsed : Bool) :
    ∃ result, dependencyGate candidate exceptionUsed = .ok result := by
  have hchecked : ∀ result : CandidateResult, result.Provenance → ∃ checked,
      result.checked = .ok checked := fun result h => ⟨_, h.checked⟩
  unfold dependencyGate
  split
  · apply hchecked
    constructor <;> simp [CandidateDefinition.result, given]
  · split
    · apply hchecked
      constructor <;> simp [CandidateDefinition.result]
    · split
      · apply hchecked
        constructor <;> simp [CandidateDefinition.result]
      · apply hchecked
        constructor <;> simp [CandidateDefinition.result]

end Steps

/-! ## Larger contexts -/

theorem buyerGates_extends {candidate : CandidateDefinition host} {context context' : V}
    (h : Extends host context context') {constraints : List (BuyerConstraint host)}
    (hconstraints : ∀ constraint ∈ constraints, constraint.expression.NoExists) (exceptionUsed : Bool) :
    ∃ stop stop', buyerGates candidate context constraints exceptionUsed = .ok stop ∧
      buyerGates candidate context' constraints exceptionUsed = .ok stop' ∧
      (stop' = stop ∨ ∃ result, stop = .inl result ∧ result.status = .insufficientEvidence) := by
  induction constraints generalizing exceptionUsed with
  | nil => exact ⟨_, _, rfl, rfl, .inl rfl⟩
  | cons constraint constraints ih =>
    obtain ⟨hconstraint, hrest⟩ := List.forall_mem_cons.mp hconstraints
    obtain ⟨e, e', he, he', hkept⟩ := constraint.expression.evaluate_extends hconstraint h
    -- a decided value is the same in both contexts, and so is what follows from it
    have hdecided : e.value ≠ .unresolved → ∃ stop stop',
        buyerGates candidate context (constraint :: constraints) exceptionUsed = .ok stop ∧
          buyerGates candidate context' (constraint :: constraints) exceptionUsed = .ok stop' ∧
          (stop' = stop ∨ ∃ result, stop = .inl result ∧ result.status = .insufficientEvidence) := by
      intro hvalue
      have hsame : e'.value = e.value := hkept.resolve_left hvalue
      rcases RuleExpression.value_cases he with htrue | hfalse | hunresolved
      · rw [buyerGates_true he htrue, buyerGates_true he' (hsame.trans htrue)]
        exact ih hrest exceptionUsed
      · rw [buyerGates_false he hfalse, buyerGates_false he' (hsame.trans hfalse)]
        split
        · exact ih hrest true
        · exact ⟨_, _, rfl, rfl, .inl rfl⟩
      · exact absurd hunresolved hvalue
    by_cases hvalue : e.value = .unresolved
    · obtain ⟨result, hresult, hstatus⟩ :=
        @buyerGates_unresolved V host candidate context e constraint constraints exceptionUsed he hvalue
      have hstop' : ∃ stop',
          buyerGates candidate context' (constraint :: constraints) exceptionUsed = .ok stop' := by
        rcases RuleExpression.value_cases he' with htrue | hfalse | hunresolved
        · rw [buyerGates_true he' htrue]
          obtain ⟨-, stop', -, hstop', -⟩ := ih hrest exceptionUsed
          exact ⟨stop', hstop'⟩
        · rw [buyerGates_false he' hfalse]
          split
          · obtain ⟨-, stop', -, hstop', -⟩ := ih hrest true
            exact ⟨stop', hstop'⟩
          · exact ⟨_, rfl⟩
        · obtain ⟨result', hresult', -⟩ := buyerGates_unresolved he' hunresolved
          exact ⟨_, hresult'⟩
      obtain ⟨stop', hstop'⟩ := hstop'
      exact ⟨_, stop', hresult, hstop', .inr ⟨result, rfl, hstatus⟩⟩
    · exact hdecided hvalue

theorem sellerGates_extends {candidate : CandidateDefinition host} {context context' : V}
    (h : Extends host context context') {rules : List (SellerAntiFitRule host)}
    (hrules : ∀ antiFit ∈ rules, antiFit.expression.NoExists) :
    ∃ stop stop', sellerGates candidate context rules = .ok stop ∧
      sellerGates candidate context' rules = .ok stop' ∧
      (stop' = stop ∨ ∃ result, stop = some result ∧ result.status = .conditional) := by
  induction rules with
  | nil => exact ⟨_, _, rfl, rfl, .inl rfl⟩
  | cons antiFit rules ih =>
    obtain ⟨hantiFit, hrest⟩ := List.forall_mem_cons.mp hrules
    obtain ⟨e, e', he, he', hkept⟩ := antiFit.expression.evaluate_extends hantiFit h
    obtain ⟨stop, stop', hstop, hstop', hsame⟩ := ih hrest
    rcases RuleExpression.value_cases he with htrue | hfalse | hunresolved
    · have htrue' : e'.value = .true := (hkept.resolve_left (by simp [htrue])).trans htrue
      exact ⟨_, _, sellerGates_true he htrue, sellerGates_true he' htrue', .inl rfl⟩
    · have hfalse' : e'.value = .false := (hkept.resolve_left (by simp [hfalse])).trans hfalse
      rw [sellerGates_false he hfalse, sellerGates_false he' hfalse']
      exact ⟨stop, stop', hstop, hstop', hsame⟩
    · obtain ⟨result, hresult, hstatus⟩ :=
        @sellerGates_unresolved V host candidate context e antiFit rules he hunresolved
      have hlater : ∃ stop', sellerGates candidate context' (antiFit :: rules) = .ok stop' := by
        rcases RuleExpression.value_cases he' with htrue | hfalse | hunresolved
        · exact ⟨_, sellerGates_true he' htrue⟩
        · rw [sellerGates_false he' hfalse]
          exact ⟨stop', hstop'⟩
        · obtain ⟨result', hresult', -⟩ := sellerGates_unresolved he' hunresolved
          exact ⟨_, hresult'⟩
      obtain ⟨later, hlater⟩ := hlater
      exact ⟨_, later, hresult, hlater, .inr ⟨result, rfl, hstatus⟩⟩

/-! ## Decided verdicts -/

/-- The statuses of a verdict that was reached -/
def decidedStatuses : List CandidateStatus :=
  [.eligible, .eligibleWithException, .siraIneligible, .seilPass]

theorem evaluateCandidate_eq {candidate : CandidateDefinition host}
    (havailable : candidate.available = true) (hblock : candidate.evidenceBlock = none)
    {buyer seller : V} {stop : CandidateResult ⊕ Bool}
    (hstop : buyerGates candidate buyer candidate.buyerConstraints false = .ok stop) :
    evaluateCandidate candidate buyer seller =
      stop.elim (fun result => .ok result) (laterGates candidate seller) := by
  unfold evaluateCandidate
  simp only [havailable, Bool.true_eq_false, if_false, hblock, hstop, ok_bind]
  cases stop <;> rfl

/-- The result of a candidate that is not available or blocked is none of the verdicts, and looks at no
    context. -/
theorem evaluateCandidate_blocked {candidate : CandidateDefinition host}
    (h : ¬ (candidate.available = true ∧ candidate.evidenceBlock = none)) :
    ∃ result, result.status ∉ decidedStatuses ∧
      ∀ buyer seller, evaluateCandidate candidate buyer seller = .ok result := by
  unfold evaluateCandidate
  cases havailable : candidate.available with
  | false =>
    have hprovenance : (candidate.result .unavailable (some "UNAVAILABLE") "Not available").Provenance := by
      constructor <;> simp [CandidateDefinition.result]
    exact ⟨_, by simp [CandidateDefinition.result, decidedStatuses], fun _ _ => hprovenance.checked⟩
  | true =>
    cases hblock : candidate.evidenceBlock with
    | none => exact absurd ⟨havailable, hblock⟩ h
    | some status =>
      have hstatus := candidate.block status hblock
      have hprovenance : (candidate.result status (some status.value)
          "Required evidence is not currently actionable").Provenance := by
        constructor
        · rcases hstatus with rfl | rfl | rfl <;> simp [CandidateDefinition.result]
        · rcases hstatus with rfl | rfl | rfl <;> simp [CandidateDefinition.result]
        · simp [CandidateDefinition.result]
      refine ⟨_, ?_, fun _ _ => hprovenance.checked⟩
      rcases hstatus with rfl | rfl | rfl <;> simp [CandidateDefinition.result, decidedStatuses]

theorem laterGates_eq {candidate : CandidateDefinition host} {seller : V} {exceptionUsed : Bool}
    {stop : Option CandidateResult} {result : CandidateResult}
    (hstop : sellerGates candidate seller candidate.sellerAntiFitRules = .ok stop)
    (hresult : dependencyGate candidate exceptionUsed = .ok result) :
    laterGates candidate seller exceptionUsed = .ok (stop.getD result) := by
  unfold laterGates
  rw [hstop, ok_bind]
  cases stop with
  | none => exact hresult
  | some stopped => rfl

/-- A verdict that was reached is reached in every pair of contexts that tell more. The seller's part of
    a verdict is a function of the seller's context: for each context of the buyer, the result is either
    the same for all contexts of the seller, or the seller's verdict, if there is one, and a result
    that is the same for all of them otherwise. -/
theorem verdict_stable {candidate : CandidateDefinition host} (hrules : candidate.NoExists) :
    (∀ {buyer buyer' seller seller' : V}, Extends host buyer buyer' → Extends host seller seller' →
        ∀ result, evaluateCandidate candidate buyer seller = .ok result →
          result.status ∈ decidedStatuses →
            evaluateCandidate candidate buyer' seller' = .ok result) ∧
      ∃ sellerVerdict : V → Option CandidateResult, ∀ buyer : V, ∃ result,
        (∀ seller, evaluateCandidate candidate buyer seller = .ok result) ∨
          ∀ seller, evaluateCandidate candidate buyer seller =
            .ok ((sellerVerdict seller).getD result) := by
  obtain ⟨hbuyers, hsellers⟩ := hrules
  have hself : ∀ context : V, Extends host context context := fun _ _ _ _ h _ => h
  by_cases hready : candidate.available = true ∧ candidate.evidenceBlock = none
  · obtain ⟨havailable, hblock⟩ := hready
    constructor
    · intro buyer buyer' seller seller' hbuyer hseller result h hdecided
      obtain ⟨stop, stop', hstop, hstop', hsame⟩ := buyerGates_extends hbuyer hbuyers false
      obtain ⟨refusal, refusal', hrefusal, hrefusal', hsame'⟩ := sellerGates_extends hseller hsellers
      rw [evaluateCandidate_eq havailable hblock hstop] at h
      rw [evaluateCandidate_eq havailable hblock hstop']
      rcases hsame with rfl | ⟨unresolved, rfl, hstatus⟩
      · cases stop' with
        | inl stopped => exact h
        | inr exceptionUsed =>
          obtain ⟨last, hlast⟩ := @exists_dependencyGate V host candidate exceptionUsed
          rw [Sum.elim_inr, laterGates_eq hrefusal hlast] at h
          rw [Sum.elim_inr, laterGates_eq hrefusal' hlast]
          rcases hsame' with rfl | ⟨conditional, rfl, hstatus⟩
          · exact h
          · cases h
            exact absurd hdecided (by simp [Option.getD, hstatus, decidedStatuses])
      · cases h
        exact absurd hdecided (by simp [hstatus, decidedStatuses])
    · have hverdict : ∀ seller, ∃ refusal,
          sellerGates candidate seller candidate.sellerAntiFitRules = .ok refusal := by
        intro seller
        obtain ⟨refusal, -, hrefusal, -⟩ :=
          @sellerGates_extends V host candidate seller seller (hself seller) _ hsellers
        exact ⟨refusal, hrefusal⟩
      choose sellerVerdict hverdict using hverdict
      refine ⟨sellerVerdict, fun buyer => ?_⟩
      obtain ⟨stop, -, hstop, -⟩ :=
        @buyerGates_extends V host candidate buyer buyer (hself buyer) _ hbuyers false
      cases stop with
      | inl stopped =>
        exact ⟨stopped, .inl fun seller => evaluateCandidate_eq havailable hblock hstop⟩
      | inr exceptionUsed =>
        obtain ⟨last, hlast⟩ := @exists_dependencyGate V host candidate exceptionUsed
        refine ⟨last, .inr fun seller => ?_⟩
        rw [evaluateCandidate_eq havailable hblock hstop, Sum.elim_inr]
        exact laterGates_eq (hverdict seller) hlast
  · obtain ⟨blocked, hstatus, hblocked⟩ := evaluateCandidate_blocked hready
    constructor
    · intro buyer buyer' seller seller' _ _ result h hdecided
      cases h.symm.trans (hblocked buyer seller)
      exact absurd hdecided hstatus
    · exact ⟨fun _ => none, fun buyer => ⟨blocked, .inl fun seller => hblocked buyer seller⟩⟩

end Gates

/-- Objects by their numbers: `0` and `1` are contexts, of which the second tells more, and the others
    are integers. -/
def sampleHost : Host Nat where
  view n :=
    match n with
    | 0 => .mapping (fun field => if field = "seats" then some 25 else none)
    | 1 => .mapping (fun field =>
        if field = "seats" then some 25 else if field = "rooms" then some 3 else none)
    | n => .int n
  equal a b := some (a == b)
  member _ _ := none
  isoDate _ := none
  unicode := ⟨fun _ => none, fun c => [c]⟩

theorem seats_path : isFieldPath "seats" = true := by decide +kernel

theorem seats_collection : RuleOperator.eq = .isIn ∨ RuleOperator.eq = .notIn ∨
    RuleOperator.eq = .containsAll → (collectionItems sampleHost 25).isSome = true := by simp

theorem seats_bool : RuleOperator.eq = .existsField → ∃ b, sampleHost.view 25 = .bool b := by simp

theorem seats_id : isId "seats" = true ∧ isId "candidate" = true ∧ isId "pack" = true := by
  decide +kernel

theorem seats_reason : "SEATS" ≠ "" ∧ "Not enough seats" ≠ "" := by simp

/-- There are 25 seats. -/
def seatsExpression : RuleExpression sampleHost :=
  ⟨[⟨"seats", .eq, 25, seats_path, seats_collection, seats_bool⟩], .all, List.cons_ne_nil _ []⟩

def seatsConstraint : BuyerConstraint sampleHost :=
  ⟨"seats", seatsExpression, "SEATS", "Not enough seats", false, seats_id.1, seats_reason⟩

theorem sample_pack : "Notes" ≠ "" ∧ 1 ≤ 1 := by simp

theorem sample_block : ∀ status ∈ (none : Option CandidateStatus),
    status = .staleEvidence ∨ status = .insufficientEvidence ∨ status = .conflictingEvidence := by simp

theorem sample_exceptions : ∀ id ∈ ([] : List String), id ∈ [seatsConstraint].map (·.ruleId) := by simp

/-- A candidate that asks for 25 seats -/
def sampleCandidate : CandidateDefinition sampleHost where
  candidateId := "candidate"
  name := "Notes"
  packId := "pack"
  packVersion := 1
  buyerConstraints := [seatsConstraint]
  ids := seats_id.2
  pack := sample_pack
  block := sample_block
  exceptions := sample_exceptions

theorem sampleHost_extends : Extends sampleHost 0 1 := by
  intro path hpath value hvalue hpresent
  unfold Domain.resolveField at hvalue ⊢
  rw [if_pos hpath] at hvalue ⊢
  cases hsegments : segments path with
  | nil => exact absurd hsegments (segments_ne_nil path)
  | cons segment rest =>
    rw [hsegments] at hvalue
    unfold walk at hvalue ⊢
    split at hvalue
    · cases hvalue
    next hpublic =>
      rw [if_neg hpublic]
      simp only [sampleHost] at hvalue ⊢
      by_cases hseats : segment = "seats"
      · rw [if_pos hseats] at hvalue ⊢
        exact hvalue
      · rw [if_neg hseats] at hvalue
        cases hvalue

theorem verdict_stable_sample :
    ∃ result, evaluateCandidate sampleCandidate 0 0 = .ok result ∧ result.status = .eligible ∧
      evaluateCandidate sampleCandidate 1 1 = .ok result := by
  have hrun : (evaluateCandidate sampleCandidate 0 0).toOption.any
      (fun result => decide (result.status = .eligible)) = true := by
    decide +kernel
  obtain ⟨result, hresult, hstatus⟩ := exists_of_toOption_any hrun
  have heligible := of_decide_eq_true hstatus
  have hrules : sampleCandidate.NoExists := by
    simp [CandidateDefinition.NoExists, sampleCandidate, seatsConstraint, seatsExpression,
      RuleExpression.NoExists]
  refine ⟨result, hresult, heligible, ?_⟩
  exact (verdict_stable hrules).1 sampleHost_extends sampleHost_extends result hresult
    (by simp [heligible, decidedStatuses])

end DecisionEngine
