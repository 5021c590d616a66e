-- SUMMARY: Plan materials, the evidence state of a field, the evaluation of hard gates and the status of a plan.
import SiraSeil.DecisionEngine.Recall

/-!
# Gates

The first half of `decision_engine/graph_v1.py`. A gate accumulates truth values
and blocking reasons over its predicates, separately for seller conditions
(read from the buyer's facts) and for buyer policy (read from the evidence of
every component of the plan).
-/

namespace DecisionEngine

open Domain Sorting

variable (rt : Runtime)

/-! ## Plan materials -/

/-- `_PlanMaterial` -/
structure PlanMaterial where
  sourceId : String
  action : SolutionAction
  componentId : String
  componentIds : List String
  facts : List ProductFact
  gateFacts : List ProductFact
  cost : OfferCost
  paymentComponentCount : Nat
  available : Bool
  authority : Option PackAuthority
  sellerGateIds : List String
  permittedResolution : Option String
  outcomeSubjectId : String
  dependencyIssues : List String := []

/-! ## Active buyer facts -/

/-- `_active_buyer_facts` -/
def activeBuyerFacts (input : DecisionGraphInput) : List FrozenFact :=
  input.buyerFacts.filter (fun fact => fact.factId ∉ input.removedPrivateFactIds.items)

/-- `_buyer_value_map` -/
def buyerValueMap (input : DecisionGraphInput) : Dict String FactValue :=
  .ofList ((activeBuyerFacts input).map (fun fact => (fact.field, fact.value)))

/-- `_active_source_ids` -/
def activeSourceIds (input : DecisionGraphInput) : List String :=
  (activeBuyerFacts input).map (·.factId)

/-- `not source_fact_ids or set(source_fact_ids) <= active_source_ids` -/
def sourcesActive (sourceFactIds : Ids) (active : List String) : Bool :=
  sourceFactIds.items.all (fun id => id ∈ active)

/-- `not applies_to_actions or action in applies_to_actions` -/
def actionApplies (appliesToActions : List SolutionAction) (action : SolutionAction) : Bool :=
  appliesToActions.isEmpty || appliesToActions.contains action

/-! ## Predicates -/

/-- `_strict_equal`: booleans compare with booleans only. -/
def strictEqual (left right : FactValue) : Bool :=
  match left, right with
  | .bool a, .bool b => a == b
  | .bool _, _ => false
  | _, .bool _ => false
  | a, b => decide (a = b)

/-- `Fraction(str(value))` of an integer or a string; other values are not numeric. -/
def numeric? : FactValue → Option (Py ℚ)
  | .int n => some (.ok n)
  | .str s => some (rt.fraction s)
  | _ => none

/-- The four order comparisons; `none` for any other operator. -/
def comparison? (operator : String) : Option (ℚ → ℚ → Bool) :=
  if operator = "lte" then some (fun a b => decide (a ≤ b))
  else if operator = "lt" then some (fun a b => decide (a < b))
  else if operator = "gte" then some (fun a b => decide (a ≥ b))
  else if operator = "gt" then some (fun a b => decide (a > b))
  else none

/-- `_predicate_matches` -/
def predicateMatches (value : FactValue) (predicate : Predicate) : Py Bool :=
  let expected := predicate.value
  if predicate.operator = "eq" then .ok (strictEqual value expected)
  else if predicate.operator = "neq" then .ok (!strictEqual value expected)
  else if predicate.operator = "in" then
    match expected with
    | .tuple items => .ok (items.any (fun item => strictEqual value (.str item)))
    | _ => .ok false
  else if predicate.operator = "contains_all" then
    match value, expected with
    | .tuple actual, .tuple items => .ok (items.all (fun item => actual.contains item))
    | _, _ => .ok false
  else
    match comparison? predicate.operator with
    | some compare =>
      match numeric? rt value, numeric? rt expected with
      | some left, some right => do return compare (← left) (← right)
      | _, _ => .ok false
    | none =>
      if predicate.operator = "exists" then .ok (value != .none)
      else .error (.value ("unsupported deterministic predicate operator: " ++ predicate.operator))

/-! ## Evidence state of a field -/

/-- `_assessment_index`: assessments by evidence id and field. -/
abbrev AssessmentIndex : Type := Dict EvidencePair EvidenceAssessment

def assessmentIndex (assessments : List EvidenceAssessment) : AssessmentIndex :=
  .ofList (assessments.map (fun a => (toLex (a.evidenceId, a.field), a)))

/-- `_FieldState` -/
structure FieldState where
  values : List FactValue
  state : EvidenceState
  evidenceIds : List String
  ageBounds : List EvidenceAgeBounds
  boundReasons : List String

/-- The reasons that make an ordering bound unavailable. -/
def boundReasonsOf (assessments : List EvidenceAssessment) : List String :=
  (assessments.flatMap (·.reasons)).filter (startsWith · "BOUND_UNAVAILABLE:")

/-- The assessments of the evidence `ids` for one field. -/
def assessmentsFor (index : AssessmentIndex) (ids : List String) (field : String) :
    List EvidenceAssessment :=
  ids.filterMap (fun id => index.get? (toLex (id, field)))

/-- The state that a set of assessments supports. -/
def combinedState (states : List EvidenceState) (conflicting : Bool) : EvidenceState :=
  if .conflict ∈ states ∨ conflicting then .conflict
  else if .acceptable ∈ states then .acceptable
  else if .stale ∈ states then .stale
  else .unknown

/-- The distinct values of some facts, in the order of their hashes. -/
def distinctValues (facts : List ProductFact) : Py (List FactValue) := do
  let hashed ← facts.mapM (fun fact => do
    return (← contentHash rt fact.value.toValue, fact.value))
  let valuesByHash := Dict.ofList hashed
  return valuesByHash.sortedItems.map Prod.snd

/-- `_field_state` -/
def fieldState (facts : List ProductFact) (field : String) (index : AssessmentIndex) :
    Py FieldState := do
  let matching := facts.filter (fun fact => fact.field = field)
  if matching.isEmpty then
    return ⟨[], .unknown, [], [], []⟩
  let evidenceIds := sortedSet (matching.flatMap (·.evidenceIds.items))
  let assessments := assessmentsFor index evidenceIds field
  let values ← distinctValues rt matching
  return {
    values := values
    state := combinedState (assessments.map (·.state)) (decide (1 < values.length))
    evidenceIds := evidenceIds
    ageBounds := assessments.filterMap (·.ageBounds)
    boundReasons := sortedSet (boundReasonsOf assessments) }

/-! ## Gate results -/

structure GateReason where
  reasonCode : String
  status : CandidateStatus
  detail : String
  deriving DecidableEq

structure GateResult where
  gateId : String
  truth : TruthValue
  reasons : List GateReason
  evaluatedPredicates : List String
  permittedResolution : Option String
  deriving DecidableEq

/-- `_gate_applies` -/
def gateApplies (gate : GateRule) (material : PlanMaterial) (active : List String) : Bool :=
  sourcesActive gate.sourceFactIds active && actionApplies gate.appliesToActions material.action &&
    (!gate.isSeller || material.sellerGateIds.contains gate.gateId)

/-- `_availability_gate` -/
def availabilityGate (material : PlanMaterial) : GateResult where
  gateId := "availability_" ++ material.sourceId
  truth := if material.available then .true else .false
  reasons := if material.available then []
    else [⟨"UNAVAILABLE", .unavailable, "Action is unavailable"⟩]
  evaluatedPredicates := ["availability"]
  permittedResolution := material.permittedResolution

/-- `_authority_gate` -/
def authorityGate (material : PlanMaterial) : Option GateResult :=
  match material.authority with
  | none | some .sellerSealed => none
  | some _ => some
    { gateId := "authority_" ++ material.sourceId
      truth := .false
      reasons := [⟨"SELLER_AUTHORITY_REQUIRED", .advisoryOnly,
        "The package is research-only until a seller seals it"⟩]
      evaluatedPredicates := ["publisher_authority"]
      permittedResolution := some "NEW_PACK_VERSION" }

/-- `_dependency_gates` -/
def dependencyGates (material : PlanMaterial) : List GateResult :=
  (material.dependencyIssues.zipIdx 1).map (fun (issue, index) =>
    { gateId := "dependency_" ++ material.sourceId ++ "_" ++ toString index
      truth := .false
      reasons := [⟨issue, .siraIneligible, "Required component dependency closure is not feasible"⟩]
      evaluatedPredicates := ["component_dependency_closure"]
      permittedResolution := none })

/-! ## Gate evaluation -/

/-- What the steps of a gate evaluation append to `states` and `reasons`. -/
structure GateTrace where
  states : List TruthValue
  reasons : List GateReason

def GateTrace.append (s t : GateTrace) : GateTrace :=
  ⟨s.states ++ t.states, s.reasons ++ t.reasons⟩

/-- The facts of one component of a plan; a plan with a single component owns all
    of its gate facts. -/
def componentGateFacts (material : PlanMaterial) (componentId : String) : List ProductFact :=
  if material.componentIds.length = 1 then material.gateFacts
  else material.gateFacts.filter (fun fact => fact.componentId = some componentId)

/-- `_component_field_states` -/
def componentFieldStates (material : PlanMaterial) (field : String) (index : AssessmentIndex) :
    Py (List FieldState) :=
  material.componentIds.mapM (fun componentId =>
    fieldState rt (componentGateFacts material componentId) field index)

/-- The published evidence a seller rule refers to. -/
def referencedStates (gate : GateRule) (index : AssessmentIndex) : List EvidenceState :=
  (index.items.filter (fun p => (ofLex p.1).1 ∈ gate.evidenceClaimIds.items)).map (·.2.state)

/-- The evidence check that opens the evaluation of a seller rule. -/
def sellerEvidenceTrace (gate : GateRule) (index : AssessmentIndex) : GateTrace :=
  if gate.isSeller && !gate.evidenceClaimIds.items.isEmpty then
    let evidenceStates := referencedStates gate index
    let insufficient : GateTrace :=
      if evidenceStates.isEmpty ∨ .unknown ∈ evidenceStates then
        ⟨[.unknown], [⟨"INSUFFICIENT_SELLER_RULE_EVIDENCE", .insufficientEvidence,
          "The published seller rule lacks reconstructable current evidence"⟩]⟩
      else ⟨[], []⟩
    let stale : GateTrace :=
      if .stale ∈ evidenceStates then
        ⟨[.unknown], [⟨"STALE_SELLER_RULE_EVIDENCE", .staleEvidence,
          "The published seller rule evidence is stale"⟩]⟩
      else ⟨[], []⟩
    let conflicting : GateTrace :=
      if .conflict ∈ evidenceStates then
        ⟨[.conflict], [⟨"CONFLICTING_SELLER_RULE_EVIDENCE", .conflictingEvidence,
          "The published seller rule evidence is disputed or revoked"⟩]⟩
      else ⟨[], []⟩
    (insufficient.append stale).append conflicting
  else ⟨[], []⟩

def truthOf (b : Bool) : TruthValue :=
  if b then .true else .false

/-- A predicate of a seller rule reads the buyer's active facts. -/
def sellerPredicateTrace (buyerValues : Dict String FactValue) (predicate : Predicate) :
    Py GateTrace :=
  match buyerValues.get? predicate.field with
  | none => .ok ⟨[.unknown], [⟨"SELLER_CONDITION_UNRESOLVED", .conditional,
      "Missing sanitized condition field " ++ predicate.field⟩]⟩
  | some value => do return ⟨[truthOf (← predicateMatches rt value predicate)], []⟩

/-- A predicate of a buyer gate reads the evidence of every component. -/
def buyerPredicateTrace (material : PlanMaterial) (index : AssessmentIndex)
    (predicate : Predicate) : Py GateTrace := do
  let fieldStates ← componentFieldStates rt material predicate.field index
  let evidenceStates := fieldStates.map (·.state)
  if .conflict ∈ evidenceStates then
    return ⟨[.conflict], [⟨"CONFLICTING_EVIDENCE", .conflictingEvidence,
      "Conflicting values support " ++ predicate.field⟩]⟩
  else if .stale ∈ evidenceStates then
    return ⟨[.unknown], [⟨"STALE_EVIDENCE", .staleEvidence,
      "Evidence for " ++ predicate.field ++ " is stale"⟩]⟩
  else if .unknown ∈ evidenceStates ∨ fieldStates.any (fun s => s.values.isEmpty) then
    return ⟨[.unknown], [⟨"INSUFFICIENT_EVIDENCE", .insufficientEvidence,
      "Current acceptable evidence for " ++ predicate.field ++ " is missing"⟩]⟩
  else
    let states ← fieldStates.mapM (fun s => do
      return truthOf (← s.values.allM (fun value => predicateMatches rt value predicate)))
    return ⟨states, []⟩

def predicateTrace (gate : GateRule) (material : PlanMaterial)
    (buyerValues : Dict String FactValue) (index : AssessmentIndex) (predicate : Predicate) :
    Py GateTrace :=
  if gate.isSeller then sellerPredicateTrace rt buyerValues predicate
  else buyerPredicateTrace rt material index predicate

/-- The truth of a gate over the states its predicates left. -/
def gateTruth (mode : GateMode) (states : List TruthValue) : TruthValue :=
  if .conflict ∈ states then .conflict
  else
    match mode with
    | .requireMatch =>
      if .false ∈ states then .false else if .unknown ∈ states then .unknown else .true
    | .blockOnMatch =>
      if .false ∈ states then .true else if .unknown ∈ states then .unknown else .false

/-- The reason a gate adds when it turns out false. -/
def closingReasons (gate : GateRule) (truth : TruthValue) : List GateReason :=
  if truth = .false then
    match gate.mode with
    | .requireMatch => [⟨gate.reasonCode, gate.blockedStatus, "Required predicate failed"⟩]
    | .blockOnMatch => [⟨gate.reasonCode, gate.blockedStatus, "Blocking predicate matched"⟩]
  else []

def GateReason.key (r : GateReason) : ℕ ×ₗ String ×ₗ String :=
  toLex (r.status.rank, toLex (r.reasonCode, r.detail))

/-- All the states and reasons a gate collects before its truth is decided. -/
def gateTrace (gate : GateRule) (material : PlanMaterial) (buyerValues : Dict String FactValue)
    (index : AssessmentIndex) : Py GateTrace := do
  let traces ← gate.predicates.mapM (predicateTrace rt gate material buyerValues index)
  return traces.foldl GateTrace.append (sellerEvidenceTrace gate index)

/-- `_evaluate_gate` -/
def evaluateGate (gate : GateRule) (material : PlanMaterial) (buyerValues : Dict String FactValue)
    (index : AssessmentIndex) : Py GateResult := do
  let trace ← gateTrace rt gate material buyerValues index
  let truth := gateTruth gate.mode trace.states
  return {
    gateId := gate.gateId
    truth := truth
    reasons := sortedBy GateReason.key (trace.reasons ++ closingReasons gate truth).dedup
    evaluatedPredicates := gate.predicates.map (·.field)
    permittedResolution := gate.permittedResolution }

/-- The gates of the input that apply to a plan, by gate id. -/
def applicableGates (input : DecisionGraphInput) (material : PlanMaterial) : List GateRule :=
  (sortedBy (·.gateId) input.gates).filter
    (fun gate => gateApplies gate material (activeSourceIds input))

/-- `evaluate_gates` -/
def evaluateGates (input : DecisionGraphInput) (material : PlanMaterial)
    (assessments : List EvidenceAssessment) : Py (List GateResult) := do
  let ruled ← (applicableGates input material).mapM (fun gate =>
    evaluateGate rt gate material (buyerValueMap input) (assessmentIndex assessments))
  return [availabilityGate material] ++ dependencyGates material ++
    (authorityGate material).toList ++ ruled

/-- `_primary_status` -/
def primaryStatus (gates : List GateResult) : CandidateStatus × Option GateReason :=
  match gates.flatMap (·.reasons) with
  | [] => (.eligible, none)
  | reason :: reasons =>
    let primary := firstMin (fun r => toLex (r.status.rank, r.reasonCode)) reason reasons
    (primary.status, some primary)

end DecisionEngine
