-- SUMMARY: The frozen input of the Decision Graph: facts, evidence, candidates, offers, gates, preferences and the checks of their constructors.
import SiraSeil.DecisionEngine.Bounds
import SiraSeil.Library.Dict
import SiraSeil.Library.Raising

/-!
# Frozen inputs

The value objects of `decision_engine/graph_v1_models.py` that enter an
evaluation. A class with a `__post_init__` is a structure over its fields with
the successful check as its last field, so a value that the constructor refuses
does not exist here either. `toValue` is the tree that content hashing sees.
-/

namespace DecisionEngine

open Domain Sorting Raising

abbrev Ids : Type := SortedTuple String

/-- `if not condition: raise DomainValidationError(message)` -/
def demand (condition : Bool) (message : String) : Py Unit :=
  if condition then .ok () else .error (.domainValidation message)

def requireIds (ids : List String) (fieldName : String) : Py Unit :=
  ids.forM (fun id => requireId id fieldName)

theorem demand_eq_ok {condition : Bool} {message : String} :
    demand condition message = .ok () ↔ condition = true := by
  cases condition <;> simp [demand]

theorem requireId_eq_ok {s fieldName : String} :
    requireId s fieldName = .ok () ↔ isId s = true := by
  unfold requireId
  split <;> simp [*]

theorem requireIds_eq_ok {ids : List String} {fieldName : String} :
    requireIds ids fieldName = .ok () ↔ ∀ id ∈ ids, isId id = true := by
  unfold requireIds
  induction ids with
  | nil => simp [pure, Except.pure]
  | cons id ids ih =>
    show (requireId id fieldName >>= fun _ => ids.forM (fun id => requireId id fieldName)) =
      .ok () ↔ _
    rw [check_bind_eq_ok, requireId_eq_ok, ih, List.forall_mem_cons]

/-- `d[key]` -/
def getItem {κ α : Type} [DecidableEq κ] (d : Dict κ α) (key : κ) (text : String) : Py α :=
  match d.get? key with
  | some a => .ok a
  | none => .error (.key text)

/-! ## Fact values -/

/-- `FactValue`: a scalar or a tuple of strings. -/
inductive FactValue
  | str (s : String)
  | int (n : Int)
  | bool (b : Bool)
  | none
  | tuple (xs : List String)
  deriving DecidableEq

def FactValue.toValue : FactValue → Value
  | .str s => .str s
  | .int n => .int n
  | .bool b => .bool b
  | .none => .null
  | .tuple xs => .strs xs

def FactValue.isTuple : FactValue → Bool
  | .tuple _ => true
  | _ => false

/-! ## Versions and buyer facts -/

structure FrozenVersionsData where
  requestVersion : String
  companyProfileVersion : String
  stackfileVersion : String
  registryVersion : String
  packSetVersion : String
  offerSetVersion : String
  taxonomyVersion : String
  normalizationVersion : String
  policyVersion : String
  fxVersion : String
  pipelineVersion : String
  engineVersion : String

def FrozenVersionsData.fields (v : FrozenVersionsData) : List (String × String) :=
  [("request_version", v.requestVersion), ("company_profile_version", v.companyProfileVersion),
    ("stackfile_version", v.stackfileVersion), ("registry_version", v.registryVersion),
    ("pack_set_version", v.packSetVersion), ("offer_set_version", v.offerSetVersion),
    ("taxonomy_version", v.taxonomyVersion), ("normalization_version", v.normalizationVersion),
    ("policy_version", v.policyVersion), ("fx_version", v.fxVersion),
    ("pipeline_version", v.pipelineVersion), ("engine_version", v.engineVersion)]

structure FrozenVersions extends FrozenVersionsData where
  admitted : demand (toFrozenVersionsData.fields.all (fun p => p.2 != ""))
    "every Decision Graph input version must be frozen" = .ok () := by decide +kernel

def FrozenVersions.toValue (v : FrozenVersions) : Value :=
  .obj (v.fields.map (fun p => (p.1, .str p.2)))

inductive SourceMode
  | productionProvider | developmentFixture | manualInput | canonicalStackfile | systemObservation
  deriving DecidableEq

def SourceMode.value : SourceMode → String
  | productionProvider => "PRODUCTION_PROVIDER"
  | developmentFixture => "DEVELOPMENT_FIXTURE"
  | manualInput => "MANUAL_INPUT"
  | canonicalStackfile => "CANONICAL_STACKFILE"
  | systemObservation => "SYSTEM_OBSERVATION"

structure FactProvenanceData where
  provider : String
  contentId : String
  sourceVersionId : String
  chunkIndex : Nat
  retrievedAt : Datetime
  sourceMode : SourceMode
  evidenceHash : Option String := none

def FactProvenanceData.postInit (p : FactProvenanceData) : Py Unit := do
  demand (p.provider != "" && p.contentId != "" && p.sourceVersionId != "")
    "fact provenance requires provider content and version"
  demand p.retrievedAt.aware "fact provenance requires chunk index and timestamp"
  demand (p.evidenceHash.all (startsWith · "sha256:"))
    "fact provenance evidence hash must be SHA-256"

structure FactProvenance extends FactProvenanceData where
  admitted : toFactProvenanceData.postInit = .ok () := by decide +kernel

def FactProvenance.toValue (p : FactProvenance) : Value :=
  .obj [("provider", .str p.provider), ("content_id", .str p.contentId),
    ("source_version_id", .str p.sourceVersionId), ("chunk_index", .nat p.chunkIndex),
    ("retrieved_at", .datetime p.retrievedAt), ("source_mode", .str p.sourceMode.value),
    ("evidence_hash", .opt .str p.evidenceHash)]

structure FrozenFactData where
  factId : String
  field : String
  value : FactValue
  isPrivate : Bool
  version : String
  assertedByRole : String := "unknown"
  authorityLevel : String := "UNKNOWN"
  authorityRank : Nat := 0
  provenance : Option FactProvenance := none

def FrozenFactData.postInit (f : FrozenFactData) : Py Unit := do
  requireId f.factId "fact_id"
  demand (f.field != "" && f.version != "" && f.assertedByRole != "")
    "a frozen fact requires field and version"
  demand (f.authorityLevel != "") "a frozen fact requires non-negative actor authority"

structure FrozenFact extends FrozenFactData where
  admitted : toFrozenFactData.postInit = .ok () := by decide +kernel

/-- `FrozenFact.to_hash_payload`: authority metadata enters the payload only once
    some of it is set. -/
def FrozenFact.toValue (f : FrozenFact) : Value :=
  .obj ([("fact_id", .str f.factId), ("field", .str f.field), ("value", f.value.toValue),
      ("private", .bool f.isPrivate), ("version", .str f.version)] ++
    if f.assertedByRole != "unknown" || f.authorityLevel != "UNKNOWN" ||
        f.authorityRank != 0 || f.provenance.isSome then
      [("asserted_by_role", .str f.assertedByRole), ("authority_level", .str f.authorityLevel),
        ("authority_rank", .nat f.authorityRank),
        ("provenance", .opt FactProvenance.toValue f.provenance)]
    else [])

inductive ConflictStrategy
  | authorityPrecedence | explicitOwnerDecision
  deriving DecidableEq

def ConflictStrategy.value : ConflictStrategy → String
  | authorityPrecedence => "AUTHORITY_PRECEDENCE"
  | explicitOwnerDecision => "EXPLICIT_OWNER_DECISION"

structure ActorConflictResolutionData where
  field : String
  factIds : Ids
  selectedFactId : String
  selectedRole : String
  decidedByRole : String
  strategy : ConflictStrategy
  reason : String

def ActorConflictResolutionData.postInit (r : ActorConflictResolutionData) : Py Unit := do
  demand (r.field != "" && r.selectedRole != "" && r.decidedByRole != "" && r.reason != "")
    "actor conflict resolution fields are required"
  demand (decide (2 ≤ r.factIds.items.length) && r.factIds.items.contains r.selectedFactId)
    "actor conflict resolution must select a conflicting fact"
  requireIds r.factIds.items "conflicting_fact_id"

structure ActorConflictResolution extends ActorConflictResolutionData where
  admitted : toActorConflictResolutionData.postInit = .ok () := by decide +kernel

def ActorConflictResolution.toValue (r : ActorConflictResolution) : Value :=
  .obj [("field", .str r.field), ("fact_ids", .strs r.factIds.items),
    ("selected_fact_id", .str r.selectedFactId), ("selected_role", .str r.selectedRole),
    ("decided_by_role", .str r.decidedByRole), ("strategy", .str r.strategy.value),
    ("reason", .str r.reason)]

/-! ## Product facts and evidence -/

structure ProductFactData where
  field : String
  value : FactValue
  evidenceIds : Ids
  componentId : Option String := none

def ProductFactData.postInit (f : ProductFactData) : Py Unit := do
  demand (f.field != "") "a product fact requires a field"
  requireIds f.evidenceIds.items "evidence_id"
  f.componentId.forM (fun id => requireId id "fact_component_id")

theorem ProductFactData.postInit_eq_ok {d : ProductFactData} :
    d.postInit = .ok () ↔ d.field ≠ "" ∧ (∀ id ∈ d.evidenceIds.items, isId id = true) ∧
      ∀ id, d.componentId = some id → isId id = true := by
  unfold ProductFactData.postInit
  simp only [check_bind_eq_ok, demand_eq_ok, requireIds_eq_ok, bne_iff_ne, ne_eq]
  cases d.componentId with
  | none => simp [pure, Except.pure]
  | some id => simp [requireId_eq_ok]

structure ProductFact extends ProductFactData where
  admitted : toProductFactData.postInit = .ok () := by decide +kernel

def ProductFact.new (d : ProductFactData) : Py ProductFact :=
  match h : d.postInit with
  | .ok () => .ok ⟨d, h⟩
  | .error e => .error e

theorem ProductFact.exists_new {d : ProductFactData} (h : d.postInit = .ok ()) :
    ∃ fact, ProductFact.new d = .ok fact := by
  unfold ProductFact.new
  split
  · exact ⟨_, rfl⟩
  · rename_i e herror
    rw [h] at herror
    cases herror

theorem ProductFact.new_eq_ok {d : ProductFactData} {fact : ProductFact}
    (h : ProductFact.new d = .ok fact) : fact.toProductFactData = d := by
  unfold ProductFact.new at h
  split at h
  · cases h
    rfl
  · cases h

def ProductFact.toValue (f : ProductFact) : Value :=
  .obj [("field", .str f.field), ("value", f.value.toValue),
    ("evidence_ids", .strs f.evidenceIds.items), ("component_id", .opt .str f.componentId)]

structure EvidenceRecordData where
  evidenceId : String
  recordId : String
  sourceClass : String
  verificationMethod : String
  verificationScope : String
  reconstructable : Bool
  observedAtLower : Option Datetime
  observedAtUpper : Option Datetime
  disputed : Bool := false
  revoked : Bool := false

/-- Timestamps of different awareness cannot be compared, so a record that mixes
    them is refused as well. -/
def EvidenceRecordData.postInit (r : EvidenceRecordData) : Py Unit := do
  requireId r.evidenceId "evidence_id"
  requireId r.recordId "record_id"
  demand (r.sourceClass != "" && r.verificationMethod != "" && r.verificationScope != "")
    "evidence provenance is required"
  match r.observedAtLower, r.observedAtUpper with
  | none, none => .ok ()
  | some lower, some upper =>
    demand (lower.aware == upper.aware && decide (lower.micros ≤ upper.micros))
      "evidence time bounds are reversed"
  | _, _ => .error (.domainValidation "both evidence observed-time bounds are required together")

structure EvidenceRecord extends EvidenceRecordData where
  admitted : toEvidenceRecordData.postInit = .ok () := by decide +kernel

def EvidenceRecord.toValue (r : EvidenceRecord) : Value :=
  .obj [("evidence_id", .str r.evidenceId), ("record_id", .str r.recordId),
    ("source_class", .str r.sourceClass), ("verification_method", .str r.verificationMethod),
    ("verification_scope", .str r.verificationScope), ("reconstructable", .bool r.reconstructable),
    ("observed_at_lower", .opt .datetime r.observedAtLower),
    ("observed_at_upper", .opt .datetime r.observedAtUpper), ("disputed", .bool r.disputed),
    ("revoked", .bool r.revoked)]

/-! ## Candidates -/

inductive PackStatus
  | published | revoked | superseded
  deriving DecidableEq

def PackStatus.value : PackStatus → String
  | published => "PUBLISHED"
  | revoked => "REVOKED"
  | superseded => "SUPERSEDED"

structure RawCandidateData where
  recordId : String
  packId : String
  packVersion : Nat
  sellerId : String
  productId : String
  edition : String
  region : String
  offerId : String
  authority : PackAuthority
  available : Bool
  facts : List ProductFact
  sellerGateIds : Ids := .of []
  aliases : Ids := .of []
  categoryIds : Ids := .of []
  jtbdIds : Ids := .of []
  packStatus : PackStatus := .published
  requiredProductIds : Ids := .of []

def RawCandidateData.postInit (r : RawCandidateData) : Py Unit := do
  requireId r.recordId "record_id"
  requireId r.packId "pack_id"
  requireId r.sellerId "seller_id"
  requireId r.productId "product_id"
  requireId r.offerId "offer_id"
  demand (decide (1 ≤ r.packVersion) && r.edition != "" && r.region != "")
    "candidate identity and positive Pack version are required"
  requireIds (r.categoryIds.items ++ r.jtbdIds.items ++ r.requiredProductIds.items)
    "candidate classification or dependency"

theorem RawCandidateData.postInit_eq_ok {d : RawCandidateData} :
    d.postInit = .ok () ↔
      isId d.recordId = true ∧ isId d.packId = true ∧ isId d.sellerId = true ∧
        isId d.productId = true ∧ isId d.offerId = true ∧
        (1 ≤ d.packVersion ∧ d.edition ≠ "" ∧ d.region ≠ "") ∧
        ∀ id ∈ d.categoryIds.items ++ d.jtbdIds.items ++ d.requiredProductIds.items,
          isId id = true := by
  unfold RawCandidateData.postInit
  simp only [check_bind_eq_ok, demand_eq_ok, requireId_eq_ok, requireIds_eq_ok,
    Bool.and_eq_true, decide_eq_true_eq, bne_iff_ne, ne_eq, and_assoc]

structure RawCandidateRecord extends RawCandidateData where
  admitted : toRawCandidateData.postInit = .ok () := by decide +kernel

def RawCandidateRecord.new (d : RawCandidateData) : Py RawCandidateRecord :=
  match h : d.postInit with
  | .ok () => .ok ⟨d, h⟩
  | .error e => .error e

theorem RawCandidateRecord.exists_new {d : RawCandidateData} (h : d.postInit = .ok ()) :
    ∃ record, RawCandidateRecord.new d = .ok record := by
  unfold RawCandidateRecord.new
  split
  · exact ⟨_, rfl⟩
  · rename_i e herror
    rw [h] at herror
    cases herror

theorem RawCandidateRecord.new_eq_ok {d : RawCandidateData} {record : RawCandidateRecord}
    (h : RawCandidateRecord.new d = .ok record) : record.toRawCandidateData = d := by
  unfold RawCandidateRecord.new at h
  split at h
  · cases h
    rfl
  · cases h

def RawCandidateRecord.toValue (r : RawCandidateRecord) : Value :=
  .obj [("record_id", .str r.recordId), ("pack_id", .str r.packId),
    ("pack_version", .nat r.packVersion), ("seller_id", .str r.sellerId),
    ("product_id", .str r.productId), ("edition", .str r.edition), ("region", .str r.region),
    ("offer_id", .str r.offerId), ("authority", .str r.authority.value),
    ("available", .bool r.available), ("facts", .seq (r.facts.map ProductFact.toValue)),
    ("seller_gate_ids", .strs r.sellerGateIds.items), ("aliases", .strs r.aliases.items),
    ("category_ids", .strs r.categoryIds.items), ("jtbd_ids", .strs r.jtbdIds.items),
    ("pack_status", .str r.packStatus.value),
    ("required_product_ids", .strs r.requiredProductIds.items)]

/-! ## Costs -/

inductive CostLineType
  | merchantSubtotal | siraTransactionFee | tax | contractCost | migrationCost | implementationCost
  deriving DecidableEq

def CostLineType.value : CostLineType → String
  | merchantSubtotal => "MERCHANT_SUBTOTAL"
  | siraTransactionFee => "SIRA_TRANSACTION_FEE"
  | tax => "TAX"
  | contractCost => "CONTRACT_COST"
  | migrationCost => "MIGRATION_COST"
  | implementationCost => "IMPLEMENTATION_COST"

structure CostLineItem where
  lineItemType : CostLineType
  low : Money
  base : Money
  high : Money
  scheduleVersion : Option String := none

def CostLineItem.toValue (i : CostLineItem) : Value :=
  .obj [("line_item_type", .str i.lineItemType.value), ("low", i.low.toValue),
    ("base", i.base.toValue), ("high", i.high.toValue),
    ("schedule_version", .opt .str i.scheduleVersion)]

structure OfferCostData where
  offerId : String
  low : Option Money
  base : Option Money
  high : Option Money
  horizonDays : Nat
  lineItems : List CostLineItem := []
  paymentRequired : Bool := false

def OfferCostData.postInit (c : OfferCostData) : Py Unit := do
  requireId c.offerId "offer_id"
  demand (decide (1 ≤ c.horizonDays)) "an offer cost requires a positive comparison horizon"
  demand (c.paymentRequired || !c.lineItems.any (fun i => i.lineItemType == .siraTransactionFee))
    "a non-payment action cannot contain a transaction fee"

structure OfferCost extends OfferCostData where
  admitted : toOfferCostData.postInit = .ok () := by decide +kernel

def OfferCost.new (d : OfferCostData) : Py OfferCost :=
  match h : d.postInit with
  | .ok () => .ok ⟨d, h⟩
  | .error e => .error e

theorem OfferCost.new_eq_ok {d : OfferCostData} {cost : OfferCost}
    (h : OfferCost.new d = .ok cost) : cost.toOfferCostData = d := by
  unfold OfferCost.new at h
  split at h
  · cases h
    rfl
  · cases h

def OfferCost.toValue (c : OfferCost) : Value :=
  .obj [("offer_id", .str c.offerId), ("low", .opt Money.toValue c.low),
    ("base", .opt Money.toValue c.base), ("high", .opt Money.toValue c.high),
    ("horizon_days", .nat c.horizonDays), ("line_items", .seq (c.lineItems.map CostLineItem.toValue)),
    ("payment_required", .bool c.paymentRequired)]

/-! ## Identity normalization and recall policy -/

/-- The aliases as the constructor leaves them: folded, sorted, with unique sources. -/
structure IdentityNormalization where
  version : String
  aliases : List (String × String)
  version_ne : version ≠ "" := by decide +kernel
  sources_sorted : (aliases.map Prod.fst).Pairwise (· < ·) := by decide +kernel

def IdentityNormalization.toValue (n : IdentityNormalization) : Value :=
  .obj [("version", .str n.version),
    ("aliases", .seq (n.aliases.map (fun p => .strs [p.1, p.2])))]

structure RecallPolicyData where
  categoryId : String
  jtbdId : String
  allowedRegions : Ids

def RecallPolicyData.postInit (p : RecallPolicyData) : Py Unit := do
  requireId p.categoryId "recall_category_id"
  requireId p.jtbdId "recall_jtbd_id"
  demand (!p.allowedRegions.items.isEmpty) "recall policy requires an allowed region"

structure RecallPolicy extends RecallPolicyData where
  admitted : toRecallPolicyData.postInit = .ok () := by decide +kernel

def RecallPolicy.toValue (p : RecallPolicy) : Value :=
  .obj [("category_id", .str p.categoryId), ("jtbd_id", .str p.jtbdId),
    ("allowed_regions", .strs p.allowedRegions.items)]

/-! ## Evidence policies, predicates and gates -/

structure EvidencePolicyData where
  field : String
  allowedSourceClasses : List String
  allowedVerificationMethods : List String
  requiredScope : String
  freshnessSlaSeconds : Nat

structure EvidencePolicy extends EvidencePolicyData where
  admitted : demand (field != "" && requiredScope != "" && decide (1 ≤ freshnessSlaSeconds))
    "an evidence policy requires scope and a positive SLA" = .ok () := by decide +kernel

def EvidencePolicy.toValue (p : EvidencePolicy) : Value :=
  .obj [("field", .str p.field), ("allowed_source_classes", .strs p.allowedSourceClasses),
    ("allowed_verification_methods", .strs p.allowedVerificationMethods),
    ("required_scope", .str p.requiredScope),
    ("freshness_sla_seconds", .nat p.freshnessSlaSeconds)]

/-- The operator is any text here: an unsupported one raises when it is evaluated. -/
structure Predicate where
  field : String
  operator : String
  value : FactValue
  admitted : demand (field != "" && operator != "")
    "a gate predicate requires field and operator" = .ok () := by decide +kernel

def Predicate.toValue (p : Predicate) : Value :=
  .obj [("field", .str p.field), ("operator", .str p.operator), ("value", p.value.toValue)]

structure GateRuleData where
  gateId : String
  predicates : List Predicate
  mode : GateMode
  blockedStatus : CandidateStatus
  reasonCode : String
  sourceFactIds : Ids
  appliesToActions : List SolutionAction
  evidenceClaimIds : Ids := .of []
  permittedResolution : Option String := none
  overridable : Bool := false

def GateRuleData.postInit (g : GateRuleData) : Py Unit := do
  requireId g.gateId "gate_id"
  demand (!g.predicates.isEmpty && g.reasonCode != "") "a gate requires predicates and a reason"

structure GateRule extends GateRuleData where
  admitted : toGateRuleData.postInit = .ok () := by decide +kernel

/-- The gate states a condition of the seller. -/
def GateRule.isSeller (g : GateRule) : Bool :=
  g.blockedStatus == .seilPass

def actionValues (actions : List SolutionAction) : Value :=
  .strs (actions.map SolutionAction.value)

def GateRule.toValue (g : GateRule) : Value :=
  .obj [("gate_id", .str g.gateId), ("predicates", .seq (g.predicates.map Predicate.toValue)),
    ("mode", .str g.mode.value), ("blocked_status", .str g.blockedStatus.value),
    ("reason_code", .str g.reasonCode), ("source_fact_ids", .strs g.sourceFactIds.items),
    ("applies_to_actions", actionValues g.appliesToActions),
    ("evidence_claim_ids", .strs g.evidenceClaimIds.items),
    ("permitted_resolution", .opt .str g.permittedResolution),
    ("overridable", .bool g.overridable)]

/-! ## Preferences and risk rules -/

inductive Aggregation
  | primaryComponent | all | any | min | max | sum | union
  deriving DecidableEq

def Aggregation.value : Aggregation → String
  | primaryComponent => "PRIMARY_COMPONENT"
  | all => "ALL"
  | any => "ANY"
  | min => "MIN"
  | max => "MAX"
  | sum => "SUM"
  | union => "UNION"

structure PreferenceCriterionData where
  criterionId : String
  field : String
  weight : Nat
  coverageWeight : Nat
  normalization : NormalizationKind
  expected : FactValue
  sourceFactIds : Ids
  appliesToActions : List SolutionAction
  allowedSatisfactions : SortedTuple ℚ
  lowerIsBetterPoints : List (Int × ℚ) := []
  unknownUpper : Option ℚ := none
  permittedEvidenceResolution : Option String := none
  neutralPrior : Option ℚ := none
  aggregation : Aggregation := .primaryComponent

def PreferenceCriterionData.postInit (c : PreferenceCriterionData) : Py Unit := do
  let allowed := c.allowedSatisfactions.items
  requireId c.criterionId "criterion_id"
  demand (c.field != "" && decide (1 ≤ c.weight ∧ c.weight ≤ 5) &&
      decide (1 ≤ c.coverageWeight ∧ c.coverageWeight ≤ 5))
    "preference and coverage weights must be integers from 1 to 5"
  demand (!allowed.isEmpty && allowed.all (fun q => decide (0 ≤ q ∧ q ≤ 1)))
    "normalization must declare a finite satisfaction domain"
  demand (allowed.contains 0) "normalization must define the zero satisfaction bound"
  demand (c.unknownUpper.all (allowed.contains ·))
    "unknown preference bound must be in the declared domain"
  demand (c.neutralPrior.all (allowed.contains ·))
    "neutral outcome prior must be in the declared domain"
  demand (c.normalization != .lowerIsBetter || !c.lowerIsBetterPoints.isEmpty)
    "numeric normalization requires piecewise points"
  demand (c.normalization != .lowerIsBetter ||
      c.lowerIsBetterPoints.all (fun p => allowed.contains p.2))
    "piecewise values must be in the declared domain"
  demand (c.normalization != .setContainsAll || c.expected.isTuple)
    "set normalization requires a finite expected set"
  demand (c.normalization != .outcomeRate || c.neutralPrior.isSome)
    "an outcome preference requires an explicit neutral prior"

/-- The piecewise points are kept sorted; two points with one maximum must agree,
    because ratios have no order of their own. -/
structure PreferenceCriterion extends PreferenceCriterionData where
  admitted : toPreferenceCriterionData.postInit = .ok () := by decide +kernel
  points_sorted : lowerIsBetterPoints.Pairwise (fun p q => p.1 < q.1 ∨ p = q) := by decide +kernel

def PreferenceCriterion.toValue (c : PreferenceCriterion) : Value :=
  .obj [("criterion_id", .str c.criterionId), ("field", .str c.field), ("weight", .nat c.weight),
    ("coverage_weight", .nat c.coverageWeight), ("normalization", .str c.normalization.value),
    ("expected", c.expected.toValue), ("source_fact_ids", .strs c.sourceFactIds.items),
    ("applies_to_actions", actionValues c.appliesToActions),
    ("allowed_satisfactions", .seq (c.allowedSatisfactions.items.map Value.ratio)),
    ("lower_is_better_points",
      .seq (c.lowerIsBetterPoints.map (fun p => .seq [.int p.1, .ratio p.2]))),
    ("unknown_upper", .opt .ratio c.unknownUpper),
    ("permitted_evidence_resolution", .opt .str c.permittedEvidenceResolution),
    ("neutral_prior", .opt .ratio c.neutralPrior), ("aggregation", .str c.aggregation.value)]

structure RiskRuleData where
  ruleId : String
  actions : List SolutionAction
  predicate : Option Predicate
  lower : StackRisk
  base : StackRisk
  upper : StackRisk
  missingLower : Option StackRisk := none
  missingBase : Option StackRisk := none
  missingUpper : Option StackRisk := none

def RiskRuleData.postInit (r : RiskRuleData) : Py Unit := do
  requireId r.ruleId "rule_id"
  demand (!r.actions.isEmpty) "a risk rule requires an action scope"
  discard (RiskBounds.new r.lower r.base r.upper)
  match r.missingLower, r.missingBase, r.missingUpper with
  | none, none, none => .ok ()
  | some lower, some base, some upper => discard (RiskBounds.new lower base upper)
  | _, _, _ => .error (.domainValidation "a risk missing-input bound requires lower/base/upper")

structure RiskRule extends RiskRuleData where
  admitted : toRiskRuleData.postInit = .ok () := by decide +kernel

def RiskRule.toValue (r : RiskRule) : Value :=
  let risk (v : Option StackRisk) : Value := .opt (fun v => .str v.value) v
  .obj [("rule_id", .str r.ruleId), ("actions", actionValues r.actions),
    ("predicate", .opt Predicate.toValue r.predicate), ("lower", .str r.lower.value),
    ("base", .str r.base.value), ("upper", .str r.upper.value),
    ("missing_lower", risk r.missingLower), ("missing_base", risk r.missingBase),
    ("missing_upper", risk r.missingUpper)]

/-! ## Current actions and outcomes -/

structure CurrentActionData where
  actionId : String
  action : SolutionAction
  instanceId : String
  facts : List ProductFact
  cost : OfferCost
  available : Bool := true
  permittedResolution : Option String := none

def CurrentActionData.postInit (a : CurrentActionData) : Py Unit := do
  requireId a.actionId "action_id"
  requireId a.instanceId "instance_id"

structure CurrentActionRecord extends CurrentActionData where
  admitted : toCurrentActionData.postInit = .ok () := by decide +kernel

def CurrentActionRecord.toValue (a : CurrentActionRecord) : Value :=
  .obj [("action_id", .str a.actionId), ("action", .str a.action.value),
    ("instance_id", .str a.instanceId), ("facts", .seq (a.facts.map ProductFact.toValue)),
    ("cost", a.cost.toValue), ("available", .bool a.available),
    ("permitted_resolution", .opt .str a.permittedResolution)]

structure OutcomeObservationData where
  subjectId : String
  criterionId : String
  value : ℚ
  evidenceIds : Ids
  sourceFactIds : Ids

def OutcomeObservationData.postInit (o : OutcomeObservationData) : Py Unit := do
  requireId o.subjectId "outcome_subject_id"
  requireId o.criterionId "outcome_criterion_id"

structure OutcomeObservation extends OutcomeObservationData where
  admitted : toOutcomeObservationData.postInit = .ok () := by decide +kernel

def OutcomeObservation.toValue (o : OutcomeObservation) : Value :=
  .obj [("subject_id", .str o.subjectId), ("criterion_id", .str o.criterionId),
    ("value", .ratio o.value), ("evidence_ids", .strs o.evidenceIds.items),
    ("source_fact_ids", .strs o.sourceFactIds.items)]

/-! ## The input -/

/-- Everything an evaluation reads. The identifiers of each group are unique;
    nothing else about keys is checked. -/
structure DecisionGraphInput where
  versions : FrozenVersions
  evaluatedAt : Datetime
  buyerFacts : List FrozenFact
  candidates : List RawCandidateRecord
  offers : List OfferCost
  evidence : List EvidenceRecord
  evidencePolicies : List EvidencePolicy
  gates : List GateRule
  preferences : List PreferenceCriterion
  riskRules : List RiskRule
  riskRuleSetComplete : Bool
  currentActions : List CurrentActionRecord
  identityNormalization : IdentityNormalization
  outcomeValues : List OutcomeObservation := []
  removedPrivateFactIds : Ids := .of []
  actorConflictResolutions : List ActorConflictResolution := []
  recallPolicy : Option RecallPolicy := none
  evaluatedAt_aware : evaluatedAt.aware = true := by decide +kernel
  buyerFacts_nodup : (buyerFacts.map (·.factId)).Nodup := by decide +kernel
  candidates_nodup : (candidates.map (·.recordId)).Nodup := by decide +kernel
  offers_nodup : (offers.map (·.offerId)).Nodup := by decide +kernel
  evidence_nodup : (evidence.map (·.evidenceId)).Nodup := by decide +kernel
  evidencePolicies_nodup : (evidencePolicies.map (·.field)).Nodup := by decide +kernel
  gates_nodup : (gates.map (·.gateId)).Nodup := by decide +kernel
  preferences_nodup : (preferences.map (·.criterionId)).Nodup := by decide +kernel
  riskRules_nodup : (riskRules.map (·.ruleId)).Nodup := by decide +kernel
  currentActions_nodup : (currentActions.map (·.actionId)).Nodup := by decide +kernel

/-- `replace(decision_input, removed_private_fact_ids=...)` -/
def DecisionGraphInput.withRemoved (input : DecisionGraphInput) (removed : Ids) :
    DecisionGraphInput :=
  { input with removedPrivateFactIds := removed }

/-! ## A small input

Two actions on the current stack, one of them with an observed outcome that
rests on a private fact. Concrete runs start from it. -/

namespace Sample

def versions : FrozenVersions where
  requestVersion := "1"
  companyProfileVersion := "1"
  stackfileVersion := "1"
  registryVersion := "1"
  packSetVersion := "1"
  offerSetVersion := "1"
  taxonomyVersion := "1"
  normalizationVersion := "1"
  policyVersion := "1"
  fxVersion := "1"
  pipelineVersion := "1"
  engineVersion := "1"

def now : Datetime := ⟨1700000000000000, true⟩

def money : Money where
  cents := 1000
  currency := "USD"
  cents_lt := thousand_cents_lt
  currency_ok := isCurrency_usd

def cost : OfferCost where
  offerId := "existing"
  low := some money
  base := some money
  high := some money
  horizonDays := 365

def reuse : CurrentActionRecord where
  actionId := "a1"
  action := .reuseExisting
  instanceId := "alpha"
  facts := []
  cost := cost

def keep : CurrentActionRecord where
  actionId := "a2"
  action := .noAction
  instanceId := "beta"
  facts := []
  cost := cost

def uptime : PreferenceCriterion where
  criterionId := "uptime"
  field := "outcome.uptime"
  weight := 1
  coverageWeight := 1
  normalization := .outcomeRate
  expected := .none
  sourceFactIds := .of []
  appliesToActions := []
  allowedSatisfactions := .of [0, 1 / 2, 1]
  neutralPrior := some (1 / 2)

/-- Evidence that the policy for `uptime` accepts. -/
def evidence : EvidenceRecord where
  evidenceId := "e1"
  recordId := "log"
  sourceClass := "AUDIT"
  verificationMethod := "LOG"
  verificationScope := "global"
  reconstructable := true
  observedAtLower := some now
  observedAtUpper := some now

def policy : EvidencePolicy where
  field := "outcome.uptime"
  allowedSourceClasses := ["AUDIT"]
  allowedVerificationMethods := ["LOG"]
  requiredScope := "global"
  freshnessSlaSeconds := 3600

def teamSize : FrozenFact where
  factId := "team_size"
  field := "team.size"
  value := .int 4
  isPrivate := true
  version := "1"

def observed : OutcomeObservation where
  subjectId := "alpha"
  criterionId := "uptime"
  value := 1
  evidenceIds := .of ["e1"]
  sourceFactIds := .of ["team_size"]

def input : DecisionGraphInput where
  versions := versions
  evaluatedAt := now
  buyerFacts := [teamSize]
  candidates := []
  offers := []
  evidence := [evidence]
  evidencePolicies := [policy]
  gates := []
  preferences := [uptime]
  riskRules := []
  riskRuleSetComplete := true
  currentActions := [reuse, keep]
  identityNormalization := { version := "1", aliases := [] }
  outcomeValues := [observed]

def onPremisesFact : ProductFact where
  field := "hosting"
  value := .str "onprem"
  evidenceIds := .of ["e1"]

def cloudFact : ProductFact where
  field := "hosting"
  value := .str "cloud"
  evidenceIds := .of ["e1"]

def crm : RawCandidateRecord where
  recordId := "record_crm"
  packId := "pack_crm"
  packVersion := 1
  sellerId := "acme"
  productId := "crm"
  edition := "standard"
  region := "eu"
  offerId := "offer_crm"
  authority := .sellerSealed
  available := true
  facts := [onPremisesFact]
  requiredProductIds := .of ["sso"]

def sso : RawCandidateRecord where
  recordId := "record_sso"
  packId := "pack_sso"
  packVersion := 1
  sellerId := "acme"
  productId := "sso"
  edition := "standard"
  region := "eu"
  offerId := "offer_sso"
  authority := .sellerSealed
  available := true
  facts := [cloudFact]

def crmOffer : OfferCost where
  offerId := "offer_crm"
  low := some money
  base := some money
  high := some money
  horizonDays := 365

def ssoOffer : OfferCost where
  offerId := "offer_sso"
  low := some money
  base := some money
  high := some money
  horizonDays := 365

def hostingPolicy : EvidencePolicy where
  field := "hosting"
  allowedSourceClasses := ["AUDIT"]
  allowedVerificationMethods := ["LOG"]
  requiredScope := "global"
  freshnessSlaSeconds := 3600

def onPremises : Predicate where
  field := "hosting"
  operator := "eq"
  value := .str "onprem"

def noOnPremises : GateRule where
  gateId := "no_onprem"
  predicates := [onPremises]
  mode := .blockOnMatch
  blockedStatus := .siraIneligible
  reasonCode := "ON_PREMISES"
  sourceFactIds := .of []
  appliesToActions := []

theorem ssoOffer_nodup : ([ssoOffer].map (·.offerId)).Nodup := by decide +kernel

theorem noActions_nodup : (([] : List CurrentActionRecord).map (·.actionId)).Nodup := by
  decide +kernel

/-- A product hosted on premises that requires one hosted in the cloud. -/
def bundleInput : DecisionGraphInput :=
  { input with
    candidates := [crm, sso]
    offers := [crmOffer, ssoOffer]
    evidencePolicies := [policy, hostingPolicy]
    gates := [noOnPremises]
    candidates_nodup := by decide +kernel
    offers_nodup := by decide +kernel
    evidencePolicies_nodup := by decide +kernel
    gates_nodup := by decide +kernel }

end Sample

end DecisionEngine
