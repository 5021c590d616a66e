-- SUMMARY: Seller-neutral recall with identity deduplication, and the assessment of every decision-material evidence/field pair.
import SiraSeil.DecisionEngine.Models

/-!
# Recall and evidence assessment

`decision_engine/graph_v1_recall.py`. Candidates are put into canonical form,
excluded or grouped by identity, and each group is merged into one
representative; then every evidence/field pair that a fact or an outcome
observation mentions is assessed once.
-/

namespace DecisionEngine

open Domain Sorting

variable (rt : Runtime)

/-! ## Canonical names -/

/-- `_alias_map` -/
def aliasMap (input : DecisionGraphInput) : Dict String String :=
  .ofList input.identityNormalization.aliases

/-- The loop of `_canonical`. The sources visited are distinct keys of `aliases`,
    so one more round than there are keys is enough. -/
def chaseAlias (aliases : Dict String String) : Nat → List String → String → Py String
  | 0, _, _ => .error (.value "identity normalization aliases contain a cycle")
  | fuel + 1, visited, current =>
    match aliases.get? current with
    | none => .ok current
    | some target =>
      if current ∈ visited then
        .error (.value "identity normalization aliases contain a cycle")
      else chaseAlias aliases fuel (current :: visited) target

/-- `_canonical` -/
def canonical (value : String) (aliases : Dict String String) : Py String :=
  chaseAlias aliases (aliases.items.length + 1) [] (fold rt value)

/-- Seller, product, edition and region in canonical form. -/
abbrev IdentityKey : Type := String ×ₗ String ×ₗ String ×ₗ String

namespace IdentityKey

def mk (seller product edition region : String) : IdentityKey :=
  toLex (seller, toLex (product, toLex (edition, region)))

def seller (k : IdentityKey) : String := (ofLex k).1
def product (k : IdentityKey) : String := (ofLex (ofLex k).2).1
def edition (k : IdentityKey) : String := (ofLex (ofLex (ofLex k).2).2).1
def region (k : IdentityKey) : String := (ofLex (ofLex (ofLex k).2).2).2

end IdentityKey

/-- `_identity_key` -/
def identityKey (record : RawCandidateRecord) (aliases : Dict String String) : Py IdentityKey := do
  let seller ← canonical rt record.sellerId aliases
  let product ← canonical rt record.productId aliases
  let edition ← canonical rt record.edition aliases
  let region ← canonical rt record.region aliases
  return IdentityKey.mk seller product edition region

/-- `_canonical_id` -/
def canonicalId (key : IdentityKey) : Py String := do
  let hash ← contentHash rt (.strs [key.seller, key.product, key.edition, key.region])
  return "canonical_" ++ digest20 hash

/-! ## Merging one identity -/

/-- `_authority_floor` -/
def authorityFloor (first : RawCandidateRecord) (rest : List RawCandidateRecord) : PackAuthority :=
  (firstMax (fun r => r.authority.rank) first rest).authority

/-- A fact under the key it is merged by: its field and the hash of its value. -/
structure HashedFact where
  key : String ×ₗ String
  fact : ProductFact

def hashFact (fact : ProductFact) : Py HashedFact := do
  let hash ← contentHash rt fact.value.toValue
  return ⟨toLex (fact.field, hash), fact⟩

/-- `_merge_facts`: equal values of a field become one fact with all their evidence. -/
def mergeFacts (records : List RawCandidateRecord) (componentId : String) :
    Py (List ProductFact) := do
  let hashed ← (records.flatMap (·.facts)).mapM (hashFact rt)
  let values := Dict.ofList (hashed.map (fun h => (h.key, h.fact.value)))
  (sortedSet (hashed.map (·.key))).mapM (fun key => do
    let value ← getItem values key (ofLex key).1
    let evidence := (hashed.filter (fun h => h.key = key)).flatMap (·.fact.evidenceIds.items)
    ProductFact.new
      { field := (ofLex key).1, value := value, evidenceIds := .of evidence,
        componentId := some componentId })

structure IdentityRecord where
  canonicalId : String
  sellerId : String
  productId : String
  edition : String
  region : String
  recordIds : List String
  packIds : List String
  offerIds : List String

structure IdentityMerge where
  canonicalId : String
  mergedRecordId : String
  reasons : List String

def IdentityMerge.toValue (m : IdentityMerge) : Value :=
  .obj [("canonical_id", .str m.canonicalId), ("merged_record_id", .str m.mergedRecordId),
    ("reasons", .strs m.reasons)]

inductive ExclusionReason
  | categoryMismatch | jtbdMismatch | regionUnsupported | packRevoked | packSuperseded
  deriving DecidableEq

def ExclusionReason.value : ExclusionReason → String
  | categoryMismatch => "CATEGORY_MISMATCH"
  | jtbdMismatch => "JTBD_MISMATCH"
  | regionUnsupported => "REGION_UNSUPPORTED"
  | packRevoked => "PACK_REVOKED"
  | packSuperseded => "PACK_SUPERSEDED"

structure RecallExclusion where
  recordId : String
  reasonCode : ExclusionReason
  detail : String

def RecallExclusion.toValue (e : RecallExclusion) : Value :=
  .obj [("record_id", .str e.recordId), ("reason_code", .str e.reasonCode.value),
    ("detail", .str e.detail)]

structure RecallResult where
  identities : List IdentityRecord
  merges : List IdentityMerge
  representatives : List RawCandidateRecord
  exclusions : List RecallExclusion
  rawRecordCount : Nat

/-- The merged record of an identity group. -/
def representative (aliases : Dict String String) (key : IdentityKey) (canonicalId : String)
    (first : RawCandidateRecord) (rest : List RawCandidateRecord) : Py RawCandidateRecord := do
  let group := first :: rest
  let anchor := firstMin (fun r => toLex (-(r.packVersion : ℤ), r.recordId)) first rest
  let offerId ← canonical rt anchor.offerId aliases
  let facts ← mergeFacts rt group key.product
  RawCandidateRecord.new
    { recordId := canonicalId
      packId := anchor.packId
      packVersion := anchor.packVersion
      sellerId := key.seller
      productId := key.product
      edition := key.edition
      region := key.region
      offerId := offerId
      authority := authorityFloor first rest
      available := group.all (·.available)
      facts := facts
      sellerGateIds := .of (group.flatMap (·.sellerGateIds.items))
      aliases := .of (group.flatMap (·.aliases.items))
      categoryIds := .of (group.flatMap (·.categoryIds.items))
      jtbdIds := .of (group.flatMap (·.jtbdIds.items))
      packStatus := .published
      requiredProductIds := .of (group.flatMap (·.requiredProductIds.items)) }

/-- Why a duplicate was merged into the group of `first`. -/
def mergeReasons (first duplicate : RawCandidateRecord) : List String :=
  sortedBy id (["CANONICAL_IDENTITY_MATCH"] ++
    (if duplicate.offerId ≠ first.offerId then ["OFFER_ALIAS"] else []) ++
    (if duplicate.edition ≠ first.edition then ["EDITION_ALIAS"] else []))

/-- What one identity group contributes to the recall. -/
structure MergedGroup where
  identity : IdentityRecord
  representative : RawCandidateRecord
  merges : List IdentityMerge

def mergeGroup (aliases : Dict String String) (key : IdentityKey)
    (first : RawCandidateRecord) (rest : List RawCandidateRecord) : Py MergedGroup := do
  let group := first :: rest
  let id ← canonicalId rt key
  let offerIds ← group.mapM (fun r => canonical rt r.offerId aliases)
  let merged ← representative rt aliases key id first rest
  return {
    identity :=
      { canonicalId := id, sellerId := key.seller, productId := key.product,
        edition := key.edition, region := key.region, recordIds := group.map (·.recordId),
        packIds := sortedSet (group.map (·.packId)), offerIds := sortedSet offerIds }
    representative := merged
    merges := rest.map (fun r => ⟨id, r.recordId, mergeReasons first r⟩) }

/-! ## Recall -/

/-- `_recall_exclusion` -/
def recallExclusion (record : RawCandidateRecord) (input : DecisionGraphInput)
    (aliases : Dict String String) : Py (Option RecallExclusion) := do
  if record.packStatus = .revoked then
    return some ⟨record.recordId, .packRevoked, "Pack version is revoked"⟩
  if record.packStatus = .superseded then
    return some ⟨record.recordId, .packSuperseded, "Pack version is superseded"⟩
  match input.recallPolicy with
  | none => return none
  | some policy =>
    if policy.categoryId ∉ record.categoryIds.items then
      return some ⟨record.recordId, .categoryMismatch,
        "Pack does not support category " ++ policy.categoryId⟩
    if policy.jtbdId ∉ record.jtbdIds.items then
      return some ⟨record.recordId, .jtbdMismatch, "Pack does not support JTBD " ++ policy.jtbdId⟩
    let normalizedRegion ← canonical rt record.region aliases
    let allowedRegions ← policy.allowedRegions.items.mapM (fun v => canonical rt v aliases)
    if normalizedRegion ∉ allowedRegions then
      return some ⟨record.recordId, .regionUnsupported,
        "Pack region " ++ record.region ++ " is outside the allowed region set"⟩
    return none

/-- A candidate is excluded, or recalled under its identity. -/
inductive Recalled
  | excluded (exclusion : RecallExclusion)
  | kept (key : IdentityKey) (record : RawCandidateRecord)

def recallRecord (input : DecisionGraphInput) (record : RawCandidateRecord) : Py Recalled := do
  let aliases := aliasMap input
  match ← recallExclusion rt record input aliases with
  | some exclusion => return .excluded exclusion
  | none => return .kept (← identityKey rt record aliases) record

def Recalled.exclusion? : Recalled → Option RecallExclusion
  | .excluded e => some e
  | .kept _ _ => none

def Recalled.kept? : Recalled → Option (IdentityKey × RawCandidateRecord)
  | .excluded _ => none
  | .kept key record => some (key, record)

/-- The recalled records of one identity, by record id. -/
def groupOf (kept : List (IdentityKey × RawCandidateRecord)) (key : IdentityKey) :
    List RawCandidateRecord :=
  sortedBy (·.recordId) ((kept.filter (fun p => p.1 = key)).map Prod.snd)

/-- The identity groups in the order of their keys. Every key has a record, so the
    empty case does not occur. -/
def mergeGroups (input : DecisionGraphInput) (kept : List (IdentityKey × RawCandidateRecord)) :
    Py (List MergedGroup) :=
  (sortedSet (kept.map Prod.fst)).mapM (fun key =>
    match groupOf kept key with
    | first :: rest => mergeGroup rt (aliasMap input) key first rest
    | [] => .error .stopIteration)

/-- `recall_and_deduplicate` -/
def recallAndDeduplicate (input : DecisionGraphInput) : Py RecallResult := do
  let recalled ← (sortedBy (·.recordId) input.candidates).mapM (recallRecord rt input)
  let groups ← mergeGroups rt input (recalled.filterMap Recalled.kept?)
  return {
    identities := groups.map (·.identity)
    merges := sortedBy (fun m => toLex (m.canonicalId, m.mergedRecordId))
      (groups.flatMap (·.merges))
    representatives := sortedBy (·.recordId) (groups.map (·.representative))
    exclusions := sortedBy (·.recordId) (recalled.filterMap Recalled.exclusion?)
    rawRecordCount := input.candidates.length }

/-! ## Evidence assessment -/

structure EvidenceAssessment where
  evidenceId : String
  recordId : String
  field : String
  sourceAllowed : Bool
  methodAllowed : Bool
  scopeMatch : Bool
  reconstructable : Bool
  freshnessCurrent : Option Bool
  disputed : Bool
  revoked : Bool
  state : EvidenceState
  reasons : List String
  ageBounds : Option EvidenceAgeBounds

def EvidenceAgeBounds.toValue (b : EvidenceAgeBounds) : Value :=
  .obj [("lower", .ratio b.lower), ("upper", .ratio b.upper)]

def EvidenceAssessment.toValue (a : EvidenceAssessment) : Value :=
  .obj [("evidence_id", .str a.evidenceId), ("record_id", .str a.recordId), ("field", .str a.field),
    ("source_allowed", .bool a.sourceAllowed), ("method_allowed", .bool a.methodAllowed),
    ("scope_match", .bool a.scopeMatch), ("reconstructable", .bool a.reconstructable),
    ("freshness_current", .opt .bool a.freshnessCurrent), ("disputed", .bool a.disputed),
    ("revoked", .bool a.revoked), ("state", .str a.state.value), ("reasons", .strs a.reasons),
    ("age_bounds", .opt EvidenceAgeBounds.toValue a.ageBounds)]

/-- `_scope_matches` -/
def scopeMatches (requiredScope actualScope : String) : Bool :=
  fold rt requiredScope == "*" || fold rt requiredScope == fold rt actualScope

/-- The age of a record under a policy, when its observation times are known. -/
def assessmentAge (record : EvidenceRecord) (policy : EvidencePolicy) (evaluatedAt : Datetime) :
    Py (Option EvidenceAgeBounds) :=
  match record.observedAtLower, record.observedAtUpper with
  | some lower, some upper => some <$> evidenceAgeBounds evaluatedAt lower upper policy.freshnessSlaSeconds
  | _, _ => .ok none

/-- `_assessment` -/
def assessment (record : EvidenceRecord) (policy : EvidencePolicy) (field : String)
    (evaluatedAt : Datetime) : Py EvidenceAssessment := do
  let sourceAllowed := policy.allowedSourceClasses.contains record.sourceClass
  let methodAllowed := policy.allowedVerificationMethods.contains record.verificationMethod
  let scopeMatch := scopeMatches rt policy.requiredScope record.verificationScope
  let ageBounds ← assessmentAge record policy evaluatedAt
  let freshnessCurrent := ageBounds.map (fun age => decide (age.upper ≤ 1))
  let reasons :=
    (if !sourceAllowed then ["SOURCE_CLASS_NOT_ALLOWED"] else []) ++
    (if !methodAllowed then ["VERIFICATION_METHOD_NOT_ALLOWED"] else []) ++
    (if !scopeMatch then ["VERIFICATION_SCOPE_MISMATCH"] else []) ++
    (if !record.reconstructable then ["NOT_RECONSTRUCTABLE"] else []) ++
    (if record.disputed then ["DISPUTED"] else []) ++
    (if record.revoked then ["REVOKED"] else []) ++
    (match freshnessCurrent with
      | none => ["BOUND_UNAVAILABLE:EVIDENCE_TIME"]
      | some true => []
      | some false => ["STALE"])
  let state : EvidenceState :=
    if record.disputed || record.revoked then .conflict
    else if freshnessCurrent = some false then .stale
    else if !sourceAllowed || !methodAllowed || !scopeMatch || !record.reconstructable ||
        freshnessCurrent.isNone then .unknown
    else .acceptable
  return {
    evidenceId := record.evidenceId, recordId := record.recordId, field := field,
    sourceAllowed := sourceAllowed, methodAllowed := methodAllowed, scopeMatch := scopeMatch,
    reconstructable := record.reconstructable, freshnessCurrent := freshnessCurrent,
    disputed := record.disputed, revoked := record.revoked, state := state,
    reasons := sortedBy id reasons, ageBounds := ageBounds }

/-- The assessment of evidence that no record supports. -/
def missingAssessment (evidenceId field : String) : EvidenceAssessment where
  evidenceId := evidenceId
  recordId := "missing_record_" ++ evidenceId
  field := field
  sourceAllowed := false
  methodAllowed := false
  scopeMatch := false
  reconstructable := false
  freshnessCurrent := none
  disputed := false
  revoked := false
  state := .unknown
  reasons := ["BOUND_UNAVAILABLE:EVIDENCE_TIME", "MISSING_EVIDENCE_RECORD"]
  ageBounds := none

/-- An evidence id and the field it supports. -/
abbrev EvidencePair : Type := String ×ₗ String

def factPairs (facts : List ProductFact) : List EvidencePair :=
  facts.flatMap (fun fact => fact.evidenceIds.items.map (fun id => toLex (id, fact.field)))

/-- The pairs an outcome observation mentions, when its criterion exists. -/
def outcomePairs (criterionFields : Dict String String) (observation : OutcomeObservation) :
    List EvidencePair :=
  match criterionFields.get? observation.criterionId with
  | none => []
  | some field => observation.evidenceIds.items.map (fun id => toLex (id, field))

/-- Every decision-material evidence/field pair of an input. -/
def evidencePairs (input : DecisionGraphInput) (recallResult : RecallResult) : List EvidencePair :=
  let criterionFields := Dict.ofList (input.preferences.map (fun c => (c.criterionId, c.field)))
  recallResult.representatives.flatMap (fun r => factPairs r.facts) ++
    input.currentActions.flatMap (fun a => factPairs a.facts) ++
    input.outcomeValues.flatMap (outcomePairs criterionFields)

/-- The assessment of one pair. -/
def assessPair (input : DecisionGraphInput) (pair : EvidencePair) : Py EvidenceAssessment :=
  let evidenceId := (ofLex pair).1
  let field := (ofLex pair).2
  let evidenceById := Dict.ofList (input.evidence.map (fun e => (e.evidenceId, e)))
  let policies := Dict.ofList (input.evidencePolicies.map (fun p => (p.field, p)))
  match policies.get? field with
  | none => .error (.domainValidation
      ("missing evidence policy for decision-material field " ++ field))
  | some policy =>
    match evidenceById.get? evidenceId with
    | none => .ok (missingAssessment evidenceId field)
    | some record => assessment rt record policy field input.evaluatedAt

/-- `assess_evidence` -/
def assessEvidence (input : DecisionGraphInput) (recallResult : RecallResult) :
    Py (List EvidenceAssessment) :=
  (sortedSet (evidencePairs input recallResult)).mapM (assessPair rt input)

variable {rt} {input : DecisionGraphInput}

theorem assessPair_pair {pair : EvidencePair} {a : EvidenceAssessment}
    (h : assessPair rt input pair = .ok a) : toLex (a.evidenceId, a.field) = pair := by
  unfold assessPair at h
  dsimp only at h
  split at h
  · cases h
  · split at h
    · cases h
      rfl
    · rename_i record hrecord
      obtain ⟨e, -, hsame⟩ := List.mem_map.mp (Dict.mem_of_get?_ofList hrecord)
      obtain ⟨hid, rfl⟩ := Prod.mk.inj hsame
      unfold assessment at h
      obtain ⟨age, -, h⟩ := Raising.bind_eq_ok.mp h
      rw [← Raising.pure_eq_ok.mp h]
      show toLex (e.evidenceId, (ofLex pair).2) = pair
      rw [hid]
      rfl

end DecisionEngine
