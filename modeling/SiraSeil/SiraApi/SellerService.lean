-- SUMMARY: The seller service: the calls of its operations, the access to a draft, what a revision is validated for, and the two transactions of an evidence upload.
import SiraSeil.Domain.Hashing
import SiraSeil.Library.Dict
import SiraSeil.Library.Transactions
import SiraSeil.Persistence.SellerRepository

/-!
# The seller service

`SellerEvidenceService` of `services/api/sira_api/seller_service.py`, for a tenant without the
development fixture. An upload is two transactions with the write to the evidence store between
them. A transaction reads the clock once. Of the other operations, what their bodies hold.
-/

namespace SiraApi

open Domain Persistence Sorting

/-- `urlsplit`, as far as a source reference is read -/
structure SplitUrl where
  scheme : String
  netloc : String
  path : String
  query : String
  hostname : Option String
  username : Option String
  password : Option String

/-- The text of an evidence object: its hash, and the ids and sequence numbers of its spans -/
structure EvidenceText where
  textHash : String
  spans : List (String × Nat)

/-- What the service is set up with. `evidenceText` is what `parse_evidence` makes of the bytes of
    an object, for a source version and a content type; `upper`, `lower` and `urlsplit` are those of
    the standard library. -/
structure SellerService where
  rt : Runtime
  upper : String → String
  lower : String → String
  urlsplit : String → Option SplitUrl
  evidenceText : String → List Nat → String → Except String EvidenceText
  storesEvidence : Bool

/-! ## Vocabulary -/

/-- `_ALLOWED_CLAIM_FIELDS` -/
def allowedClaimFields : List String :=
  ["product_name", "public_summary", "data_retention_days", "supported_regions", "sso_supported",
   "security_certifications", "deployment_modes", "public_documentation_url", "annual_price_usd",
   "reusable_answer"]

/-- `_ALLOWED_FIT_FIELDS` -/
def allowedFitFields : List String :=
  ["employee_count_min", "employee_count_max", "supported_regions", "supported_categories",
   "supported_deployment_modes", "required_integrations"]

/-- `_ALLOWED_ANTI_FIT_FIELDS` -/
def allowedAntiFitFields : List String :=
  ["regulated_data_prohibited", "region_exclusions", "unsupported_integrations",
   "unsupported_deployment_modes", "employee_count_max"]

/-- `_REQUIRED_CLAIMS` -/
def requiredClaims : List String :=
  ["product_name", "public_summary", "data_retention_days", "supported_regions"]

/-- `_SOURCE_CLASSES` -/
def sourceClasses : List String :=
  ["VENDOR_DOCUMENTATION", "SECURITY_ATTESTATION", "CONTRACT", "PUBLIC_WEB", "SELLER_ASSERTION"]

/-- `_EDITABLE_STATES` -/
def editableStates : List SellerEvidenceState :=
  [.sellerDraft, .validationConflict, .changesRequested]

/-! ## Problems -/

/-- `_forbidden` -/
def sellerForbidden (code : String) : QualificationError :=
  .api code "This seller identity is not authorized for the requested Product Evidence action." 403

/-- `_require_product_access` of the calls that change rows -/
def requireProductAccess (product : SellerProduct) (actorId : String) (role : SellerActorRole) :
    Qualified Unit :=
  if role = .sellerReviewer ∨ role = .platformOperator then .ok ()
  else if product.ownerActorId ≠ some actorId then
    .error (sellerForbidden "SELLER_PRODUCT_SCOPE_REQUIRED")
  else .ok ()

def orNotFound {α : Type} (kind : String) : Option α → Qualified α
  | some row => .ok row
  | none => .error (sellerNotFound kind)

/-! ## Views -/

/-- A time of the service -/
def sellerInstant (micros : Int) : Value :=
  .datetime ⟨micros, true⟩

/-- `_evidence_view` -/
def evidenceView (record : SellerEvidenceAttachment) : List (String × Value) :=
  [("id", .str record.id), ("draft_id", .str record.draftId),
    ("verification_state", .str record.verificationState.value),
    ("source_reference_hash", .str record.sourceReferenceHash),
    ("object_checksum", .opt .str record.objectChecksum),
    ("content_type", .opt .str (record.object.map (·.contentType))),
    ("size_bytes", .opt .nat (record.object.map (·.sizeBytes))),
    ("version_bound", .bool record.object.isSome)]

/-! ## Keys -/

/-- What the work of a call answers, with the reference that its record keeps -/
structure SellerReply where
  status : Int
  payload : List (String × Value)
  reference : String

/-- How the work of a call ends: with a reply and the event of it, if there is one, with a problem
    that leaves the record of the call as it is, or with a reservation -/
inductive SellerDone
  | reply (reply : SellerReply) (event : Option OutboxEvent)
  | problem (error : QualificationError)
  | reserved

/-! ## Validation -/

/-- `_gap` -/
def sellerGap (productId field message : String) (suffix : String := "required") :
    SellerValidationGap where
  id := "gap_" ++ String.ofList (field.toList.map (fun c => if c = '.' then '_' else c)) ++ "_" ++
    suffix
  field := field
  safeMessage := message
  href := "/seller/product-evidence/" ++ productId ++ "?field=" ++ field

/-- `row.get("value") is None or row.get("value") == ""` -/
def isBlank : Value → Bool
  | .atom .null => true
  | .atom (.str text) => text = ""
  | _ => false

def requiredGaps (productId : String) (claims : List SellerEvidenceClaim) :
    List SellerValidationGap :=
  (requiredClaims.filter (fun field =>
    (claims.filter (·.field = field)).all (fun row => isBlank row.value))).map (fun field =>
      sellerGap productId field ("Add the required " ++ field ++ " value."))

def ruleGaps (productId : String) (content : SellerContent) : List SellerValidationGap :=
  (if content.fitRules.isEmpty then
    [sellerGap productId "fit_rules" "Add at least one typed fit rule."] else []) ++
  (if content.antiFitRules.isEmpty then
    [sellerGap productId "anti_fit_rules" "Add at least one typed anti-fit rule."] else [])

/-- The fields of claims whose values have different hashes -/
def conflictingFields (rt : Runtime) (claims : List SellerEvidenceClaim) :
    Qualified (List String) :=
  (claims.map (·.field)).eraseDups.filterM (fun field => do
    let hashes ← (claims.filter (·.field = field)).mapM (fun row =>
      contentDigest rt (.obj [("value", row.value)]))
    return 1 < hashes.eraseDups.length)

def retentionGaps (productId : String) (claims : List SellerEvidenceClaim) :
    List SellerValidationGap :=
  match (claims.filter (·.field = "data_retention_days")).getLast? with
  | some row => if row.evidenceIds.isEmpty then
      [sellerGap productId "data_retention_days" "Add supporting evidence for the retention value."]
    else []
  | none => []

/-- `timedelta(days=365)` -/
def staleAfter : Int := 365 * 86400000000

/-- The gap of a piece of evidence that a field cites, if there is one -/
def evidenceGap (productId : String) (evidence : List SellerEvidenceAttachment) (now : Int)
    (evidenceId field : String) : Option SellerValidationGap :=
  let missing := sellerGap productId field "Replace rejected or missing evidence."
  match evidence.find? (·.id = evidenceId) with
  | none => some missing
  | some attachment =>
    if attachment.verificationState = .rejected then some missing
    else if attachment.observedAt.any (fun observed => observed < now - staleAfter) then
      some (sellerGap productId field
        "Replace stale supporting evidence for this published field." "stale")
    else none

/-- `referenced`: the field of the last row that cites a piece of evidence -/
def referenced (content : SellerContent) : Dict String String :=
  .ofList (content.rows.flatMap (fun row => row.evidenceIds.map (fun id => (id, row.field))))

/-- `_validate_revision` -/
def validateRevision (rt : Runtime) (productId : String) (content : SellerContent)
    (evidence : List SellerEvidenceAttachment) (now : Int) : Qualified SellerValidation := do
  let conflicts ← conflictingFields rt content.claims
  let gaps := requiredGaps productId content.claims ++ ruleGaps productId content ++
    conflicts.map (fun field =>
      sellerGap productId field "Resolve conflicting values for this field.") ++
    retentionGaps productId content.claims ++
    (referenced content).items.filterMap (fun item => evidenceGap productId evidence now item.1 item.2)
  let ordered := (Dict.ofList (gaps.map (fun gap => (gap.id, gap)))).sortedItems.map Prod.snd
  return {
    status := if conflicts ≠ [] then .conflict else if ordered.isEmpty then .valid else .hasGaps
    gaps := ordered }

/-- `_validate_publication_fields` -/
def validatePublicationFields (content : SellerContent) : Qualified Unit :=
  if content.claims.all (·.field ∈ allowedClaimFields) ∧
      content.fitRules.all (·.field ∈ allowedFitFields) ∧
      content.antiFitRules.all (·.field ∈ allowedAntiFitFields) then .ok ()
  else .error (.api "SELLER_PUBLICATION_FIELD_FORBIDDEN"
    "Only approved Product Evidence fields may enter a published Pack." 403)

section Calls

variable (s : SellerService) (organizationId actorId : String) (role : SellerActorRole)

/-! ## Claiming a product -/

structure ClaimBody where
  authorityProofReference : String
  requestedRole : String

/-! ## The draft of a call -/

/-- The draft and the product of a call that the actor has access to, with the draft in a state
    that the call accepts -/
def draftFor (draftId : String) (accepts : SellerEvidenceState → Bool) (refusal : QualificationError)
    (core : SellerCore) : Qualified (SellerPackDraft × SellerProduct) := do
  let draft ← orNotFound "SELLER_PACK_DRAFT" (core.draft? draftId)
  let product ← orNotFound "SELLER_PRODUCT" (core.product? draft.productId)
  requireProductAccess product actorId role
  if accepts draft.state then return (draft, product) else throw refusal

/-- The draft of a call that edits it -/
def editableDraft (draftId message : String) (core : SellerCore) :
    Qualified (SellerPackDraft × SellerProduct) :=
  draftFor actorId role draftId (· ∈ editableStates) (.api "SELLER_DRAFT_FROZEN" message 409) core

/-! ## Editing -/

/-- The body of an edit, with the fields that the caller has given -/
structure PatchBody where
  baseRevision : Nat
  content : SellerContent
  providedFields : List String

/-! ## Evidence -/

structure AttachBody where
  sourceReference : String
  sourceClass : String
  claimFields : List String
  observedAt : Option Int

/-- The source class and the fields of evidence, checked -/
def checkEvidence (sourceClass : String) (claimFields : List String) (emptyAllowed : Bool)
    (message : String) : Qualified (List String) := do
  if sourceClass ∉ sourceClasses then
    throw (.api "SELLER_EVIDENCE_SOURCE_CLASS_INVALID"
      "The evidence source class is not supported." 400)
  let fields := sortedSet claimFields
  if (fields = [] ∧ ¬ emptyAllowed) ∨ fields.length ≠ claimFields.length then
    throw (.api "SELLER_EVIDENCE_FIELDS_DUPLICATED" message 400)
  if ∃ field ∈ fields, field ∉ allowedClaimFields ++ allowedFitFields ++ allowedAntiFitFields then
    throw (.api "SELLER_PUBLICATION_FIELD_FORBIDDEN"
      "Evidence may reference only approved Product Evidence fields." 403)
  return fields

def frozenEvidence : String :=
  "Evidence cannot be changed while this revision is frozen."

/-- `_require_matching_evidence_metadata` -/
def requireMatchingMetadata (existing : SellerEvidenceAttachment) (sourceClass : String)
    (claimFields : List String) (message : String) : Qualified Unit :=
  if existing.sourceClass ≠ sourceClass ∨ existing.claimFields ≠ claimFields then
    .error (.api "SELLER_EVIDENCE_SOURCE_CONFLICT" message 409)
  else .ok ()

/-- The row of a new attachment -/
def attachment (draft : SellerPackDraft) (sourceHash sourceClass : String)
    (claimFields : List String) (observedAt : Option Int) (publicUrl : Option String)
    (object : Option StoredEvidenceObject) (given : Given) : SellerEvidenceAttachment where
  id := "sevd_" ++ given.uuid "sevd"
  draftId := draft.id
  attachedRevision := draft.currentRevision
  sourceReferenceHash := sourceHash
  publicSourceUrl := publicUrl
  object := object
  sourceClass := sourceClass
  claimFields := claimFields
  observedAt := observedAt
  verificationState := .unverified
  addedByActorId := actorId

structure UploadBody where
  body : List Nat
  contentType : String
  sourceClass : String
  claimFields : List String
  observedAt : Option Int

/-- `object_checksum` -/
def UploadBody.objectChecksum (upload : UploadBody) : String :=
  "sha256:" ++ Sha256.hexdigest upload.body

/-- `parse_evidence` -/
def parseEvidence (sourceVersionId : String) (upload : UploadBody) :
    Except String Persistence.ParsedEvidence := do
  let text ← s.evidenceText sourceVersionId upload.body upload.contentType
  return {
    sourceVersionId := sourceVersionId
    objectChecksum := upload.objectChecksum
    textHash := text.textHash
    spans := text.spans }

/-- An upload that has passed the checks before its transactions -/
structure CheckedUpload where
  sourceClass : String
  claimFields : List String
  parsed : Persistence.ParsedEvidence
  requestHash : String

/-- The checks of `upload_evidence` -/
def checkUpload (draftId : String) (upload : UploadBody) : Qualified CheckedUpload := do
  if role = .sellerReviewer then throw (sellerForbidden "SELLER_EVIDENCE_ROLE_REQUIRED")
  if ¬ s.storesEvidence then
    throw (.api "SELLER_EVIDENCE_STORE_UNAVAILABLE"
      "Versioned evidence storage is not configured." 503)
  let sourceClass := s.upper (strip upload.sourceClass)
  let fields ← checkEvidence sourceClass upload.claimFields false
    "Evidence claim fields must be non-empty and unique."
  if upload.body = [] then
    throw (.api "SELLER_EVIDENCE_OBJECT_INVALID" "evidence object must not be empty" 400)
  let parsed ← (parseEvidence s
      ("esv_" ++ String.ofList ((Sha256.hexdigest upload.body).toList.take 24)) upload).mapError
    (fun message => QualificationError.api "SELLER_EVIDENCE_PARSE_FAILED" message 400)
  let requestHash ← contentDigest s.rt (.obj [("draft_id", .str draftId),
    ("object_checksum", .str upload.objectChecksum), ("content_type", .str upload.contentType),
    ("source_class", .str sourceClass), ("claim_fields", .strs fields),
    ("observed_at", .opt sellerInstant upload.observedAt)])
  return ⟨sourceClass, fields, parsed, requestHash⟩

def sameObject : String :=
  "This evidence object is already attached with different metadata."

/-- The work of the first transaction of `upload_evidence` -/
def reserveUploadWork (draftId : String) (upload : UploadBody) (checked : CheckedUpload)
    (_ : String) (core : SellerCore) : Qualified (SellerDone × SellerCore) := do
  let (draft, _) ← editableDraft actorId role draftId frozenEvidence core
  match core.evidenceBySource draft.id upload.objectChecksum with
  | some existing =>
    requireMatchingMetadata existing checked.sourceClass checked.claimFields sameObject
    return (.reply ⟨200, evidenceView existing, existing.id⟩ none, core)
  | none => return (.reserved, core)

/-- The work of `_finalize_uploaded_evidence` -/
def finalizeUploadWork (draftId : String) (upload : UploadBody) (checked : CheckedUpload)
    (stored : StoredEvidenceObject) (given : Given) (_ : String) (core : SellerCore) :
    Qualified (SellerDone × SellerCore) := do
  let (draft, product) ← editableDraft actorId role draftId frozenEvidence core
  match core.evidenceBySource draft.id stored.sha256 with
  | some existing =>
    requireMatchingMetadata existing checked.sourceClass checked.claimFields sameObject
    return (.reply ⟨200, evidenceView existing, existing.id⟩ none, core)
  | none =>
    let record := attachment actorId draft stored.sha256 checked.sourceClass checked.claimFields
      upload.observedAt none (some stored) given
    let core ← core.addAttachment record
    let core ← core.storeParsed product.id checked.parsed
    return (.reply ⟨201, evidenceView record, record.id⟩ (some {
      organizationId := organizationId
      aggregateType := "seller_pack_draft"
      aggregateId := draft.id
      eventType := "seller_evidence.object_attached"
      eventKey := "seller-evidence-object-attached:" ++ record.id
      payload := [("draft_id", .str draft.id), ("evidence_id", .str record.id),
        ("object_checksum", .str stored.sha256), ("object_version_id", .str stored.versionId),
        ("verification_state", .str record.verificationState.value)] }), core)

/-- What the evidence store must answer for an upload -/
def checkStored (upload : UploadBody) (stored : StoredEvidenceObject) : Qualified Unit :=
  if stored.sha256 ≠ upload.objectChecksum ∨ stored.sizeBytes ≠ upload.body.length ∨
      stored.contentType ≠ upload.contentType ∨ stored.bucket = "" ∨ stored.key = "" ∨
      stored.versionId = "" then
    .error (.api "SELLER_EVIDENCE_STORAGE_INTEGRITY_FAILED"
      "The evidence store returned an invalid object identity." 502)
  else .ok ()

/-! ## Review -/

structure DecisionBody where
  decision : SellerReviewDecision
  revisionHash : String
  reason : String

end Calls

/-! ## Transactions -/

/-- The transactions of the seller operations -/
inductive SellerCall
  | claimProduct (productId : String) (body : ClaimBody)
  | patchDraft (draftId : String) (body : PatchBody)
  | attachEvidence (draftId : String) (body : AttachBody)
  | reserveUpload (draftId : String) (upload : UploadBody)
  | finalizeUpload (draftId : String) (upload : UploadBody) (stored : StoredEvidenceObject)
  | submitReview (draftId revisionHash : String)
  | reviewDecision (draftId : String) (body : DecisionBody)
  | publish (draftId revisionHash : String)
  | suspend (versionId reason : String) (effectiveAt : Int)

/-- A call of an actor in a role, under a key -/
structure SellerTransaction where
  actorId : String
  role : SellerActorRole
  idempotencyKey : String
  call : SellerCall
  given : Given

end SiraApi
