-- SUMMARY: The tables of the seller workflow of one tenant with their declared keys, what is read from them, and the parsed evidence beside them.
import SiraSeil.Domain.Enums
import SiraSeil.Persistence.WorkflowRepository

/-!
# The seller tables

The seller rows of `persistence/models.py`, from a product to its published packs, and
`EvidenceRepository` of `persistence/evidence_repository.py`. A transaction sees the rows of its
tenant, so the tables are those of one tenant. A row that would repeat a declared key raises an
integrity error. Times count microseconds. Columns and rows that no operation here reads back are
left out: the exports of a pack, the activity of a product, and the text of a span.
-/

namespace Persistence

open Domain

/-! ## Enumerations -/

inductive SellerEvidenceState
  | unclaimed | claimPending | claimDenied | sellerDraft | validationConflict | inReview
  | changesRequested | publishReady | published | superseded | publicationFailed
  deriving DecidableEq, Repr

inductive SellerReviewDecision
  | requestChanges | approve | reject
  deriving DecidableEq, Repr

inductive SellerActorRole
  | sellerEditor | sellerReviewer | platformOperator
  deriving DecidableEq, Repr

inductive VerificationState
  | unverified | pending | verified | rejected
  deriving DecidableEq, Repr

def VerificationState.value : VerificationState → String
  | unverified => "UNVERIFIED"
  | pending => "PENDING"
  | verified => "VERIFIED"
  | rejected => "REJECTED"

inductive ValidationStatus
  | valid | hasGaps | conflict
  deriving DecidableEq, Repr

/-! ## Documents -/

/-- A claim or a rule: a field, its value, and the evidence it cites -/
structure SellerEvidenceClaim where
  field : String
  value : Value
  evidenceIds : List String

/-- What a revision says of a product -/
structure SellerContent where
  claims : List SellerEvidenceClaim
  fitRules : List SellerEvidenceClaim
  antiFitRules : List SellerEvidenceClaim
  proofAdapter : Option (List (String × Value))

namespace SellerContent

/-- `claims + fit_rules + anti_fit_rules` -/
def rows (content : SellerContent) : List SellerEvidenceClaim :=
  content.claims ++ content.fitRules ++ content.antiFitRules

end SellerContent

structure SellerValidationGap where
  id : String
  field : String
  safeMessage : String
  href : String

structure SellerValidation where
  status : ValidationStatus
  gaps : List SellerValidationGap

/-! ## Rows -/

/-- Seller-safe product identity and current Product Evidence lifecycle pointer -/
structure SellerProduct where
  id : String
  publisherAuthority : PackAuthority
  state : SellerEvidenceState
  ownerActorId : Option String
  currentPackVersionId : Option String
  currentVersion : Nat
  fixtureLabel : Option String

structure SellerProductClaim where
  id : String
  productId : String
  claimantActorId : String
  requestedRole : String
  authorityProofHash : String
  state : SellerEvidenceState

/-- Mutable aggregate pointer whose revisions are preserved as immutable rows -/
structure SellerPackDraft where
  id : String
  productId : String
  editorActorId : String
  state : SellerEvidenceState
  publisherAuthority : PackAuthority
  currentRevision : Nat
  currentRevisionHash : String
  validation : SellerValidation
  submittedAt : Option Int
  frozenAt : Option Int
  updatedAt : Int

/-- Exact-hash snapshot of one draft revision -/
structure SellerPackDraftRevision where
  id : String
  draftId : String
  revision : Nat
  revisionHash : String
  content : SellerContent
  validation : SellerValidation
  createdByActorId : String
  createdAt : Int
  frozenAt : Option Int

/-- The object that an uploaded attachment is bound to -/
structure StoredEvidenceObject where
  bucket : String
  key : String
  versionId : String
  sha256 : String
  contentType : String
  sizeBytes : Nat

/-- Evidence provenance, unverified by default, scoped to one seller draft -/
structure SellerEvidenceAttachment where
  id : String
  draftId : String
  attachedRevision : Nat
  sourceReferenceHash : String
  publicSourceUrl : Option String
  object : Option StoredEvidenceObject
  sourceClass : String
  claimFields : List String
  observedAt : Option Int
  verificationState : VerificationState
  addedByActorId : String

def SellerEvidenceAttachment.objectChecksum (attachment : SellerEvidenceAttachment) :
    Option String :=
  attachment.object.map (·.sha256)

inductive SubmissionStatus
  | pending | completed
  deriving DecidableEq, Repr

/-- Frozen revision submitted for independent seller review -/
structure SellerReviewSubmission where
  id : String
  draftId : String
  revision : Nat
  revisionHash : String
  submittedByActorId : String
  status : SubmissionStatus
  submittedAt : Int
  completedAt : Option Int

/-- Append-only reviewer decision bound to the frozen revision hash -/
structure SellerReviewDecisionRecord where
  id : String
  submissionId : String
  draftId : String
  decision : SellerReviewDecision
  revisionHash : String
  actorId : String
  actorRole : SellerActorRole
  reason : String
  eventKey : String
  occurredAt : Int

/-- Immutable published Product Evidence content -/
structure SellerPackVersion where
  id : String
  productId : String
  sourceDraftId : String
  sourceRevision : Nat
  sourceRevisionHash : String
  version : Nat
  contentHash : String
  publisherAuthority : PackAuthority
  payload : List (String × Value)
  publishedByActorId : String
  publishedAt : Int
  supersededByVersionId : Option String

structure SellerPackSuspension where
  id : String
  packVersionId : String
  reason : String
  effectiveAt : Int
  actorId : String
  eventKey : String

inductive EvidenceSourceStatus
  | parsed | validated | published | rejected
  deriving DecidableEq, Repr

structure EvidenceSourceVersion where
  id : String
  productId : String
  objectChecksum : String
  textHash : String
  status : EvidenceSourceStatus

inductive SpanVisibility
  | «private» | buyerSafe | «public»
  deriving DecidableEq, Repr

structure EvidenceSpan where
  id : String
  sourceVersionId : String
  visibility : SpanVisibility
  sequence : Nat

structure ParsedEvidence where
  sourceVersionId : String
  objectChecksum : String
  textHash : String
  spans : List (String × Nat)

/-! ## Tables -/

structure SellerCore where
  products : List SellerProduct := []
  productClaims : List SellerProductClaim := []
  drafts : List SellerPackDraft := []
  revisions : List SellerPackDraftRevision := []
  attachments : List SellerEvidenceAttachment := []
  submissions : List SellerReviewSubmission := []
  decisions : List SellerReviewDecisionRecord := []
  packs : List SellerPackVersion := []
  suspensions : List SellerPackSuspension := []
  sources : List EvidenceSourceVersion := []
  spans : List EvidenceSpan := []

/-- `_not_found` of the seller service -/
def sellerNotFound (kind : String) : QualificationError :=
  .api (kind ++ "_NOT_FOUND") "The tenant-scoped seller resource is unavailable." 404

namespace SellerCore

variable (core : SellerCore)

/-! ### Reading -/

def product? (productId : String) : Option SellerProduct :=
  core.products.find? (·.id = productId)

def draft? (draftId : String) : Option SellerPackDraft :=
  core.drafts.find? (·.id = draftId)

/-- `_evidence_by_source` -/
def evidenceBySource (draftId sourceReferenceHash : String) : Option SellerEvidenceAttachment :=
  core.attachments.find? (fun a => a.draftId = draftId ∧
    a.sourceReferenceHash = sourceReferenceHash)

/-! ### Inserting -/

def addAttachment (record : SellerEvidenceAttachment) : Qualified SellerCore := do
  constrain (core.attachments.any (·.id = record.id)) "seller_evidence_attachments_pkey"
  constrain (core.attachments.any (fun a => a.draftId = record.draftId ∧
    a.sourceReferenceHash = record.sourceReferenceHash)) "uq_seller_evidence_source"
  constrain (record.object.any (fun o => o.sizeBytes = 0)) "ck_seller_evidence_object_identity"
  return { core with attachments := core.attachments ++ [record] }

/-! ### Parsed evidence -/

/-- The spans of a source, one after another -/
def addSpans (sourceId : String) : List (String × Nat) → SellerCore → Qualified SellerCore
  | [], core => .ok core
  | (id, sequence) :: rest, core => do
    constrain (core.spans.any (·.id = id)) "evidence_spans_pkey"
    constrain (core.spans.any (fun x => x.sourceVersionId = sourceId ∧ x.sequence = sequence))
      "uq_evidence_span_sequence"
    addSpans sourceId rest { core with spans := core.spans ++ [⟨id, sourceId, .private, sequence⟩] }

/-- `EvidenceRepository.store_parsed`, in the table of one tenant -/
def storeParsed (productId : String) (parsed : ParsedEvidence) : Qualified SellerCore :=
  match core.sources.find? (fun x => x.productId = productId ∧
      x.objectChecksum = parsed.objectChecksum) with
  | some existing =>
    if existing.textHash ≠ parsed.textHash then
      .error (.persistenceConflict "evidence checksum is bound to another parsed text")
    else .ok core
  | none => do
    constrain (core.sources.any (·.id = parsed.sourceVersionId)) "evidence_source_versions_pkey"
    addSpans parsed.sourceVersionId parsed.spans { core with
      sources := core.sources ++
        [⟨parsed.sourceVersionId, productId, parsed.objectChecksum, parsed.textHash, .parsed⟩] }

end SellerCore

end Persistence
