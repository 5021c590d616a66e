-- SUMMARY: The exchange service: every operation as the sequence of its transactions, and the system of all calls that run them interleaved and may crash between two.
import SiraSeil.Library.Interleaving
import SiraSeil.Persistence.BilateralRepository

/-!
# The exchange service

`services/api/sira_api/exchange_service.py`. An operation checks its route and its
party, and then runs transactions in the tenants of the buyer and of the seller. A
`Stage` is what a call has still to do: each step runs one transaction. What an
operation reads from tables outside of the exchange (the requirement brief, the
published evidence spans) comes with its request.
-/

namespace SiraApi

open Domain Persistence Interleaving Raising

/-! ## Configuration -/

structure SellerPrincipalBinding where
  productId : String
  sellerOrganizationId : String
  merchantName : String
  merchantUrl : String

/-- What the service is set up with. `fromIsoformat`, `lower`, `repr` and `https` are
    `datetime.fromisoformat`, `str.lower`, the `repr` of a string and the parts of
    `urlsplit` that handoffs check. -/
structure ExchangeService where
  rt : Runtime
  sellerDirectory : String → Option SellerPrincipalBinding
  allowDevelopmentGuestBridge : Bool
  fromIsoformat : String → Option Datetime
  lower : String → String
  repr : String → String
  https : String → Bool

/-- The tables, and the routes that were encrypted so far. -/
structure Store where
  db : Db := {}
  issued : List ExchangeRoute := []

/-- `_stable_id` -/
def stableId (rt : Runtime) (kind : String) (parts : List String) : String :=
  kind ++ "_" ++ String.ofList ((rt.hexdigest (.obj [("parts", .strs parts)])).toList.take 32)

/-- `_validated_organization_id`, as `Database.transaction` calls it. -/
def tenant (organizationId : String) : Exchanged Unit :=
  ensure (boundedText organizationId 48 && organizationId.toList.all
    (fun c => c.isAlphanum || c == '_' || c == '-'))
    "organization_id must contain 1-48 ASCII letters, digits, underscores, or hyphens"

/-- `_api_conflict`, for the errors that the operations catch. -/
def apiConflict : ExchangeError → ExchangeError
  | .integrity key => .integrity key
  | .api code message statusCode => .api code message statusCode
  | _ => .api "EXCHANGE_CONFLICT" "The exchange changed or this action is no longer valid." 409

/-- `seconds` after a time. -/
def Datetime.plus (time : Datetime) (seconds : Int) : Datetime :=
  { time with micros := time.micros + 1000000 * seconds }

/-! ## Requests -/

/-- The latest version of a requirement brief. -/
structure RequirementBrief where
  version : Nat
  payload : Fields
  contentHash : String

structure EvidenceSpan where
  id : String
  sourceVersionId : String
  contentHash : String

structure CreateCase where
  organizationId : String
  actorId : String
  party : Option ExchangeParty
  idempotencyKey : String
  purchaseRequestId : String
  candidateId : String
  guestIdentity : Bool
  requirement : Option RequirementBrief

/-- The arguments that the operations on a case share. -/
structure Caller where
  organizationId : String
  actorId : String
  party : Option ExchangeParty
  caseId : String
  routeCapability : ExchangeRoute
  guestIdentity : Bool

/-- The arguments of the operations that issue a command. -/
structure Commanding extends Caller where
  idempotencyKey : String
  expectedVersion : Nat

structure Proposal where
  currency : String
  lines : List OfferLine
  total : Nat
  rationale : String
  changedTerms : List String
  expiresAt : Datetime

/-- A call of the service. The spans are those that the query of `publish_evidence`
    selects. -/
inductive Request
  | createCase (request : CreateCase)
  | viewCase (caller : Caller)
  | publishEvidence (caller : Commanding) (summary : String) (publishedSpanIds : List String)
      (spans : List EvidenceSpan)
  | proposeOffer (caller : Commanding) (proposal : Proposal)
  | acceptOffer (caller : Commanding) (offerHash : String)
  | approveOffer (caller : Commanding) (offerHash : String) (approvalExpiresAt : Datetime)
  | createHandoff (caller : Caller) (expectedVersion : Nat) (offerHash : String)
  | openHandoff (caller : Caller) (handoffId handoffHash : String)

/-! ## Routes -/

/-- `_party_organization` -/
def partyOrganization (route : ExchangeRoute) (party : ExchangeParty) : String :=
  if party = .buyer then route.buyerOrganizationId else route.sellerOrganizationId

def verifiedParty : Option ExchangeParty → Exchanged ExchangeParty
  | some .buyer => .ok .buyer
  | some .seller => .ok .seller
  | _ => .error (.api "VERIFIED_PARTY_REQUIRED"
      "A verified buyer or seller identity is required." 403)

/-- `_decode_route`, with the party it was checked for. -/
def ExchangeService.decodeRoute (s : ExchangeService) (issued : List ExchangeRoute)
    (caller : Caller) (now : Datetime) : Exchanged (ExchangeRoute × ExchangeParty) := do
  let party ← verifiedParty caller.party
  let route ← (ExchangeRoute.decode issued caller.routeCapability caller.organizationId
    now).mapError (fun _ => .api "EXCHANGE_ROUTE_INVALID"
      "This exchange link is invalid or expired." 403)
  if route.caseId ≠ caller.caseId then
    throw (.api "EXCHANGE_ROUTE_MISMATCH" "This exchange link belongs to another case." 403)
  let guestSellerBridge := s.allowDevelopmentGuestBridge && caller.guestIdentity &&
    decide (party = .seller) &&
    decide (route.developmentGuestOrganizationId = some caller.organizationId)
  if caller.organizationId ≠ partyOrganization route party ∧ !guestSellerBridge then
    throw (.api "EXCHANGE_PARTY_MISMATCH"
      "This identity is not the authorized exchange participant." 403)
  return (route, party)

/-! ## Releasing a requirement -/

/-- `_SELLER_SAFE_FIELDS` -/
def sellerSafeFields : List String :=
  ["category_id", "intent", "desired_outcome", "team", "data_profile", "hard_requirements",
    "preferences", "allowed_stack_context", "seller_questions"]

/-- What `create_case` builds from a requirement brief before it stores anything. -/
structure Release (rt : Runtime) where
  manifest : ReleaseManifest
  envelope : ExchangeEnvelope
  command : PartyCommand rt

def briefOf (request : CreateCase) : Exchanged RequirementBrief :=
  match request.requirement with
  | some requirement => .ok requirement
  | none => .error (.api "REQUIREMENT_BRIEF_MISSING"
      "Create and approve a Requirement Brief before contacting a seller." 409)

/-- The time until which a brief may be shared. -/
def ExchangeService.sharingExpiry (s : ExchangeService) (requirement : RequirementBrief)
    (now : Datetime) : Exchanged Datetime := do
  let rawExpiry ← match requirement.payload.lookup "expires_at" with
    | some (.atom (.str text)) => pure text
    | _ => throw (.api "REQUIREMENT_BRIEF_EXPIRY_MISSING"
        "The Requirement Brief has no valid sharing expiry." 409)
  let expiresAt ← match s.fromIsoformat rawExpiry with
    | some time => pure time
    | none => throw (.validation "Invalid isoformat string")
  ensure expiresAt.aware "can't compare offset-naive and offset-aware datetimes"
  if expiresAt.micros ≤ (Datetime.plus now 1).micros then
    throw (.api "REQUIREMENT_BRIEF_EXPIRED"
      "Refresh the Requirement Brief before sharing it with a seller." 409)
  return expiresAt

/-- The disclosure of a brief. Its approval binds the manifest's own approval payload. -/
def ExchangeService.release (s : ExchangeService) (request : CreateCase) (caseId : String)
    (now : Datetime) : Exchanged (Release s.rt × Datetime) := do
  let requirement ← briefOf request
  let expiresAt ← s.sharingExpiry requirement now
  let source := sellerSafeFields.filterMap (fun field =>
    (requirement.payload.lookup field).map (fun value => (field, value)))
  if source.length ≠ sellerSafeFields.length then
    throw (.api "REQUIREMENT_BRIEF_INCOMPLETE"
      "The Requirement Brief is missing seller-safe decision fields." 409)
  let digits := if startsWith requirement.contentHash "sha256:" then
    requirement.contentHash.toList.drop 7 else requirement.contentHash.toList
  let draft : ReleaseManifestData := {
    manifestId := stableId s.rt "manifest" [caseId, requirement.contentHash]
    caseId := caseId
    owner := .buyer
    recipient := .seller
    purpose := "Evaluate fit and respond to the buyer's stated requirements."
    fields := sellerSafeFields
    transformations := []
    sourceVersions := [("reqbrief_" ++ String.ofList (digits.take 16), requirement.version)]
    expiresAt := expiresAt
    approvalId := stableId s.rt "releaseapproval" [caseId, request.actorId]
    approvedPayloadHash := "" }
  let approvedPayloadHash ← exchangeHash s.rt (.obj draft.approvalPayload)
  let manifest ← ReleaseManifest.new s.rt { draft with approvedPayloadHash := approvedPayloadHash }
  let released ← manifest.release s.rt s.lower s.repr source now
  let envelope ← ExchangeEnvelope.new s.rt {
    envelopeId := stableId s.rt "envelope" [caseId, manifest.manifestHash]
    caseId := caseId
    sender := .buyer
    recipient := .seller
    sequence := 1
    causationId := manifest.approvalId
    manifestHash := manifest.manifestHash
    payload := released
    expiresAt := Datetime.plus expiresAt (-1) }
  let command ← PartyCommand.new s.rt {
    id := stableId s.rt "command" [caseId, request.idempotencyKey]
    caseId := caseId
    party := .buyer
    actorId := request.actorId
    commandType := .releaseRequirement
    expectedVersion := 1
    idempotencyKey := request.idempotencyKey
    payload := [("manifest_hash", .str manifest.manifestHash),
      ("envelope_hash", .str envelope.payloadHash), ("requirement", .obj released)] }
  return (⟨manifest, envelope, command⟩, expiresAt)

/-- The id of the case that a request opens. -/
def ExchangeService.caseIdOf (s : ExchangeService) (request : CreateCase)
    (sellerOrganizationId : String) : String :=
  stableId s.rt "xcase" [request.organizationId, request.purchaseRequestId, sellerOrganizationId,
    request.idempotencyKey]

/-- What the first transaction of `create_case` returns: what it compiled, if it compiled
    anything, the expiry of the route and the projection of the buyer. -/
structure Opening where
  compiled : Option CompiledTransition
  expiresAt : Datetime
  buyerProjection : PartyProjection

/-- The first transaction of `create_case`. The projection that `publish_projection`
    returns has the content it was given. -/
def ExchangeService.createCaseTransaction (s : ExchangeService) (request : CreateCase)
    (sellerOrganizationId : String) (now : Datetime) (db : Db) : Exchanged (Opening × Db) := do
  let organizationId := request.organizationId
  let caseId := s.caseIdOf request sellerOrganizationId
  tenant organizationId
  let (existing, db) ← createCase s.rt organizationId caseId sellerOrganizationId db
  if 1 < existing.version then
    let buyerProjection ← latestProjection organizationId caseId .buyer db
    match (db.manifests.filter (fun m =>
        m.organizationId = organizationId ∧ m.caseId = caseId)).getLast? with
    | none => throw (.api "EXCHANGE_RELEASE_MISSING"
        "The exchange release authorization is unavailable." 409)
    | some storedManifest =>
      return (⟨none, storedManifest.expiresAt, buyerProjection.toPartyProjection⟩, db)
  else
    let (release, expiresAt) ← s.release request caseId now
    let (_, db) ← storeReleaseManifest organizationId release.manifest db
    let (_, db) ← storeEnvelope organizationId release.envelope db
    let (_, db) ← appendCommand s.rt organizationId release.command.toPartyCommandData db
    let (compiled, db) ← applyAndPublish s.rt organizationId existing release.command
      organizationId db
    return (⟨some compiled, expiresAt, compiled.buyerProjection⟩, db)

/-- The route of a case, as its opening returns it. -/
def ExchangeService.routeOf (s : ExchangeService) (request : CreateCase)
    (binding : SellerPrincipalBinding) (expiresAt : Datetime) : ExchangeRoute where
  caseId := s.caseIdOf request binding.sellerOrganizationId
  candidateId := request.candidateId
  productId := binding.productId
  merchantName := binding.merchantName
  merchantUrl := binding.merchantUrl
  buyerOrganizationId := request.organizationId
  sellerOrganizationId := binding.sellerOrganizationId
  developmentGuestOrganizationId :=
    if s.allowDevelopmentGuestBridge && request.guestIdentity &&
        startsWith request.organizationId "org_guest_" then some request.organizationId
    else none
  expiresAt := expiresAt

/-! ## Evidence -/

/-- The hash of the spans that are published, in the order of their ids. -/
def ExchangeService.evidenceHash (s : ExchangeService) (spans : List EvidenceSpan) :
    Exchanged String :=
  exchangeHash s.rt (.seq ((Sorting.sortedBy (·.id) spans).map (fun span =>
    .obj [("span_id", .str span.id), ("source_version_id", .str span.sourceVersionId),
      ("content_hash", .str span.contentHash)])))

def ExchangeService.evidenceCommand (s : ExchangeService) (caller : Commanding) (summary : String)
    (publishedSpanIds : List String) (spans : List EvidenceSpan) :
    Exchanged (PartyCommand s.rt) := do
  if spans.isEmpty ∨ (publishedSpanIds ≠ [] ∧ spans.length ≠ publishedSpanIds.dedup.length) then
    throw (.api "PUBLISHED_EVIDENCE_REQUIRED"
      "Every cited span must be published and buyer-safe." 409)
  let evidenceHash ← s.evidenceHash spans
  PartyCommand.new s.rt {
    id := stableId s.rt "command" [caller.caseId, caller.idempotencyKey]
    caseId := caller.caseId
    party := .seller
    actorId := caller.actorId
    commandType := .publishEvidence
    expectedVersion := caller.expectedVersion
    idempotencyKey := caller.idempotencyKey
    payload := [("evidence_hash", .str evidenceHash), ("summary", .str summary),
      ("published_span_ids", .strs publishedSpanIds)] }

/-! ## Transactions in the buyer's tenant -/

/-- What a command does in the buyer's tenant. The approval carries the time at which its
    operation read the clock. -/
inductive Work (rt : Runtime)
  | evidence (command : PartyCommand rt)
  | proposal (proposal : Proposal)
  | acceptance (offerHash : String)
  | approval (offerHash : String) (approvalExpiresAt approvedAt : Datetime)

/-- `str(fields.get(name, ""))`. The text of a value that is not a string is no hash
    either. -/
def hashField (fields : Option Fields) (name : String) : String :=
  match (fields.getD []).lookup name with
  | some (.atom (.str text)) => text
  | _ => ""

/-- The command that proposes in a state, with the version and the predecessor of its
    offer. -/
def proposalStep (state : ExchangeState) (party : ExchangeParty)
    (latest : Option BilateralOfferVersion) : Exchanged (CommandType × Nat × Option String) :=
  match state, party, latest with
  | .evidenceReleased, .buyer, _ => .ok (.proposeOffer, 1, none)
  | .offered, .seller, none => .error (.persistenceConflict "the current offer is unavailable")
  | .offered, .seller, some record =>
    .ok (.counterOffer, record.terms.version + 1, some record.terms.offerHash)
  | _, _, _ => .error (.persistenceConflict "this party cannot propose at the current stage")

/-- The offer that a proposal makes in a state. -/
def ExchangeService.buildOffer (s : ExchangeService) (caseId : String) (party : ExchangeParty)
    (proposal : Proposal) (state : CoordinatorState) (latest : Option BilateralOfferVersion) :
    Exchanged (CommandType × OfferVersion) := do
  let (commandType, version, predecessorHash) ← proposalStep state.state party latest
  let offer ← OfferVersion.new s.rt {
    offerId := stableId s.rt "offer" [caseId]
    caseId := caseId
    version := version
    proposer := party
    recipient := if party = .buyer then .seller else .buyer
    predecessorHash := predecessorHash
    changedTerms := proposal.changedTerms
    rationale := proposal.rationale
    currency := proposal.currency
    lines := proposal.lines
    total := proposal.total
    expiresAt := proposal.expiresAt
    requirementHash := hashField state.requirement "envelope_hash"
    evidenceHash := hashField state.evidence "evidence_hash" }
  return (commandType, offer)

/-- The command of a call, of a type and with a payload. -/
def ExchangeService.commandOf (s : ExchangeService) (caller : Commanding) (party : ExchangeParty)
    (commandType : CommandType) (payload : Fields) : Exchanged (PartyCommand s.rt) :=
  PartyCommand.new s.rt {
    id := stableId s.rt "command" [caller.caseId, caller.idempotencyKey]
    caseId := caller.caseId
    party := party
    actorId := caller.actorId
    commandType := commandType
    expectedVersion := caller.expectedVersion
    idempotencyKey := caller.idempotencyKey
    payload := payload }

section Transactions

variable (s : ExchangeService) (caller : Commanding) (route : ExchangeRoute) (party : ExchangeParty)

def ExchangeService.evidenceTransaction (command : PartyCommand s.rt) (db : Db) :
    Exchanged (CompiledTransition × Db) := do
  tenant route.buyerOrganizationId
  let exchange ← getCase route.buyerOrganizationId caller.caseId db
  applyAndPublish s.rt route.buyerOrganizationId exchange command route.sellerOrganizationId db

def ExchangeService.proposeTransaction (proposal : Proposal) (db : Db) :
    Exchanged (CompiledTransition × Db) := do
  tenant route.buyerOrganizationId
  let exchange ← getCase route.buyerOrganizationId caller.caseId db
  let latest := db.latestOffer route.buyerOrganizationId caller.caseId
  let (commandType, offer) ←
    s.buildOffer caller.caseId party proposal exchange.coordinatorState latest
  let command ← s.commandOf caller party commandType offer.toJson
  let (_, db) ← storeOffer route.buyerOrganizationId offer db
  let (_, db) ← appendCommand s.rt route.buyerOrganizationId command.toPartyCommandData db
  applyAndPublish s.rt route.buyerOrganizationId exchange command (partyOrganization route party) db

/-- The latest offer of the case, if it has the hash. -/
def currentOffer (offerHash : String) (db : Db) : Exchanged OfferVersion :=
  match db.latestOffer route.buyerOrganizationId caller.caseId with
  | some record =>
    if record.terms.offerHash ≠ offerHash then
      .error (.persistenceConflict "the accepted offer is not current")
    else .ok record.terms
  | none => .error (.persistenceConflict "the accepted offer is not current")

def ExchangeService.acceptTransaction (offerHash : String) (now : Datetime) (db : Db) :
    Exchanged (CompiledTransition × Db) := do
  tenant route.buyerOrganizationId
  let exchange ← getCase route.buyerOrganizationId caller.caseId db
  let offer ← currentOffer caller route offerHash db
  offer.assertActionable party now
  let commandType : CommandType :=
    if exchange.coordinatorState.state = .offered then .acceptOffer else .acceptCounter
  let command ← s.commandOf caller party commandType [("offer_hash", .str offerHash)]
  let (_, db) ← appendCommand s.rt route.buyerOrganizationId command.toPartyCommandData db
  applyAndPublish s.rt route.buyerOrganizationId exchange command (partyOrganization route party) db

/-- The approval that a call asks for. -/
def ExchangeService.approvalOf (offerHash : String) (approvalExpiresAt approvedAt : Datetime) :
    OfferApproval where
  approvalId := stableId s.rt "offerapproval" [caller.caseId, caller.idempotencyKey]
  caseId := caller.caseId
  offerHash := offerHash
  approverId := caller.actorId
  approvedAt := approvedAt
  expiresAt := approvalExpiresAt

def ExchangeService.approveTransaction (offerHash : String)
    (approvalExpiresAt approvedAt : Datetime) (db : Db) : Exchanged (CompiledTransition × Db) := do
  tenant route.buyerOrganizationId
  let exchange ← getCase route.buyerOrganizationId caller.caseId db
  let approval := s.approvalOf caller offerHash approvalExpiresAt approvedAt
  approval.validate
  let (_, db) ← approveOffer s.rt route.buyerOrganizationId approval approvedAt db
  let approvalHash ← exchangeHash s.rt (.obj approval.toJson)
  let command ← s.commandOf caller .system .approveHandoff [("offer_hash", .str offerHash),
    ("approval_id", .str approval.approvalId), ("approval_hash", .str approvalHash)]
  let (_, db) ← appendCommand s.rt route.buyerOrganizationId command.toPartyCommandData db
  applyAndPublish s.rt route.buyerOrganizationId exchange command caller.organizationId db

def ExchangeService.transaction (work : Work s.rt) (now : Datetime) (db : Db) :
    Exchanged (CompiledTransition × Db) :=
  match work with
  | .evidence command => s.evidenceTransaction caller route command db
  | .proposal proposal => s.proposeTransaction caller route party proposal db
  | .acceptance offerHash => s.acceptTransaction caller route party offerHash now db
  | .approval offerHash approvalExpiresAt approvedAt =>
    s.approveTransaction caller route offerHash approvalExpiresAt approvedAt db

end Transactions

/-! ## Handoffs -/

def ExchangeService.createHandoffTransaction (s : ExchangeService) (caller : Caller)
    (route : ExchangeRoute) (expectedVersion : Nat) (offerHash : String) (now : Datetime)
    (db : Db) : Exchanged (BilateralExchangeHandoff × Db) := do
  tenant route.buyerOrganizationId
  let exchange ← getCase route.buyerOrganizationId caller.caseId db
  if exchange.version ≠ expectedVersion ∨ exchange.state ≠ .approvedForHandoff then
    throw (.persistenceConflict "exchange is not approved at the expected version")
  let offerRecord := (db.offersOf route.buyerOrganizationId caller.caseId).find? (fun o =>
    o.terms.offerHash = offerHash)
  let approvalRecord := db.approvals.find? (fun a =>
    a.organizationId = route.buyerOrganizationId ∧ a.caseId = caller.caseId ∧
      a.offerHash = offerHash)
  match offerRecord, approvalRecord with
  | some offer, some approval =>
    if offer.approvalStatus ≠ .approved then
      throw (.persistenceConflict "the exact offer has no current approval")
    let micros := min (min (Datetime.plus now (15 * 60)).micros offer.terms.expiresAt.micros)
      approval.expiresAt.micros
    let handoff ← ExchangePaymentHandoff.new s.rt s.https {
      handoffId := stableId s.rt "xhandoff" [caller.caseId, offerHash]
      caseId := caller.caseId
      offerHash := offerHash
      approvalHash := approval.approvalHash
      destinationUrl := route.merchantUrl
      recipient := route.merchantName
      amount := offer.terms.total
      currency := offer.terms.currency
      reference := "SIRA-" ++ caller.caseId
      createdAt := now
      expiresAt := ⟨micros, true⟩ }
    storeHandoff route.buyerOrganizationId handoff db
  | _, _ => throw (.persistenceConflict "the exact offer has no current approval")

def ExchangeService.openHandoffTransaction (s : ExchangeService) (caller : Caller)
    (route : ExchangeRoute) (handoffId handoffHash : String) (now : Datetime) (db : Db) :
    Exchanged (BilateralExchangeHandoff × Db) := do
  tenant route.buyerOrganizationId
  let (record, db) ← openHandoff s.rt route.buyerOrganizationId s.https handoffId handoffHash now db
  if record.caseId ≠ caller.caseId then
    throw (.persistenceConflict "handoff belongs to another exchange")
  return (record, db)

/-! ## Calls -/

/-- What an operation returns. -/
inductive Reply
  | opened (route : ExchangeRoute) (projection : PartyProjection)
  | projection (shown : PartyProjection)
  | handoff (record : BilateralExchangeHandoff)

/-- What a call does once the seller's projection is published. -/
inductive Ending
  | issue (route : ExchangeRoute) (projection : PartyProjection)
  | show (projection : PartyProjection)

/-- What a call has still to do. -/
inductive Stage (rt : Runtime)
  | createCase (request : CreateCase) (binding : SellerPrincipalBinding) (now : Datetime)
  | view (route : ExchangeRoute) (party : ExchangeParty)
  | read (route : ExchangeRoute) (party : ExchangeParty)
  | replay (caller : Commanding) (route : ExchangeRoute) (party : ExchangeParty) (work : Work rt)
  | append (caller : Commanding) (route : ExchangeRoute) (party : ExchangeParty)
      (command : PartyCommand rt)
  | work (caller : Commanding) (route : ExchangeRoute) (party : ExchangeParty) (work : Work rt)
  | publish (organizationId : String) (shown : PartyProjection) (ending : Ending)
  | createHandoff (caller : Caller) (route : ExchangeRoute) (expectedVersion : Nat)
      (offerHash : String) (now : Datetime)
  | openHandoff (caller : Caller) (route : ExchangeRoute) (handoffId handoffHash : String)
  | returned (reply : Reply)
  | raised (error : ExchangeError)

namespace ExchangeService

variable (s : ExchangeService)

/-- A stage, or the error that ends the call. -/
def stageOf {rt : Runtime} : Exchanged (Stage rt) → Stage rt
  | .ok stage => stage
  | .error error => .raised error

/-- The checks of `create_case` before its first transaction. -/
def startCreateCase (request : CreateCase) (now : Datetime) : Exchanged (Stage s.rt) := do
  if request.party ≠ some .buyer then
    throw (.api "BUYER_IDENTITY_REQUIRED" "Only the buyer may release a Requirement Brief." 403)
  match s.sellerDirectory request.candidateId with
  | none => throw (.api "SELLER_ORGANIZATION_BINDING_REQUIRED"
      "The selected product has no verified seller organization." 409)
  | some binding =>
    if binding.sellerOrganizationId = request.organizationId then
      throw (.api "DISTINCT_SELLER_REQUIRED"
        "The seller must belong to a different organization." 409)
    return .createCase request binding now

/-- The checks of an operation before its first transaction in the buyer's tenant. -/
def startRequest (issued : List ExchangeRoute) (now : Datetime) :
    Request → Exchanged (Stage s.rt)
  | .createCase request => s.startCreateCase request now
  | .viewCase caller => do
    let (route, party) ← s.decodeRoute issued caller now
    return .read route party
  | .publishEvidence caller summary publishedSpanIds spans => do
    let (route, party) ← s.decodeRoute issued caller.toCaller now
    if party ≠ .seller then
      throw (.api "SELLER_IDENTITY_REQUIRED"
        "Only the seller may publish evidence into this exchange." 403)
    tenant route.sellerOrganizationId
    let command ← s.evidenceCommand caller summary publishedSpanIds spans
    return .replay caller route party (.evidence command)
  | .proposeOffer caller proposal => do
    let (route, party) ← s.decodeRoute issued caller.toCaller now
    return .replay caller route party (.proposal proposal)
  | .acceptOffer caller offerHash => do
    let (route, party) ← s.decodeRoute issued caller.toCaller now
    return .replay caller route party (.acceptance offerHash)
  | .approveOffer caller offerHash approvalExpiresAt => do
    let (route, party) ← s.decodeRoute issued caller.toCaller now
    if party ≠ .buyer then
      throw (.api "BUYER_APPROVAL_REQUIRED"
        "Only an authorized buyer may approve exact commercial terms." 403)
    return .replay caller route party (.approval offerHash approvalExpiresAt now)
  | .createHandoff caller expectedVersion offerHash => do
    let (route, party) ← s.decodeRoute issued caller now
    if party ≠ .buyer then
      throw (.api "BUYER_HANDOFF_REQUIRED"
        "Only an authorized buyer may prepare the external handoff." 403)
    return .createHandoff caller route expectedVersion offerHash now
  | .openHandoff caller handoffId handoffHash => do
    let (route, party) ← s.decodeRoute issued caller now
    if party ≠ .buyer then
      throw (.api "BUYER_HANDOFF_REQUIRED"
        "Only an authorized buyer may open the external handoff." 403)
    return .openHandoff caller route handoffId handoffHash

/-- The end of a call after its transactions. A route is validated before it is
    encrypted. -/
def finish (ending : Ending) (issued : List ExchangeRoute) : Stage s.rt × List ExchangeRoute :=
  match ending with
  | .show projection => (.returned (.projection projection), issued)
  | .issue route projection =>
    match route.validate with
    | .ok () => (.returned (.opened route projection), issued ++ [route])
    | .error error => (.raised error, issued)

/-- A call with the tables of its last transaction, then the end of the call. -/
def finishWith (ending : Ending) (store : Store) (db : Db) : Stage s.rt × Store :=
  let (stage, issued) := s.finish ending store.issued
  (stage, ⟨db, issued⟩)

/-- The id of the command that a call issues. -/
def commandIdOf (caller : Commanding) : String :=
  stableId s.rt "command" [caller.caseId, caller.idempotencyKey]

/-- The seller's tenant takes a projection. -/
def publishTransaction (organizationId : String) (shown : PartyProjection) (db : Db) :
    Exchanged (BilateralPartyProjection × Db) := do
  tenant organizationId
  publishProjection organizationId shown db

/-- The projection of a party, in its own tenant. -/
def readProjection (route : ExchangeRoute) (party : ExchangeParty) (db : Db) :
    Exchanged BilateralPartyProjection := do
  tenant (partyOrganization route party)
  latestProjection (partyOrganization route party) route.caseId party db

/-- `_replayed_projection`, up to the view that it returns. -/
def replayed (caller : Commanding) (route : ExchangeRoute) (db : Db) : Exchanged Bool := do
  tenant route.buyerOrganizationId
  return (db.transitionsOf route.buyerOrganizationId route.caseId).any (fun t =>
    t.commandId = s.commandIdOf caller)

/-- The projection that an operation returns to the party that called it. -/
def selected (work : Work s.rt) (party : ExchangeParty) (compiled : CompiledTransition) :
    PartyProjection :=
  match work with
  | .evidence _ => compiled.sellerProjection
  | .approval .. => compiled.buyerProjection
  | _ => if party = .buyer then compiled.buyerProjection else compiled.sellerProjection

/-- One step of a call at a time: its next transaction commits or raises. -/
def next (stage : Stage s.rt) (time : Int) (store : Store) : Stage s.rt × Store :=
  let now : Datetime := ⟨time, true⟩
  match stage with
  | .createCase request binding startedAt =>
    match s.createCaseTransaction request binding.sellerOrganizationId startedAt store.db with
    | .error error => (.raised error, store)
    | .ok (opening, db) =>
      let ending := .issue (s.routeOf request binding opening.expiresAt) opening.buyerProjection
      match opening.compiled with
      | some compiled =>
        (.publish binding.sellerOrganizationId compiled.sellerProjection ending, { store with db })
      | none => s.finishWith ending store db
  | .view route party =>
    -- `view_case` decodes the route again, for the organization of the party.
    match s.decodeRoute store.issued ⟨partyOrganization route party, "", some party, route.caseId,
        route, false⟩ now with
    | .error error => (.raised error, store)
    | .ok _ => (.read route party, store)
  | .read route party =>
    match readProjection route party store.db with
    | .error error => (.raised error, store)
    | .ok record => (.returned (.projection record.toPartyProjection), store)
  | .replay caller route party work =>
    match s.replayed caller route store.db, work with
    | .error error, _ => (.raised error, store)
    | .ok true, _ => (.view route party, store)
    | .ok false, .evidence command => (.append caller route party command, store)
    | .ok false, work => (.work caller route party work, store)
  | .append caller route party command =>
    match (tenant route.sellerOrganizationId >>= fun _ =>
        appendCommand s.rt route.sellerOrganizationId command.toPartyCommandData store.db) with
    | .error error => (.raised error, store)
    | .ok (_, db) => (.work caller route party (.evidence command), { store with db })
  | .work caller route party work =>
    match s.transaction caller route party work now store.db with
    | .error error => (.raised (apiConflict error), store)
    | .ok (compiled, db) =>
      (.publish route.sellerOrganizationId compiled.sellerProjection
        (.show (s.selected work party compiled)), { store with db })
  | .publish organizationId shown ending =>
    match publishTransaction organizationId shown store.db with
    | .error error => (.raised error, store)
    | .ok (_, db) => s.finishWith ending store db
  | .createHandoff caller route expectedVersion offerHash startedAt =>
    match s.createHandoffTransaction caller route expectedVersion offerHash startedAt store.db with
    | .error error => (.raised (apiConflict error), store)
    | .ok (record, db) => (.returned (.handoff record), { store with db })
  | .openHandoff caller route handoffId handoffHash =>
    match s.openHandoffTransaction caller route handoffId handoffHash now store.db with
    | .error error => (.raised (apiConflict error), store)
    | .ok (record, db) => (.returned (.handoff record), { store with db })
  | .returned reply => (.returned reply, store)
  | .raised error => (.raised error, store)

/-- Every call of the service, at the readings of the clock that its events carry. -/
def system : System Store (Stage s.rt) Request Int where
  start request time store := stageOf (s.startRequest store.issued ⟨time, true⟩ request)
  next := s.next

end ExchangeService

/-! ## What the transactions leave -/

section Specs

variable {s : ExchangeService} {caller : Commanding} {route : ExchangeRoute}
  {party : ExchangeParty} {db db' : Db} {compiled : CompiledTransition} {now : Datetime}

/-- A transaction applies a command to the case of its route, over tables that it has
    prepared. -/
structure Applies (s : ExchangeService) (route : ExchangeRoute) (caseId : String)
    (exchange : BilateralExchangeCase) (command : PartyCommand s.rt) (db prepared : Db)
    (compiled : CompiledTransition) (db' : Db) : Prop where
  mem : exchange ∈ db.cases
  organization : exchange.organizationId = route.buyerOrganizationId
  id : exchange.id = caseId
  applies : ∃ commandOrganizationId, applyAndPublish s.rt exchange.organizationId exchange command
    commandOrganizationId prepared = .ok (compiled, db')

variable {command : PartyCommand s.rt} {offerHash : String}

theorem evidenceCommand_eq_ok {summary : String} {publishedSpanIds : List String}
    {spans : List EvidenceSpan}
    (h : s.evidenceCommand caller summary publishedSpanIds spans = .ok command) :
    command.party = .seller ∧ command.commandType = .publishEvidence ∧
      ∃ evidenceHash, command.payload = [("evidence_hash", .str evidenceHash),
        ("summary", .str summary), ("published_span_ids", .strs publishedSpanIds)] := by
  unfold ExchangeService.evidenceCommand at h
  dsimp only at h
  split at h
  · cases h
  · obtain ⟨evidenceHash, -, h⟩ := bind_eq_ok.mp h
    have hdata := PartyCommand.new_eq_ok h
    rw [hdata]
    exact ⟨rfl, rfl, evidenceHash, rfl⟩

theorem evidenceTransaction_eq_ok
    (h : s.evidenceTransaction caller route command db = .ok (compiled, db')) :
    ∃ exchange, Applies s route caller.caseId exchange command db db compiled db' := by
  unfold ExchangeService.evidenceTransaction at h
  obtain ⟨-, -, h⟩ := bind_eq_ok.mp h
  obtain ⟨exchange, hget, h⟩ := bind_eq_ok.mp h
  obtain ⟨hmem, horg, hid⟩ := getCase_eq_ok hget
  exact ⟨exchange, hmem, horg, hid, _, horg ▸ h⟩

theorem proposalStep_eq_ok {state : ExchangeState} {latest : Option BilateralOfferVersion}
    {commandType : CommandType} {version : Nat} {predecessorHash : Option String}
    (h : proposalStep state party latest = .ok (commandType, version, predecessorHash)) :
    (state = .evidenceReleased ∧ party = .buyer ∧ commandType = .proposeOffer ∧ version = 1 ∧
        predecessorHash = none) ∨
      ∃ record, state = .offered ∧ party = .seller ∧ latest = some record ∧
        commandType = .counterOffer ∧ version = record.terms.version + 1 ∧
        predecessorHash = some record.terms.offerHash := by
  unfold proposalStep at h
  split at h
  · cases h
    exact .inl ⟨rfl, rfl, rfl, rfl, rfl⟩
  · cases h
  · next record =>
    cases h
    exact .inr ⟨record, rfl, rfl, rfl, rfl, rfl, rfl⟩
  · cases h

theorem buildOffer_eq_ok {caseId : String} {proposal : Proposal} {state : CoordinatorState}
    {latest : Option BilateralOfferVersion} {commandType : CommandType} {offer : OfferVersion}
    (h : s.buildOffer caseId party proposal state latest = .ok (commandType, offer)) :
    proposalStep state.state party latest =
        .ok (commandType, offer.version, offer.predecessorHash) ∧
      offer.caseId = caseId ∧ offer.proposer = party ∧
      offer.recipient = (if party = .buyer then .seller else .buyer) ∧
      offer.approvalStatus = .pending := by
  unfold ExchangeService.buildOffer at h
  obtain ⟨⟨type, version, predecessorHash⟩, hstep, h⟩ := bind_eq_ok.mp h
  obtain ⟨built, hbuilt, h⟩ := bind_eq_ok.mp h
  cases h
  have hdata := (OfferVersion.new_eq_ok hbuilt).1
  refine ⟨?_, ?_, ?_, ?_, ?_⟩
  · rw [hdata]
    exact hstep
  · rw [hdata]
  · rw [hdata]
  · rw [hdata]
  · rw [hdata]

theorem commandOf_eq_ok {commandType : CommandType} {payload : Fields}
    (h : s.commandOf caller party commandType payload = .ok command) :
    command.commandType = commandType ∧ command.payload = payload ∧ command.party = party := by
  have hdata := PartyCommand.new_eq_ok h
  refine ⟨?_, ?_, ?_⟩
  · rw [hdata]
  · rw [hdata]
  · rw [hdata]

theorem proposeTransaction_eq_ok {proposal : Proposal}
    (h : s.proposeTransaction caller route party proposal db = .ok (compiled, db')) :
    ∃ exchange command commandType offer record stored appended prepared,
      Applies s route caller.caseId exchange command db prepared compiled db' ∧
      s.buildOffer caller.caseId party proposal exchange.coordinatorState
        (db.latestOffer route.buyerOrganizationId caller.caseId) = .ok (commandType, offer) ∧
      s.commandOf caller party commandType offer.toJson = .ok command ∧
      storeOffer route.buyerOrganizationId offer db = .ok (record, stored) ∧
      appendCommand s.rt route.buyerOrganizationId command.toPartyCommandData stored =
        .ok (appended, prepared) := by
  unfold ExchangeService.proposeTransaction at h
  obtain ⟨-, -, h⟩ := bind_eq_ok.mp h
  obtain ⟨exchange, hget, h⟩ := bind_eq_ok.mp h
  obtain ⟨⟨commandType, offer⟩, hbuild, h⟩ := bind_eq_ok.mp h
  obtain ⟨command, hcommand, h⟩ := bind_eq_ok.mp h
  obtain ⟨⟨record, stored⟩, hstore, h⟩ := bind_eq_ok.mp h
  obtain ⟨⟨appended, prepared⟩, happend, h⟩ := bind_eq_ok.mp h
  obtain ⟨hmem, horg, hid⟩ := getCase_eq_ok hget
  exact ⟨exchange, command, commandType, offer, record, stored, appended, prepared,
    ⟨hmem, horg, hid, _, horg ▸ h⟩, hbuild, hcommand, hstore, happend⟩

theorem currentOffer_eq_ok {offer : OfferVersion}
    (h : currentOffer caller route offerHash db = .ok offer) :
    ∃ latest, db.latestOffer route.buyerOrganizationId caller.caseId = some latest ∧
      latest.terms.offerHash = offerHash ∧ latest.terms = offer := by
  unfold currentOffer at h
  split at h
  · next latest hlatest =>
    split at h
    · cases h
    · next hhash =>
      cases h
      exact ⟨latest, hlatest, not_not.mp hhash, rfl⟩
  · cases h

theorem acceptTransaction_eq_ok
    (h : s.acceptTransaction caller route party offerHash now db = .ok (compiled, db')) :
    ∃ exchange command latest appended prepared,
      Applies s route caller.caseId exchange command db prepared compiled db' ∧
      db.latestOffer route.buyerOrganizationId caller.caseId = some latest ∧
      latest.terms.offerHash = offerHash ∧ party = latest.terms.recipient ∧
      s.commandOf caller party
        (if exchange.coordinatorState.state = .offered then .acceptOffer else .acceptCounter)
        [("offer_hash", .str offerHash)] = .ok command ∧
      appendCommand s.rt route.buyerOrganizationId command.toPartyCommandData db =
        .ok (appended, prepared) := by
  unfold ExchangeService.acceptTransaction at h
  obtain ⟨-, -, h⟩ := bind_eq_ok.mp h
  obtain ⟨exchange, hget, h⟩ := bind_eq_ok.mp h
  obtain ⟨offer, hoffer, h⟩ := bind_eq_ok.mp h
  obtain ⟨⟨⟩, hactionable, h⟩ := bind_eq_ok.mp h
  obtain ⟨command, hcommand, h⟩ := bind_eq_ok.mp h
  obtain ⟨⟨appended, prepared⟩, happend, h⟩ := bind_eq_ok.mp h
  obtain ⟨hmem, horg, hid⟩ := getCase_eq_ok hget
  obtain ⟨latest, hlatest, hhash, hterms⟩ := currentOffer_eq_ok hoffer
  have hparty : party = latest.terms.recipient :=
    hterms ▸ OfferVersion.assertActionable_eq_ok hactionable
  exact ⟨exchange, command, latest, appended, prepared, ⟨hmem, horg, hid, _, horg ▸ h⟩, hlatest,
    hhash, hparty, hcommand, happend⟩

theorem approveTransaction_eq_ok {approvalExpiresAt approvedAt : Datetime}
    (h : s.approveTransaction caller route offerHash approvalExpiresAt approvedAt db =
      .ok (compiled, db')) :
    ∃ exchange command approvalHash record approved appended prepared,
      Applies s route caller.caseId exchange command db prepared compiled db' ∧
      approveOffer s.rt route.buyerOrganizationId
        (s.approvalOf caller offerHash approvalExpiresAt approvedAt) approvedAt db =
        .ok (record, approved) ∧
      exchangeHash s.rt
        (.obj (s.approvalOf caller offerHash approvalExpiresAt approvedAt).toJson) =
        .ok approvalHash ∧
      s.commandOf caller .system .approveHandoff [("offer_hash", .str offerHash),
        ("approval_id", .str (s.approvalOf caller offerHash approvalExpiresAt
          approvedAt).approvalId), ("approval_hash", .str approvalHash)] = .ok command ∧
      appendCommand s.rt route.buyerOrganizationId command.toPartyCommandData approved =
        .ok (appended, prepared) := by
  unfold ExchangeService.approveTransaction at h
  obtain ⟨-, -, h⟩ := bind_eq_ok.mp h
  obtain ⟨exchange, hget, h⟩ := bind_eq_ok.mp h
  dsimp only at h
  obtain ⟨⟨⟩, -, h⟩ := bind_eq_ok.mp h
  obtain ⟨⟨record, approved⟩, happrove, h⟩ := bind_eq_ok.mp h
  obtain ⟨approvalHash, hhash, h⟩ := bind_eq_ok.mp h
  obtain ⟨command, hcommand, h⟩ := bind_eq_ok.mp h
  obtain ⟨⟨appended, prepared⟩, happend, h⟩ := bind_eq_ok.mp h
  obtain ⟨hmem, horg, hid⟩ := getCase_eq_ok hget
  exact ⟨exchange, command, approvalHash, record, approved, appended, prepared,
    ⟨hmem, horg, hid, _, horg ▸ h⟩, happrove, hhash, hcommand, happend⟩

theorem release_eq_ok {request : CreateCase} {caseId : String} {release : Release s.rt}
    {expiresAt : Datetime} (h : s.release request caseId now = .ok (release, expiresAt)) :
    release.command.commandType = .releaseRequirement := by
  unfold ExchangeService.release at h
  obtain ⟨requirement, -, h⟩ := bind_eq_ok.mp h
  obtain ⟨sharing, -, h⟩ := bind_eq_ok.mp h
  dsimp only at h
  split at h
  · cases h
  · obtain ⟨approvedPayloadHash, -, h⟩ := bind_eq_ok.mp h
    obtain ⟨manifest, -, h⟩ := bind_eq_ok.mp h
    obtain ⟨released, -, h⟩ := bind_eq_ok.mp h
    obtain ⟨envelope, -, h⟩ := bind_eq_ok.mp h
    obtain ⟨command, hcommand, h⟩ := bind_eq_ok.mp h
    cases h
    exact congrArg PartyCommandData.commandType (PartyCommand.new_eq_ok hcommand)

theorem createCaseTransaction_eq_ok {request : CreateCase} {sellerOrganizationId : String}
    {opening : Opening}
    (h : s.createCaseTransaction request sellerOrganizationId now db = .ok (opening, db')) :
    ∃ existing created, createCase s.rt request.organizationId
        (s.caseIdOf request sellerOrganizationId) sellerOrganizationId db =
          .ok (existing, created) ∧
      ((1 < existing.version ∧ opening.compiled = none ∧ db' = created) ∨
        (¬ 1 < existing.version ∧ ∃ command compiled prepared commandOrganizationId,
          opening.compiled = some compiled ∧
          command.commandType = .releaseRequirement ∧
          prepared = { created with
            manifests := prepared.manifests
            envelopes := prepared.envelopes
            commands := prepared.commands } ∧
          applyAndPublish s.rt request.organizationId existing command commandOrganizationId
            prepared = .ok (compiled, db'))) := by
  unfold ExchangeService.createCaseTransaction at h
  dsimp only at h
  obtain ⟨-, -, h⟩ := bind_eq_ok.mp h
  obtain ⟨⟨existing, created⟩, hcreate, h⟩ := bind_eq_ok.mp h
  refine ⟨existing, created, hcreate, ?_⟩
  dsimp only at h
  split at h
  · next hversion =>
    obtain ⟨buyerProjection, -, h⟩ := bind_eq_ok.mp h
    split at h
    · cases h
    · cases h
      exact .inl ⟨hversion, rfl, rfl⟩
  · next hversion =>
    obtain ⟨⟨release, expiresAt⟩, hrelease, h⟩ := bind_eq_ok.mp h
    obtain ⟨⟨manifest, withManifest⟩, hmanifest, h⟩ := bind_eq_ok.mp h
    obtain ⟨⟨envelope, withEnvelope⟩, henvelope, h⟩ := bind_eq_ok.mp h
    obtain ⟨⟨appended, prepared⟩, happend, h⟩ := bind_eq_ok.mp h
    obtain ⟨⟨compiled, applied⟩, happly, h⟩ := bind_eq_ok.mp h
    cases h
    refine .inr ⟨hversion, release.command, compiled, prepared, _, rfl, release_eq_ok hrelease, ?_,
      happly⟩
    rw [appendCommand_frame happend, storeEnvelope_frame henvelope,
      storeReleaseManifest_frame hmanifest]

end Specs

end SiraApi
