-- SUMMARY: The approval of a locked intent in its frozen stages, payment handoffs, and runs of all purchase transactions.
import SiraSeil.Library.Transactions
import SiraSeil.SiraApi.DecisionService

/-!
# Approvals and payment handoffs

The second half of the purchase operations of `services/api/sira_api/service.py`: an approval
request over an intent, its stages, its end, and the handoff to a human payment step. A request
or an intent whose time is over is marked expired in a transaction that commits before the
problem is raised. The last section runs the transactions of all purchase operations.
-/

namespace SiraApi

open Domain Persistence

section Approvals

variable (s : WorkflowService) (organizationId actorId : String)

/-! ## Requesting an approval -/

/-- The required roles of `approval_requirements` -/
def requiredRoles (requirements : List Value) : List String :=
  requirements.filterMap (fun requirement => do
    let fields ← fieldsOf (some requirement)
    match fields.lookup "required" with
    | some (.atom (.bool true)) => textOf (fields.lookup "role")
    | _ => none)

/-- `_approval_view` -/
def approvalView (approval : ApprovalRequest) : List (String × Value) :=
  [("id", .str approval.id), ("purchase_intent_id", .str approval.purchaseIntentId),
    ("intent_hash", .str approval.intentHash), ("status", .str approval.status.value),
    ("required_roles", .strs approval.requiredRoles),
    ("approved_roles", .strs approval.approvedRoles), ("expires_at", instant approval.expiresAt)]

/-- The roles that the brief of a decision requires for an approval -/
def approvalRoles (decision : DecisionRecord) (db : PurchaseDb) : Qualified (List String) := do
  let brief ← firstOr (missing "PURCHASE_BRIEF") (db.briefs.find? (fun b =>
    b.id = decision.purchaseBriefId ∧ b.organizationId = organizationId))
  let requirements ← match brief.payload.lookup "approval_requirements" with
    | some (.seq requirements) => pure requirements
    | _ => throw (.api "APPROVAL_POLICY_INVALID"
        "The canonical Purchase Brief has no valid approval requirements." 409)
  let roles := requiredRoles requirements
  if roles = [] ∨ ¬ roles.Nodup then
    throw (.api "APPROVAL_POLICY_INVALID"
      "The canonical approval roles are empty or duplicated." 409)
  return roles

/-- The work of `create_approval_request` -/
def createApprovalRequestWork (intentId : String) (given : PurchaseGiven) (db : PurchaseDb) :
    Qualified (KeyedReply × PurchaseDb) := do
  let intent ← notFound "PURCHASE_INTENT" (db.getPurchaseIntent organizationId intentId)
  let decision ← notFound "DECISION" (db.getDecision organizationId intent.decisionId)
  requireCurrentDecision organizationId decision db
  if intent.quoteExpiresAt ≤ given.quoteNow then
    throw (.api "QUOTE_EXPIRED"
      "The locked quote expired; create a new Purchase Intent and approval." 409)
  if intent.approvalStatus ≠ .notRequested then
    throw (.api "APPROVAL_ALREADY_STARTED"
      "Approval already exists for this exact Purchase Intent." 409)
  let roles ← approvalRoles organizationId decision db
  let policyVersion ← match intent.payload.lookup "approval_policy_version" with
    | some (.atom (.int version)) => pure version
    | _ => throw (.domain (.key "approval_policy_version"))
  let approval : ApprovalRequest := {
    id := "apr_" ++ given.uuid "apr"
    organizationId := organizationId
    purchaseIntentId := intent.id
    intentHash := intent.intentHash
    policyVersion := policyVersion
    status := .pending
    requiredRoles := roles
    approvedRoles := []
    expiresAt := given.now + 3600000000 }
  let db ← db.addApproval approval
  return (⟨201, approvalView approval, approval.id⟩, db.setIntentStatus intent.id .pending)

/-- `create_approval_request` -/
def createApprovalRequest (intentId idempotencyKey : String) (given : PurchaseGiven)
    (db : PurchaseDb) : Qualified (PurchaseAnswer × PurchaseDb) := do
  let requestHash ← contentDigest s.rt (.obj [("intent_id", .str intentId)])
  keyed organizationId actorId "approval_requests.create" idempotencyKey requestHash 201
    (createApprovalRequestWork organizationId intentId given) given db

/-! ## Expiry -/

/-- `_approval_expiry_problem` -/
def approvalExpiryProblem (approval : ApprovalRequest) (intent : PurchaseIntent)
    (given : PurchaseGiven) : Option QualificationError :=
  if approval.expiresAt ≤ given.now then
    some (.api "APPROVAL_EXPIRED" "This exact-hash approval request has expired." 409)
  else if intent.quoteExpiresAt ≤ given.quoteNow then
    some (.api "QUOTE_EXPIRED" "The quote expired before approval completed." 409)
  else none

/-- An approval and its intent end in a status. -/
def endApproval (approvalId intentId : String) (status : ApprovalStatus) (db : PurchaseDb) :
    PurchaseDb :=
  (db.updateApproval approvalId (fun a => { a with status := status })).setIntentStatus intentId
    status

/-- `_expire_purchase_approval_if_needed`: the first transaction of a call that creates a
    handoff. -/
def expirePurchaseApproval (intentId : String) (given : PurchaseGiven) (db : PurchaseDb) :
    Qualified (PurchaseAnswer × PurchaseDb) := do
  let intent ← db.getPurchaseIntent organizationId intentId
  match db.approvalOf organizationId intent with
  | none => return (.nothing, db)
  | some approval =>
    if approval.status ≠ .approved ∨ intent.approvalStatus ≠ .approved then
      return (.nothing, db)
    else
      match approvalExpiryProblem approval intent given with
      | none => return (.nothing, db)
      | some problem => return (.problem problem, endApproval approval.id intent.id .expired db)

/-! ## The stages of an approval -/

/-- `_require_verified_approval_role` -/
def requireVerifiedApprovalRole (approval : ApprovalRequest) (roles : List String) (role : String) :
    Qualified Unit := do
  if role ∉ roles then
    throw (.api "APPROVER_ROLE_NOT_VERIFIED"
      "The verified actor does not hold the requested approval role." 403)
  if role ∉ approval.requiredRoles then
    throw (.api "APPROVER_ROLE_NOT_REQUIRED"
      "The authenticated actor does not satisfy a required approval role." 403)

/-- `_require_approval_role` -/
def requireApprovalRole (approval : ApprovalRequest) (roles : List String) (role : String) :
    Qualified Unit := do
  requireVerifiedApprovalRole approval roles role
  match approval.requiredRoles[approval.approvedRoles.length]? with
  | none => throw (.api "APPROVAL_ALREADY_FINAL" "Every frozen approval stage is already complete."
      409)
  | some next =>
    if next ≠ role then
      throw (.api "APPROVAL_STAGE_OUT_OF_ORDER"
        "Approval stages must be completed in the frozen policy order." 409)

/-- The approval request of a call with its intent, whose decision is current -/
def currentApproval (approvalId : String) (db : PurchaseDb) :
    Qualified (ApprovalRequest × PurchaseIntent) := do
  let approval ← firstOr (missing "APPROVAL_REQUEST") (db.approval? organizationId approvalId)
  let intent ← db.getPurchaseIntent organizationId approval.purchaseIntentId
  let decision ← db.getDecision organizationId intent.decisionId
  requireCurrentDecision organizationId decision db
  return (approval, intent)

/-- Who acts on an approval: the roles that are verified, and whether the authentication is
    recent. -/
structure Approver where
  roles : List String
  stepUpVerified : Bool

structure ApprovalBody where
  intentHash : String
  actorRole : String
  reason : Option String

def ApprovalBody.toValue (approvalId : String) (body : ApprovalBody) : Value :=
  .obj ([("approval_id", .str approvalId), ("intent_hash", .str body.intentHash),
    ("actor_role", .str body.actorRole)] ++ (body.reason.map (fun r => ("reason", .str r))).toList)

def requireStepUp (approver : Approver) (purpose : String) : Qualified Unit :=
  if approver.stepUpVerified then .ok ()
  else .error (.api "STEP_UP_REQUIRED"
    ("Recent step-up authentication is required to " ++ purpose ++ ".") 403)

/-- The event of an action on an approval -/
def approvalEvent (approvalId : String) (body : ApprovalBody) (action : ApprovalEventAction)
    (eventKey : String) (given : PurchaseGiven) : ApprovalEvent where
  id := "ape_" ++ given.uuid "ape"
  organizationId := organizationId
  approvalRequestId := approvalId
  intentHash := body.intentHash
  actorId := actorId
  actorRole := body.actorRole
  action := action
  eventKey := eventKey
  reason := body.reason

/-- An approval with a role added to those that approved -/
def withRole (approval : ApprovalRequest) (role : String) : ApprovalRequest :=
  if role ∈ approval.approvedRoles then approval
  else { approval with approvedRoles := approval.approvedRoles ++ [role] }

/-- The rows after a stage: the approval with its role, approved at the last stage with its
    intent. -/
def advanceApproval (approval : ApprovalRequest) (intent : PurchaseIntent) (role : String)
    (db : PurchaseDb) : ApprovalRequest × PurchaseDb :=
  let staged := withRole approval role
  if staged.approvedRoles = staged.requiredRoles then
    let final := { staged with status := .approved }
    (final, (db.updateApproval approval.id (fun _ => final)).setIntentStatus intent.id .approved)
  else (staged, db.updateApproval approval.id (fun _ => staged))

/-- The work of `approve` -/
def approveWork (approver : Approver) (approval : ApprovalRequest) (intent : PurchaseIntent)
    (body : ApprovalBody) (given : PurchaseGiven) (db : PurchaseDb) :
    Qualified (KeyedReply × PurchaseDb) := do
  let role := body.actorRole
  requireApprovalRole approval approver.roles role
  if db.approvalEvents.any (fun e => e.organizationId = organizationId ∧
      e.approvalRequestId = approval.id ∧ e.actorId = actorId ∧ e.action = .approve) ∧
      role ∉ approval.approvedRoles then
    throw (.api "SEPARATION_OF_DUTIES"
      "One actor cannot satisfy multiple roles for this approval policy." 403)
  let db ← db.recordApprovalEvent organizationId (approvalEvent organizationId actorId approval.id
    body .approve ("approve:" ++ approval.id ++ ":" ++ role ++ ":" ++ actorId) given)
  let (approval, db) := advanceApproval approval intent role db
  return (⟨200, approvalView approval, approval.id⟩, db)

/-- A call on an approval that may have expired: its expiry is committed, and otherwise its work
    is done under its key. -/
def unlessExpired (approvalId operation idempotencyKey requestHash : String)
    (work : ApprovalRequest → PurchaseIntent → PurchaseDb → Qualified (KeyedReply × PurchaseDb))
    (given : PurchaseGiven) (db : PurchaseDb) : Qualified (PurchaseAnswer × PurchaseDb) := do
  let (approval, intent) ← currentApproval organizationId approvalId db
  match approvalExpiryProblem approval intent given with
  | some problem => return (.problem problem, endApproval approval.id intent.id .expired db)
  | none =>
    keyed organizationId actorId operation idempotencyKey requestHash 200 (work approval intent)
      given db

/-- `approve` -/
def approve (approver : Approver) (approvalId idempotencyKey : String) (body : ApprovalBody)
    (given : PurchaseGiven) (db : PurchaseDb) : Qualified (PurchaseAnswer × PurchaseDb) := do
  requireStepUp approver "approve a purchase"
  let requestHash ← contentDigest s.rt (body.toValue approvalId)
  unlessExpired organizationId actorId approvalId "approval_requests.approve" idempotencyKey
    requestHash (fun approval intent =>
      approveWork organizationId actorId approver approval intent body given) given db

/-- The work of `reject_approval` -/
def rejectWork (approver : Approver) (approval : ApprovalRequest) (intent : PurchaseIntent)
    (body : ApprovalBody) (given : PurchaseGiven) (db : PurchaseDb) :
    Qualified (KeyedReply × PurchaseDb) := do
  let role := body.actorRole
  requireApprovalRole approval approver.roles role
  let db ← db.recordApprovalEvent organizationId (approvalEvent organizationId actorId approval.id
    body .reject ("reject:" ++ approval.id ++ ":" ++ role ++ ":" ++ actorId) given)
  let db := (endApproval approval.id intent.id .rejected db).publish {
    organizationId := organizationId
    aggregateType := "purchase_intent"
    aggregateId := intent.id
    eventType := "approval.rejected"
    eventKey := "approval-rejected:" ++ approval.id
    payload := [("purchase_intent_id", .str intent.id), ("approval_request_id", .str approval.id),
      ("actor_role", .str role)] }
  return (⟨200, approvalView { approval with status := .rejected }, approval.id⟩, db)

/-- `reject_approval` -/
def rejectApproval (approver : Approver) (approvalId idempotencyKey : String) (body : ApprovalBody)
    (given : PurchaseGiven) (db : PurchaseDb) : Qualified (PurchaseAnswer × PurchaseDb) := do
  requireStepUp approver "reject a purchase"
  let requestHash ← contentDigest s.rt (body.toValue approvalId)
  unlessExpired organizationId actorId approvalId "approval_requests.reject" idempotencyKey
    requestHash (fun approval intent =>
      rejectWork organizationId actorId approver approval intent body given) given db

/-- The handoff of an approval that can be opened is cancelled. -/
def cancelReady (approvalId : String) (db : PurchaseDb) : PurchaseDb :=
  match db.handoffs.find? (fun h => h.organizationId = organizationId ∧
      h.approvalRequestId = approvalId ∧ h.status = .ready) with
  | some handoff => db.updateHandoff handoff.id (fun h => { h with status := .cancelled })
  | none => db

/-- The work of `revoke_approval` -/
def revokeWork (approver : Approver) (approval : ApprovalRequest) (intent : PurchaseIntent)
    (body : ApprovalBody) (given : PurchaseGiven) (db : PurchaseDb) :
    Qualified (KeyedReply × PurchaseDb) := do
  if approval.status ≠ .pending ∧ approval.status ≠ .approved then
    throw (.api "APPROVAL_NOT_REVOCABLE"
      ("Approval request is already " ++ approval.status.value ++ ".") 409)
  let role := body.actorRole
  requireVerifiedApprovalRole approval approver.roles role
  let db ← db.recordApprovalEvent organizationId (approvalEvent organizationId actorId approval.id
    body .revoke ("revoke:" ++ approval.id ++ ":" ++ actorId) given)
  let ended := endApproval approval.id intent.id .revoked db
  let db := (cancelReady organizationId approval.id ended).publish {
    organizationId := organizationId
    aggregateType := "purchase_intent"
    aggregateId := intent.id
    eventType := "approval.revoked"
    eventKey := "approval-revoked:" ++ approval.id
    payload := [("purchase_intent_id", .str intent.id), ("approval_request_id", .str approval.id),
      ("actor_role", .str role)] }
  return (⟨200, approvalView { approval with status := .revoked }, approval.id⟩, db)

/-- `revoke_approval` -/
def revokeApproval (approver : Approver) (approvalId idempotencyKey : String) (body : ApprovalBody)
    (given : PurchaseGiven) (db : PurchaseDb) : Qualified (PurchaseAnswer × PurchaseDb) := do
  requireStepUp approver "revoke approval"
  let requestHash ← contentDigest s.rt (body.toValue approvalId)
  let (approval, intent) ← currentApproval organizationId approvalId db
  keyed organizationId actorId "approval_requests.revoke" idempotencyKey requestHash 200
    (revokeWork organizationId actorId approver approval intent body given) given db

/-! ## Payment handoffs -/

/-- `to_hash_payload`: the authorization data, without the fields of the lifecycle. -/
def handoffPayload (handoff : PaymentHandoff) : Value :=
  .obj [("schema_version", .str "1.0"), ("handoff_id", .str handoff.id),
    ("organization_id", .str handoff.organizationId),
    ("purchase_intent_id", .str handoff.purchaseIntentId),
    ("approval_request_id", .str handoff.approvalRequestId),
    ("intent_hash", .str handoff.intentHash), ("destination_url", .str handoff.destinationUrl),
    ("recipient", .str handoff.recipient), ("amount", .obj [("amount", amountJson handoff.amount),
      ("currency", .str handoff.currency)]), ("reference", .str handoff.reference),
    ("created_at", instant handoff.createdAt), ("expires_at", instant handoff.expiresAt)]

def refuse (refused : Bool) (message : String) : Qualified Unit :=
  if refused then .error (.domain (.domainValidation message)) else .ok ()

def blank (text : String) : Bool :=
  text.toList.all isSpace

/-- `PaymentHandoff.__post_init__` of `domain/models.py`, and the hash that it computes. -/
def checkHandoff (handoff : PaymentHandoff) : Qualified String := do
  refuse (!isId handoff.id) "handoff_id must be a stable non-empty identifier"
  refuse (!isId handoff.organizationId) "organization_id must be a stable non-empty identifier"
  refuse (!isId handoff.purchaseIntentId)
    "purchase_intent_id must be a stable non-empty identifier"
  refuse (!isId handoff.approvalRequestId)
    "approval_request_id must be a stable non-empty identifier"
  refuse (!isHash handoff.intentHash) "intent_hash must be a sha256 content hash"
  refuse (blank handoff.recipient || blank handoff.reference)
    "payment handoff recipient and reference are required"
  refuse (!s.https handoff.destinationUrl)
    "payment handoff destination must be an HTTPS URL without credentials or fragment"
  refuse (!isCurrency handoff.currency) "currency must be a three-letter ISO code"
  refuse (handoff.expiresAt ≤ handoff.createdAt) "payment handoff must expire after it is created"
  refuse (handoff.status = .opened && handoff.openedAt.isNone)
    "opened payment handoff requires opened_at"
  refuse (handoff.status = .opened && handoff.openedAt.any (fun at_ => handoff.expiresAt ≤ at_))
    "expired payment handoff cannot be opened"
  refuse (handoff.status ≠ .opened && handoff.openedAt.isSome)
    "only an opened payment handoff may have opened_at"
  contentDigest s.rt (handoffPayload handoff)

/-- `_payment_handoff_view` -/
def paymentHandoffView (handoff : PaymentHandoff) : List (String × Value) :=
  [("id", .str handoff.id), ("purchase_intent_id", .str handoff.purchaseIntentId),
    ("approval_request_id", .str handoff.approvalRequestId),
    ("intent_hash", .str handoff.intentHash), ("handoff_hash", .str handoff.handoffHash),
    ("destination_url", .str handoff.destinationUrl), ("recipient", .str handoff.recipient),
    ("amount", amountJson handoff.amount), ("currency", .str handoff.currency),
    ("reference", .str handoff.reference), ("status", .str handoff.status.value),
    ("expires_at", instant handoff.expiresAt), ("opened_at", .opt instant handoff.openedAt)]

/-- A handoff that is prepared for an approved intent -/
def newHandoff (intent : PurchaseIntent) (approval : ApprovalRequest) (given : PurchaseGiven) :
    PaymentHandoff where
  id := "phd_" ++ given.uuid "phd"
  organizationId := organizationId
  purchaseIntentId := intent.id
  approvalRequestId := approval.id
  intentHash := intent.intentHash
  handoffHash := ""
  destinationUrl := intent.merchantUrl
  recipient := intent.merchantName
  amount := intent.amount
  currency := intent.currency
  reference := "SIRA-" ++ intent.id
  status := .ready
  expiresAt := min approval.expiresAt (min (given.now + (intent.quoteExpiresAt - given.quoteNow))
    (given.now + 900000000))
  openedAt := none
  createdAt := given.now

/-- The work of `create_payment_handoff`, its second transaction -/
def createPaymentHandoffWork (intentId : String) (given : PurchaseGiven) (db : PurchaseDb) :
    Qualified (KeyedReply × PurchaseDb) := do
  let intent ← notFound "PURCHASE_INTENT" (db.getPurchaseIntent organizationId intentId)
  let decision ← db.getDecision organizationId intent.decisionId
  requireCurrentDecision organizationId decision db
  let required : QualificationError := .api "APPROVAL_REQUIRED"
    "Approve the exact current purchase intent before continuing." 409
  if intent.approvalStatus ≠ .approved then throw required
  let approval ← firstOr required ((db.approvalOf organizationId intent).filter (fun a =>
    a.status = .approved))
  if let some problem := approvalExpiryProblem approval intent given then throw problem
  match db.handoffs.find? (fun h => h.organizationId = organizationId ∧
      h.purchaseIntentId = intent.id ∧ h.approvalRequestId = approval.id) with
  | some existing => return (⟨201, paymentHandoffView existing, existing.id⟩, db)
  | none =>
    let draft := newHandoff organizationId intent approval given
    let handoffHash ← checkHandoff s draft
    let record := { draft with handoffHash := handoffHash }
    let db ← db.addHandoff record
    return (⟨201, paymentHandoffView record, record.id⟩, db.publish {
      organizationId := organizationId
      aggregateType := "payment_handoff"
      aggregateId := record.id
      eventType := "payment_handoff.ready"
      eventKey := "payment-handoff-ready:" ++ record.id
      payload := [("payment_handoff_id", .str record.id), ("purchase_intent_id", .str intent.id),
        ("handoff_hash", .str record.handoffHash)] })

/-- `create_payment_handoff`, after its first transaction found nothing expired -/
def createPaymentHandoff (intentId idempotencyKey : String) (given : PurchaseGiven)
    (db : PurchaseDb) : Qualified (PurchaseAnswer × PurchaseDb) := do
  let requestHash ← contentDigest s.rt
    (.obj [("intent_id", .str intentId), ("operation", .str "payment_handoff")])
  keyed organizationId actorId "payment_handoffs.create" idempotencyKey requestHash 201
    (createPaymentHandoffWork s organizationId intentId given) given db

/-- Both transactions of `create_payment_handoff` -/
def handOffPurchase (intentId idempotencyKey : String) (given : PurchaseGiven) (db : PurchaseDb) :
    Qualified (PurchaseAnswer × PurchaseDb) := do
  let (expiry, db) ← expirePurchaseApproval organizationId intentId given db
  match expiry with
  | .problem problem => return (.problem problem, db)
  | _ => createPaymentHandoff s organizationId actorId intentId idempotencyKey given db

/-- The work of `open_payment_handoff` -/
def openPaymentHandoffWork (handoffId : String) (given : PurchaseGiven) (db : PurchaseDb) :
    Qualified (KeyedReply × PurchaseDb) := do
  let record ← firstOr (missing "PAYMENT_HANDOFF") (db.handoff? organizationId handoffId)
  let intent ← db.getPurchaseIntent organizationId record.purchaseIntentId
  let invalid : QualificationError := .api "HANDOFF_AUTHORITY_INVALID"
    "This payment handoff is no longer authorized." 409
  let approval ← firstOr invalid (db.approval? organizationId record.approvalRequestId)
  if approval.status ≠ .approved ∨ intent.approvalStatus ≠ .approved ∨
      approval.intentHash ≠ record.intentHash ∨ intent.intentHash ≠ record.intentHash then
    throw invalid
  let computed ← checkHandoff s record
  refuse (record.handoffHash ≠ computed) "handoff_hash does not match the canonical payload"
  if record.status ≠ .ready ∨ record.expiresAt ≤ given.now then
    throw (.api "HANDOFF_NOT_OPENABLE" "This payment handoff cannot be opened." 409)
  let opened := { record with
    status := .opened
    openedAt := some given.now }
  return (⟨200, paymentHandoffView opened, record.id⟩,
    (db.updateHandoff record.id (fun _ => opened)).publish {
      organizationId := organizationId
      aggregateType := "payment_handoff"
      aggregateId := record.id
      eventType := "payment_handoff.opened"
      eventKey := "payment-handoff-opened:" ++ record.id
      payload := [("payment_handoff_id", .str record.id),
        ("purchase_intent_id", .str record.purchaseIntentId),
        ("handoff_hash", .str record.handoffHash)] })

/-- `open_payment_handoff` -/
def openPaymentHandoff (handoffId idempotencyKey : String) (given : PurchaseGiven)
    (db : PurchaseDb) : Qualified (PurchaseAnswer × PurchaseDb) := do
  let requestHash ← contentDigest s.rt
    (.obj [("handoff_id", .str handoffId), ("operation", .str "open")])
  keyed organizationId actorId "payment_handoffs.open" idempotencyKey requestHash 200
    (openPaymentHandoffWork s organizationId handoffId given) given db

end Approvals

/-! ## Runs -/

/-- The transactions of the purchase operations. A call that creates a handoff is
    `expirePurchaseApproval` and then, if that finds nothing expired, `createPaymentHandoff`. -/
inductive PurchaseCall
  | discover (requestId : String) (artifacts : Qualified GraphArtifacts)
  | decideProposal (roles : List String) (stepUpVerified : Bool) (briefId proposalId : String)
      (accept : Bool) (reason : String) (artifacts : Qualified GraphArtifacts)
  | selectPlan (roles : List String) (party : Option String)
      (decisionId solutionPlanId decisionHash : String) (decisionVersion : Nat)
  | lockPurchaseIntent (decisionId : String) (requestedPlanId : Option String)
  | createApprovalRequest (intentId : String)
  | approve (approver : Approver) (approvalId : String) (body : ApprovalBody)
  | rejectApproval (approver : Approver) (approvalId : String) (body : ApprovalBody)
  | revokeApproval (approver : Approver) (approvalId : String) (body : ApprovalBody)
  | expirePurchaseApproval (intentId : String)
  | createPaymentHandoff (intentId : String)
  | openPaymentHandoff (handoffId : String)

/-- A call of an actor of a tenant, under a key. -/
structure PurchaseTransaction where
  organizationId : String
  actorId : String
  idempotencyKey : String
  call : PurchaseCall
  given : PurchaseGiven

/-- What a transaction does. -/
def transact (s : WorkflowService) (t : PurchaseTransaction) (db : PurchaseDb) :
    Qualified (PurchaseAnswer × PurchaseDb) :=
  match t.call with
  | .discover requestId artifacts =>
    discover s t.organizationId t.actorId requestId t.idempotencyKey artifacts t.given db
  | .decideProposal roles stepUpVerified briefId proposalId accept reason artifacts =>
    decideProposal s t.organizationId t.actorId roles stepUpVerified briefId proposalId accept
      reason t.idempotencyKey artifacts t.given db
  | .selectPlan roles party decisionId solutionPlanId decisionHash decisionVersion =>
    selectPlan s t.organizationId t.actorId roles party decisionId solutionPlanId decisionHash
      decisionVersion t.idempotencyKey t.given db
  | .lockPurchaseIntent decisionId requestedPlanId =>
    lockPurchaseIntent s t.organizationId t.actorId decisionId requestedPlanId t.idempotencyKey
      t.given db
  | .createApprovalRequest intentId =>
    createApprovalRequest s t.organizationId t.actorId intentId t.idempotencyKey t.given db
  | .approve approver approvalId body =>
    approve s t.organizationId t.actorId approver approvalId t.idempotencyKey body t.given db
  | .rejectApproval approver approvalId body =>
    rejectApproval s t.organizationId t.actorId approver approvalId t.idempotencyKey body t.given db
  | .revokeApproval approver approvalId body =>
    revokeApproval s t.organizationId t.actorId approver approvalId t.idempotencyKey body t.given db
  | .expirePurchaseApproval intentId =>
    expirePurchaseApproval t.organizationId intentId t.given db
  | .createPaymentHandoff intentId =>
    createPaymentHandoff s t.organizationId t.actorId intentId t.idempotencyKey t.given db
  | .openPaymentHandoff handoffId =>
    openPaymentHandoff s t.organizationId t.actorId handoffId t.idempotencyKey t.given db

/-- The tables after a run that starts from tables without decisions. -/
def purchasesAfter (s : WorkflowService) (db : PurchaseDb) (run : List PurchaseTransaction) :
    PurchaseDb :=
  Transactions.run (transact s) db run

end SiraApi
