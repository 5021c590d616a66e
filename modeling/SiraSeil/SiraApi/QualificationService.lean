-- SUMMARY: The transactions of the qualification service that the kernel's tables see: missions, approvals, seller responses, consents and introductions.
import SiraSeil.Persistence.QualificationRepository

/-!
# The qualification service

`services/api/sira_api/qualification_service.py`. Each operation is one transaction in the
tenant of its caller. The idempotency records around it, the views and the texts that only
views read are left out, and so is the provisioning of tenants.
-/

namespace SiraApi

open Domain Persistence

/-- `value.strip('"')` -/
def stripQuotes (value : String) : String :=
  String.ofList ((value.toList.dropWhile (· = '"')).reverse.dropWhile (· = '"')).reverse

/-- `_verify_match` -/
def verifyMatch (provided expected : String) : Qualified Unit :=
  let value := strip provided
  if startsWith value "W/" || decide (stripQuotes value ≠ expected) then
    .error (.api "PRECONDITION_FAILED" "The resource changed; reload before applying this action."
      412)
  else .ok ()

/-- `WorkflowRepository.add_outbox`: an event of a key is added once. -/
def addOutboxOnce (event : OutboxEvent) (db : QualificationDb) : QualificationDb :=
  if db.outbox.any (fun e =>
      e.organizationId = event.organizationId ∧ e.eventKey = event.eventKey) then db
  else { db with outbox := db.outbox ++ [event] }

/-- What a mission is created from, with the selected company context in its buyer context. -/
structure MissionBody where
  buyerContext : Value
  requirementBrief : Value
  procurementPolicy : Value
  traceId : String

section Service

variable (rt : Runtime) (organizationId : String)

def createMission (body : MissionBody) (given : Given) (db : QualificationDb) :
    Qualified (String × QualificationDb) := do
  let buyerContextHash ← contentDigest rt body.buyerContext
  let requirementBriefHash ← contentDigest rt body.requirementBrief
  let procurementPolicyHash ← contentDigest rt body.procurementPolicy
  let mission : QualificationMission := {
    id := "qmission_" ++ given.uuid "qmission"
    organizationId := organizationId
    buyerContextVersionId := "buyerctx_" ++ given.uuid "buyerctx"
    buyerContextHash := buyerContextHash
    requirementBriefVersionId := "reqbrief_" ++ given.uuid "reqbrief"
    requirementBriefHash := requirementBriefHash
    procurementPolicyVersion := "policy_" ++ given.uuid "policy"
    procurementPolicyHash := procurementPolicyHash
    traceId := body.traceId
    state := .ready }
  constrain (db.missions.any (fun m => m.id = mission.id)) "qualification_missions_pkey"
  return (mission.id, addOutboxOnce {
    organizationId := organizationId
    aggregateType := "QUALIFICATION_MISSION"
    aggregateId := mission.id
    eventType := "QUALIFICATION_MISSION_READY"
    eventKey := "qualification-mission-ready:" ++ mission.id
    payload := [("mission_id", .str mission.id), ("trace_id", .str body.traceId),
      ("organization_id", .str organizationId)] }
    { db with missions := db.missions ++ [mission] })

/-! ## Approvals -/

inductive ApprovalAction
  | approve | reject
  deriving DecidableEq, Repr

/-- The rows of a decision that name the product bundles it depends on. -/
def productDependencies (decisionId : String) (db : QualificationDb) : List DecisionDependency :=
  db.decisionDependencies.filter (fun d => d.organizationId = organizationId ∧
    d.decisionId = decisionId ∧ d.snapshot.kind = .productBundle)

/-- The active pointer of the product is the bundle of the dependency. -/
def DecisionDependency.holds (dependency : DecisionDependency) (db : QualificationDb) : Bool :=
  db.activeBundles.any (fun a => a.organizationId = dependency.snapshot.organizationId ∧
    a.productId = dependency.snapshot.identifier ∧ a.bundleId = dependency.snapshot.version ∧
    a.bundleDigest = dependency.snapshot.digest)

/-- The decision gets an approval state. -/
def judgeDecision (decisionId : String) (approvalState : ApprovalState) (db : QualificationDb) :
    QualificationDb :=
  { db with
    decisions := Table.update (·.id) decisionId (fun d => { d with approvalState }) db.decisions }

/-- The state of a mission is set. -/
def setMissionState (missionId : String) (state : MissionState) (db : QualificationDb) :
    QualificationDb :=
  { db with missions := Table.update (·.id) missionId (fun m => { m with state }) db.missions }

/-- The approval of a decision opens an engagement with the seller of its product. -/
def approveDecision (decision : QualificationDecision) (mission : QualificationMission)
    (given : Given) (db : QualificationDb) : Qualified (String × QualificationDb) := do
  let dependencies := productDependencies organizationId decision.id db
  if dependencies = [] then
    throw (.persistenceConflict "qualification decision has no product dependencies")
  if !dependencies.all (fun d => DecisionDependency.holds d db) then
    throw (.persistenceConflict "qualification decision is stale; run a replacement attempt")
  match (db.bundlesOf organizationId decision.attemptId).find? (fun b =>
      b.productId = decision.recommendedProductId) with
  | none => throw (.persistenceConflict "recommended product bundle is missing")
  | some bundle =>
    let engagement : MarketplaceEngagement := {
      id := "meng_" ++ given.uuid "meng"
      missionId := mission.id
      decisionId := decision.id
      buyerOrganizationId := organizationId
      sellerOrganizationId := bundle.sellerOrganizationId
      productId := decision.recommendedProductId
      inputDigest := decision.inputDigest
      state := .open
      expiresAt := given.now + 7 * 24 * 3600 * 1000000 }
    constrain (db.engagements.any (fun e => e.id = engagement.id)) "marketplace_engagements_pkey"
    constrain (engagement.buyerOrganizationId = engagement.sellerOrganizationId)
      "ck_marketplace_distinct_parties"
    constrain (db.engagements.any (fun e => e.decisionId = decision.id ∧
      e.sellerOrganizationId = engagement.sellerOrganizationId)) "uq_marketplace_engagement"
    constrain (db.buyerProjections.any (fun p => p.engagementId = engagement.id))
      "marketplace_buyer_projections_pkey"
    return (engagement.id, { judgeDecision decision.id .approved db with
      engagements := db.engagements ++ [engagement]
      buyerProjections := db.buyerProjections ++ [⟨engagement.id, organizationId⟩] })

/-- `decide_approval` -/
def decideApproval (decisionId actorId ifMatch reason : String) (action : ApprovalAction)
    (given : Given) (db : QualificationDb) : Qualified (String × QualificationDb) :=
  match db.decisions.find? (fun d => d.organizationId = organizationId ∧ d.id = decisionId ∧
      d.current) with
  | none => .error (.api "QUALIFICATION_DECISION_NOT_FOUND" "Decision was not found." 404)
  | some decision => do
    verifyMatch ifMatch decision.decisionDigest
    if decision.approvalState ≠ .pending then
      throw (.persistenceConflict "qualification decision is no longer pending")
    match db.mission? organizationId decision.missionId with
    | none => throw (.api "QUALIFICATION_MISSION_NOT_FOUND" "Mission was not found." 404)
    | some mission =>
      let (resourceId, judged) ← match action with
        | .reject => pure (decision.id,
            setMissionState mission.id .completed (judgeDecision decision.id .rejected db))
        | .approve => approveDecision organizationId decision mission given db
      let eventType := if action = .approve then "QUALIFICATION_DECISION_APPROVED"
        else "QUALIFICATION_DECISION_REJECTED"
      let eventName := if action = .approve then "qualification_decision_approved"
        else "qualification_decision_rejected"
      return (resourceId, addOutboxOnce {
        organizationId := organizationId
        aggregateType := "QUALIFICATION_DECISION"
        aggregateId := decision.id
        eventType := eventType
        eventKey := eventName ++ ":" ++ decision.id
        payload := [("mission_id", .str mission.id), ("decision_id", .str decision.id),
          ("actor_id", .str actorId), ("reason", .str reason),
          ("resource_id", .str resourceId)] } judged)

/-! ## Engagements -/

/-- `_engagement` -/
def engagementOf (engagementId : String) (db : QualificationDb) :
    Qualified MarketplaceEngagement :=
  match db.engagements.find? (fun e => e.id = engagementId ∧
      (e.buyerOrganizationId = organizationId ∨ e.sellerOrganizationId = organizationId)) with
  | none => .error (.api "MARKETPLACE_ENGAGEMENT_NOT_FOUND" "Engagement was not found." 404)
  | some engagement => .ok engagement

/-- The state of an engagement is set. -/
def setEngagementState (engagementId : String) (state : EngagementState) (db : QualificationDb) :
    QualificationDb :=
  { db with
    engagements := Table.update (·.id) engagementId (fun e => { e with state }) db.engagements }

/-- The evidence that a response cites is in the active bundle of the seller. -/
def checkCited (productId : String) (citedIds : List String) (db : QualificationDb) :
    Qualified Unit :=
  if citedIds = [] then .ok ()
  else
    match db.activeBundle organizationId productId with
    | none => .error (.persistenceConflict "active seller bundle is unavailable")
    | some active =>
      if citedIds.all (fun id => (db.membersOf organizationId active.bundleId).any (fun m =>
          m.memberKind = .evidence ∧ m.memberId = id)) then .ok ()
      else .error (.persistenceConflict "seller response cites evidence outside its bundle")

def respond (engagementId actorId ifMatch response : String) (citedEvidenceIds : List String)
    (message : Option String) (given : Given) (db : QualificationDb) :
    Qualified (SellerResponse × QualificationDb) := do
  let engagement ← engagementOf organizationId engagementId db
  if engagement.sellerOrganizationId ≠ organizationId then
    throw (.api "MARKETPLACE_PARTY_FORBIDDEN" "Only the selected seller may respond." 403)
  verifyMatch ifMatch engagement.inputDigest
  if engagement.state ∉ [.open, .responded] then
    throw (.persistenceConflict "engagement is not accepting seller responses")
  checkCited organizationId engagement.productId citedEvidenceIds.dedup db
  let record : SellerResponse := {
    id := "sresponse_" ++ given.uuid "sresponse"
    organizationId := organizationId
    engagementId := engagement.id
    inputDigest := engagement.inputDigest
    response := response
    citedEvidenceIds := Sorting.sortedBy id citedEvidenceIds.dedup
    message := message
    actorId := actorId }
  constrain (db.sellerResponses.any (fun r => r.id = record.id))
    "marketplace_seller_responses_pkey"
  constrain (response ∉ ["FIT", "ANTI_FIT", "NEEDS_INFO"]) "ck_marketplace_seller_response"
  constrain (db.sellerResponses.any (fun r => r.organizationId = organizationId ∧
    r.engagementId = engagement.id ∧ r.inputDigest = record.inputDigest))
    "uq_marketplace_response"
  constrain (db.sellerProjections.any (fun p => p.engagementId = engagement.id))
    "marketplace_seller_projections_pkey"
  return (record, addOutboxOnce {
    organizationId := organizationId
    aggregateType := "MARKETPLACE_ENGAGEMENT"
    aggregateId := engagement.id
    eventType := "SELLER_RESPONSE_RECORDED"
    eventKey := "seller-response-recorded:" ++ record.id
    payload := [("engagement_id", .str engagement.id), ("response_id", .str record.id),
      ("input_digest", .str engagement.inputDigest)] }
    { setEngagementState engagement.id .responded db with
      sellerResponses := db.sellerResponses ++ [record]
      sellerProjections := db.sellerProjections ++ [⟨engagement.id, organizationId⟩] })

def consent (party : ConsentParty) (engagementId actorId ifMatch : String)
    (sharedFields : List (String × Value)) (given : Given) (db : QualificationDb) :
    Qualified (MarketplaceConsent × QualificationDb) := do
  let engagement ← engagementOf organizationId engagementId db
  let expected := if party = .buyer then engagement.buyerOrganizationId
    else engagement.sellerOrganizationId
  if organizationId ≠ expected then
    throw (.api "MARKETPLACE_PARTY_FORBIDDEN"
      "The verified organization is not this consent party." 403)
  verifyMatch ifMatch engagement.inputDigest
  if engagement.expiresAt ≤ given.now then
    throw (.persistenceConflict "engagement has expired")
  let approvedFieldsHash ← contentDigest rt (.obj sharedFields)
  let record : MarketplaceConsent := {
    id := "mconsent_" ++ given.uuid "mconsent"
    engagementId := engagement.id
    party := party
    actorId := actorId
    inputDigest := engagement.inputDigest
    approvedFieldsHash := approvedFieldsHash
    state := .granted
    expiresAt := min engagement.expiresAt (given.now + 24 * 3600 * 1000000) }
  constrain (db.consents.any (fun c => c.id = record.id)) "marketplace_consents_pkey"
  constrain (db.consents.any (fun c => c.engagementId = engagement.id ∧ c.party = party ∧
    c.inputDigest = record.inputDigest)) "uq_marketplace_consent_digest"
  let (partyName, keyName) := if party = .buyer then ("BUYER", "buyer") else ("SELLER", "seller")
  return (record, addOutboxOnce {
    organizationId := organizationId
    aggregateType := "MARKETPLACE_ENGAGEMENT"
    aggregateId := engagement.id
    eventType := partyName ++ "_CONSENT_GRANTED"
    eventKey := keyName ++ "-consent-granted:" ++ engagement.id ++ ":" ++ engagement.inputDigest
    payload := [("engagement_id", .str engagement.id), ("consent_id", .str record.id),
      ("party", .str partyName), ("input_digest", .str engagement.inputDigest),
      ("approved_fields_hash", .str approvedFieldsHash)] }
    { setEngagementState engagement.id .consentPending db with
      consents := db.consents ++ [record] })

/-- `QualificationService.introduce` -/
def introduce (engagementId ifMatch : String) (sharedFields : List (String × Value))
    (given : Given) (db : QualificationDb) : Qualified (QualifiedIntroduction × QualificationDb) :=
  do
  let engagement ← engagementOf organizationId engagementId db
  if engagement.buyerOrganizationId ≠ organizationId then
    throw (.api "MARKETPLACE_PARTY_FORBIDDEN" "Only the buyer may authorize the introduction." 403)
  verifyMatch ifMatch engagement.inputDigest
  let (introduction, db) ← Persistence.introduce rt organizationId engagement.id
    engagement.decisionId engagement.inputDigest sharedFields given db
  match db.mission? organizationId engagement.missionId with
  | none => throw (.api "QUALIFICATION_MISSION_NOT_FOUND" "Mission was not found." 404)
  | some mission => return (introduction, setMissionState mission.id .completed db)

end Service

end SiraApi
