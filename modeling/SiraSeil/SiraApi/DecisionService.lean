-- SUMMARY: How decisions come to be and are bound: discovery, an accepted proposal, the selection of a plan, and the lock of a purchase intent on a decision.
import SiraSeil.Domain.ExchangeContracts
import SiraSeil.Persistence.PurchaseRepository
import SiraSeil.SiraApi.QualificationMutations

/-!
# Decisions and purchase intents

`WorkflowService` of `services/api/sira_api/service.py` and `select_plan` of
`surface_v2.py`: three operations append a version of a decision to a request, and one locks a
purchase intent on a decision. Each is one transaction under an idempotency key. What the
Decision Graph returns is given to the transaction; what is checked of it before it is stored is
checked here.
-/

namespace SiraApi

open Domain Persistence Sorting

/-- What the service is set up with. `fromIsoformat`, `cents` and `https` are
    `datetime.fromisoformat`, `Decimal` in a column of two places and the parts of `urlsplit`
    that handoffs check. -/
structure WorkflowService where
  rt : Runtime
  fixtures : Bool
  fromIsoformat : String → Option Datetime
  cents : Value → Option Nat
  https : String → Bool

/-- What a transaction answers: a reply, a problem that is raised once it has committed, or
    nothing. -/
inductive PurchaseAnswer
  | reply (status : Int) (payload : List (String × Value))
  | problem (error : QualificationError)
  | nothing

/-! ## Documents -/

def textOf : Option Value → Option String
  | some (.atom (.str text)) => some text
  | _ => none

/-- A text or `None`, which an absent key reads as. -/
def textOrNone : Option Value → Option (Option String)
  | none => some none
  | some (.atom .null) => some none
  | some (.atom (.str text)) => some (some text)
  | some _ => none

def fieldsOf : Option Value → Option (List (String × Value))
  | some (.obj fields) => some fields
  | _ => none

/-- `document[key]` where a text stands there -/
def textMember (key : String) (document : List (String × Value)) : Qualified String :=
  match textOf (document.lookup key) with
  | some text => .ok text
  | none => .error (.domain (.key key))

/-- `document.update(items)` -/
def updateItems (items document : List (String × Value)) : List (String × Value) :=
  items.foldl (fun document item => setItem item.1 item.2 document) document

/-- `{key: value for key, value in document.items() if key != hash_key}` -/
def without (hashKey : String) (document : List (String × Value)) : List (String × Value) :=
  document.filter (fun item => item.1 ≠ hashKey)

/-- `text.replace("Z", "+00:00")` -/
def zuluOffset (text : String) : String :=
  String.ofList (text.toList.flatMap (fun c => if c = 'Z' then "+00:00".toList else [c]))

/-- A time of the service -/
def instant (micros : Int) : Value :=
  .datetime ⟨micros, true⟩

/-! ## Errors -/

/-- `_missing` -/
def missing (kind : String) : QualificationError :=
  .api (kind ++ "_NOT_FOUND") ("The requested " ++ String.ofList (kind.toList.map (fun c =>
    if c = '_' then ' ' else c.toLower)) ++ " was not found.") 404

/-- `_not_found` -/
def notFound {α : Type} (kind : String) : Qualified α → Qualified α
  | .error (.recordNotFound _) => .error (missing kind)
  | result => result

/-- `scalar_one` of a statement with a limit of one -/
def scalarOne {α : Type} : Option α → Qualified α
  | some row => .ok row
  | none => .error (.runtimeError "No row was found when one was required")

def firstOr {α : Type} (error : QualificationError) : Option α → Qualified α
  | some row => .ok row
  | none => .error error

/-- The conflicts that compiling a decision source raises, under one message. -/
def sourceUnavailable {α : Type} (message : String) : Qualified α → Qualified α
  | .error (.persistenceConflict _) => .error (.api "DECISION_SOURCE_UNAVAILABLE" message 409)
  | .error (.recordNotFound _) => .error (.api "DECISION_SOURCE_UNAVAILABLE" message 409)
  | .error (.valueError _) => .error (.api "DECISION_SOURCE_UNAVAILABLE" message 409)
  | result => result

theorem notFound_eq_ok {α : Type} {kind : String} {x : Qualified α} {a : α}
    (h : notFound kind x = .ok a) : x = .ok a := by
  match x with
  | .ok b => exact h
  | .error (.recordNotFound _) => cases h
  | .error (.persistenceConflict _) => cases h
  | .error (.valueError _) => cases h
  | .error (.runtimeError _) => cases h
  | .error (.integrity _) => cases h
  | .error (.domain _) => cases h
  | .error (.api _ _ _) => cases h

theorem sourceUnavailable_eq_ok {α : Type} {message : String} {x : Qualified α} {a : α}
    (h : sourceUnavailable message x = .ok a) : x = .ok a := by
  match x with
  | .ok b => exact h
  | .error (.recordNotFound _) => cases h
  | .error (.persistenceConflict _) => cases h
  | .error (.valueError _) => cases h
  | .error (.runtimeError _) => cases h
  | .error (.integrity _) => cases h
  | .error (.domain _) => cases h
  | .error (.api _ _ _) => cases h

theorem firstOr_eq_ok {α : Type} {error : QualificationError} {x : Option α} {a : α}
    (h : firstOr error x = .ok a) : x = some a := by
  cases x with
  | some b => exact congrArg some (Except.ok.inj h)
  | none => cases h

theorem scalarOne_eq_ok {α : Type} {x : Option α} {a : α} (h : scalarOne x = .ok a) :
    x = some a := by
  cases x with
  | some b => exact congrArg some (Except.ok.inj h)
  | none => cases h

/-! ## Keys -/

/-- What the work of a call answers, with the reference that its record keeps. -/
structure KeyedReply where
  status : Int
  payload : List (String × Value)
  reference : String

/-- A call under its key: a completed record answers for it, and otherwise its work is done. -/
def keyed (organizationId actorId operation idempotencyKey requestHash : String) (status : Int)
    (work : PurchaseDb → Qualified (KeyedReply × PurchaseDb)) (given : PurchaseGiven)
    (db : PurchaseDb) : Qualified (PurchaseAnswer × PurchaseDb) := do
  let (claim, claimed) ← claimIdempotency ⟨organizationId, actorId, operation, idempotencyKey⟩
    requestHash given.toGiven db.toWorkspace
  if claim.replay then
    return (.reply ((claim.record.responseStatus.filter (· ≠ 0)).getD status)
      (claim.record.responsePayload.getD []), { db with toWorkspace := claimed })
  else
    let (reply, db) ← work { db with toWorkspace := claimed }
    let completed ← completeIdempotency organizationId claim.record reply.status reply.payload
      reply.reference db.toWorkspace
    return (.reply reply.status reply.payload, { db with toWorkspace := completed })

/-- `_require_current_decision` -/
def requireCurrentDecision (organizationId : String) (decision : DecisionRecord)
    (db : PurchaseDb) : Qualified Unit := do
  let current ← scalarOne (db.latestDecision organizationId decision.purchaseRequestId)
  if current.id ≠ decision.id then
    throw (.api "DECISION_SUPERSEDED"
      "This Decision version is historical and cannot start a new action." 409)

/-! ## Graph artifacts -/

/-- A plan of an evaluation, as far as its row reads it. -/
structure GraphPlan where
  planId : String
  lifecycle : PlanLifecycle
  status : CandidateStatus

/-- The Stackfile patch of a decision. -/
structure PatchDocument where
  baseSnapshot : Int
  status : String
  payload : List (String × Value)
  contentHash : String

/-- What `_demo_graph_artifacts` returns: the evaluation, the ledger over it, the patch, and the
    commercial terms by plan. -/
structure GraphArtifacts where
  inputPayloadHash : String
  evaluationPayloadHash : String
  selectedPlanId : Option String
  plans : List GraphPlan
  ledger : List (String × Value)
  patch : PatchDocument
  commercialTerms : List (String × Value)

/-- `_stable_id` of `graph_persistence.py` -/
def graphId (rt : Runtime) (start : String) (parts : List String) : String :=
  start ++ "_" ++ String.ofList
    ((rt.hexdigest (.obj [("namespace", .str start), ("parts", .strs parts)])).toList.take 40)

/-- A binding of the ledger that has to hold -/
def bound (holds : Bool) (label : String) : Qualified Unit :=
  if holds then .ok ()
  else .error (.valueError ("Decision Ledger " ++ label ++ " does not match persistence metadata"))

/-- `_ledger_document` -/
def checkLedger (rt : Runtime) (requestId briefId decisionId : String) (artifacts : GraphArtifacts) :
    Qualified Unit := do
  let ledger := artifacts.ledger
  let hash ← contentDigest rt (.obj (without "decision_hash" ledger))
  if textOf (ledger.lookup "decision_hash") ≠ some hash then
    throw (.valueError "Decision Ledger decision_hash does not match its payload")
  let evaluation ← firstOr (.valueError "Decision Ledger evaluation must be an object")
    (fieldsOf (ledger.lookup "evaluation"))
  bound (textOf (evaluation.lookup "evaluation_payload_hash") =
    some artifacts.evaluationPayloadHash) "evaluation_payload_hash"
  bound (textOrNone (ledger.lookup "selected_solution_plan_id") = some artifacts.selectedPlanId)
    "selection"
  bound (textOf (ledger.lookup "request_id") = some requestId) "purchase request"
  bound (textOf (ledger.lookup "purchase_brief_id") = some briefId) "purchase brief"
  bound (textOf (ledger.lookup "decision_id") = some decisionId) "decision"

/-- `ledger["solution_plans"]` -/
def ledgerPlans (ledger : List (String × Value)) : List (List (String × Value)) :=
  match ledger.lookup "solution_plans" with
  | some (.seq plans) => plans.filterMap (fun plan => fieldsOf (some plan))
  | _ => []

/-- A row of `_solution_plan_records` -/
def solutionPlanRecord (rt : Runtime) (organizationId runId : String) (artifacts : GraphArtifacts)
    (plan : GraphPlan) : Qualified EvaluationSolutionPlan := do
  let document ← firstOr (.domain (.key plan.planId)) ((ledgerPlans artifacts.ledger).find? (fun p =>
    textOf (p.lookup "solution_plan_id") = some plan.planId))
  let payload := match artifacts.commercialTerms.lookup plan.planId with
    | some terms => setItem "commercial_terms" terms document
    | none => document
  let planHash ← contentDigest rt (.obj payload)
  return {
    id := graphId rt "esp" [organizationId, runId, plan.planId]
    organizationId := organizationId
    evaluationRunId := runId
    solutionPlanId := plan.planId
    planHash := planHash
    lifecycle := plan.lifecycle
    candidateStatus := plan.status
    selected := some plan.planId = artifacts.selectedPlanId
    payload := payload }

section Decisions

variable (rt : Runtime) (organizationId : String)

/-- `_persist_base_graph` -/
def persistBaseGraph (requestId briefId decisionId : String) (artifacts : GraphArtifacts)
    (db : PurchaseDb) : Qualified PurchaseDb := do
  checkLedger rt requestId briefId decisionId artifacts
  if ∃ terms ∈ artifacts.commercialTerms, terms.1 ∉ artifacts.plans.map (·.planId) then
    throw (.valueError "Commercial terms reference an unknown Solution Plan")
  let runId := graphId rt "evr" [organizationId, requestId, "BASE", artifacts.evaluationPayloadHash]
  let plans ← artifacts.plans.mapM (solutionPlanRecord rt organizationId runId artifacts)
  db.addEvaluationGraph organizationId {
    id := runId
    organizationId := organizationId
    purchaseRequestId := requestId
    purchaseBriefId := briefId
    decisionId := some decisionId
    runKind := .base
    inputPayloadHash := artifacts.inputPayloadHash
    evaluationPayloadHash := artifacts.evaluationPayloadHash
    selectedSolutionPlanId := artifacts.selectedPlanId } plans

/-- The decision that a run of the graph appends to a request, after the latest one. -/
def decisionOf (requestId briefId decisionHash : String) (artifacts : GraphArtifacts)
    (previous : Option DecisionRecord) (given : PurchaseGiven) : DecisionRecord where
  id := "dec_" ++ given.uuid "dec"
  organizationId := organizationId
  purchaseRequestId := requestId
  purchaseBriefId := briefId
  version := match previous with
    | some decision => decision.version + 1
    | none => 1
  supersedesId := previous.map (·.id)
  decisionHash := decisionHash
  selectedSolutionPlanId := textOf (artifacts.ledger.lookup "selected_solution_plan_id")
  ledger := artifacts.ledger
  selection := none

/-- The rows that a run of the graph leaves: the decision, its patch and its evaluation. -/
def recordDecision (requestId briefId : String) (source : DecisionSourceSnapshot)
    (snapshotMissing : QualificationError) (artifacts : GraphArtifacts) (given : PurchaseGiven)
    (db : PurchaseDb) : Qualified (DecisionRecord × PurchaseDb) := do
  let decisionHash ← textMember "decision_hash" artifacts.ledger
  let decision := decisionOf organizationId requestId briefId decisionHash artifacts
    (db.latestDecision organizationId requestId) given
  let snapshot ← firstOr snapshotMissing (db.snapshots.find? (fun s =>
    s.organizationId = organizationId ∧ s.id = source.stackSnapshotId))
  let db ← db.addDecision decision
  let db ← db.addPatch {
    id := "patch_" ++ decision.id
    organizationId := organizationId
    baseSnapshotId := snapshot.id
    baseVersion := artifacts.patch.baseSnapshot
    state := artifacts.patch.status
    payload := artifacts.patch.payload
    patchHash := artifacts.patch.contentHash }
  let db ← persistBaseGraph rt organizationId requestId briefId decision.id artifacts db
  return (decision, db)

end Decisions

/-! ## Discovery -/

/-- `DEMO_SCENARIO_ID` -/
def demoScenarioId : String := "consultco_meeting_intelligence_v1"

/-- `_fixture_bundle` -/
def fixtureBundle (s : WorkflowService) : Qualified Unit :=
  if s.fixtures then .ok ()
  else .error (.api "PROVIDER_SETUP_BLOCKED"
    "production_decision_pipeline is not configured for a real provider operation." 503)

/-- The name of the workflow of a discovery -/
def discoveryId (requestId : String) (version : Nat) : String :=
  if version = 1 then "wf_discover_" ++ requestId
  else "wf_discover_" ++ requestId ++ "_v" ++ toString version

section Operations

variable (s : WorkflowService) (organizationId actorId : String)

/-- The work of `discover` -/
def discoverWork (requestId : String) (artifacts : Qualified GraphArtifacts)
    (given : PurchaseGiven) (db : PurchaseDb) : Qualified (KeyedReply × PurchaseDb) := do
  let request ← notFound "PURCHASE_REQUEST" (db.getPurchaseRequest organizationId requestId)
  if request.scenarioId ≠ some demoScenarioId then
    throw (.api "DEMO_SCENARIO_REQUIRED" "This build only evaluates the declared meeting-intelligence demo scenario; arbitrary request text remains an unevaluated draft." 409)
  let brief ← scalarOne (Table.latest (·.version) (db.briefs.filter (fun b =>
    b.organizationId = organizationId ∧ b.purchaseRequestId = requestId)))
  let _ ← scalarOne (Table.latest (·.version) (db.requirements.filter (fun b =>
    b.organizationId = organizationId ∧ b.purchaseRequestId = requestId ∧
      b.purchaseBriefId = brief.id)))
  let unavailable := "The accepted Buyer Passport, Stackfile, brief, Pack, evidence, and offer bundle is missing or invalid."
  let source ← sourceUnavailable unavailable
    (db.getDecisionSourceSnapshot organizationId s.rt requestId brief.id)
  let artifacts ← artifacts
  let (decision, db) ← recordDecision s.rt organizationId requestId brief.id source
    (.api "DECISION_SOURCE_UNAVAILABLE"
      "The exact Stackfile snapshot bound to the decision source is absent." 409) artifacts given db
  let db := { db with requests := Table.update (·.id) requestId (fun r => { r with
    status := "DECISION_READY" }) db.requests }
  let workflowId := discoveryId requestId decision.version
  let db ← db.addWorkflow {
    id := workflowId
    organizationId := organizationId
    aggregateId := requestId
    operation := "discover"
    resultReference := "/v1/decisions/" ++ decision.id }
  return (⟨202, [("workflow_id", .str workflowId),
    ("status_url", .str ("/v1/workflows/" ++ workflowId)),
    ("events_url", .str ("/v1/workflows/" ++ workflowId ++ "/events"))], workflowId⟩, db)

/-- `discover` -/
def discover (requestId idempotencyKey : String) (artifacts : Qualified GraphArtifacts)
    (given : PurchaseGiven) (db : PurchaseDb) : Qualified (PurchaseAnswer × PurchaseDb) := do
  fixtureBundle s
  let requestHash ← contentDigest s.rt
    (.obj [("request_id", .str requestId), ("operation", .str "discover")])
  keyed organizationId actorId "purchase_requests.discover" idempotencyKey requestHash 202
    (discoverWork s organizationId requestId artifacts given) given db

/-! ## Proposals -/

/-- The last preference of a criterion gets a weight, as a dictionary by criterion names it. -/
def setWeight (criterionId : String) (weight : Int) : List Value → Option (List Value)
  | [] => none
  | preference :: preferences =>
    match setWeight criterionId weight preferences with
    | some preferences => some (preference :: preferences)
    | none =>
      match preference with
      | .obj fields =>
        if textOf (fields.lookup "criterion_id") = some criterionId then
          some (.obj (setItem "weight" (.int weight) fields) :: preferences)
        else none
      | _ => none

/-- One change of `_apply_proposal_changes` -/
def applyChange (preferences : List Value) (change : Value) : Qualified (List Value) := do
  let fields ← firstOr (.api "PROPOSAL_CHANGE_UNSUPPORTED"
    "Only typed preference-weight proposals are supported." 422) (fieldsOf (some change))
  let unsupported : QualificationError := .api "PROPOSAL_CHANGE_UNSUPPORTED"
    "A proposal must set a known preference criterion to weight 1 through 5." 422
  let proposed := if (fields.lookup "proposed_weight").isSome then fields.lookup "proposed_weight"
    else fields.lookup "weight"
  match textOf (fields.lookup "criterion_id"), proposed with
  | some criterionId, some (.atom (.int weight)) =>
    if 1 ≤ weight ∧ weight ≤ 5 then
      firstOr unsupported (setWeight criterionId weight preferences)
    else throw unsupported
  | _, _ => throw unsupported

/-- `_apply_proposal_changes` -/
def applyProposalChanges (payload : List (String × Value)) (changes : List Value) :
    Qualified (List (String × Value)) :=
  match payload.lookup "preferences" with
  | some (.seq preferences) => do
    let preferences ← changes.foldlM applyChange preferences
    return setItem "preferences" (.seq preferences) payload
  | _ => .error (.api "PROPOSAL_INVALID" "The base Purchase Brief has no preference list." 409)

/-- `_find_proposal`: in the calibration runs of the brief, then in the feedback. -/
def findProposal (briefId proposalId : String) (db : PurchaseDb) : Qualified BriefProposal :=
  let found := fun (ofCalibration : Bool) => db.proposals.find? (fun p =>
    p.organizationId = organizationId ∧ p.ofCalibration = ofCalibration ∧
      p.proposalId = proposalId ∧ p.purchaseBriefId = some briefId)
  firstOr (missing "PROPOSAL") ((found true).orElse (fun _ => found false))

/-- The versions of the brief, the requirement and the source that an accepted proposal adds. -/
structure Rebased where
  briefId : String
  version : Nat
  source : DecisionSourceSnapshot

/-- The rows of an accepted proposal before its decision -/
def rebase (base : PurchaseBriefVersion) (proposal : BriefProposal) (given : PurchaseGiven)
    (db : PurchaseDb) : Qualified (Rebased × PurchaseDb) := do
  let requestId := base.purchaseRequestId
  let resultingVersion := ((Table.latest (·.version) (db.briefs.filter (fun b =>
    b.organizationId = organizationId ∧ b.purchaseRequestId = requestId))).map
      (·.version)).getD 0 + 1
  let resultingId := "pb_" ++ given.uuid "pb"
  let changed ← applyProposalChanges base.payload proposal.changes
  let payload := updateItems [("purchase_brief_id", .str resultingId),
    ("version", .nat resultingVersion), ("supersedes_version", .nat base.version),
    ("status", .str "APPROVED"), ("created_at", instant given.now)] changed
  let contentHash ← contentDigest s.rt (.obj (without "content_hash" payload))
  let payload := setItem "content_hash" (.str contentHash) payload
  let db ← db.addBrief {
    id := resultingId
    organizationId := organizationId
    purchaseRequestId := requestId
    version := resultingVersion
    status := "APPROVED"
    payload := payload
    contentHash := contentHash
    supersedesId := some base.id }
  let ofRequest := db.requirements.filter (fun b =>
    b.organizationId = organizationId ∧ b.purchaseRequestId = requestId)
  let baseRequirement ← firstOr (.api "REQUIREMENT_BRIEF_MISSING"
    "The current seller-safe Requirement Brief is unavailable." 409)
    (Table.latest (·.version) (ofRequest.filter (fun b => b.purchaseBriefId = base.id)))
  let requirementVersion := ((Table.latest (·.version) ofRequest).map (·.version)).getD 0 + 1
  let requirementId := "rb_" ++ given.uuid "rb"
  let requirement := updateItems [("requirement_brief_id", .str requirementId),
    ("purchase_brief_id", .str resultingId), ("purchase_brief_version", .nat resultingVersion),
    ("version", .nat requirementVersion), ("expires_at", instant (given.now + 86400000000))]
    baseRequirement.payload
  let requirementHash ← contentDigest s.rt (.obj (without "content_hash" requirement))
  let requirement := setItem "content_hash" (.str requirementHash) requirement
  let db ← db.addRequirement {
    id := requirementId
    organizationId := organizationId
    purchaseRequestId := requestId
    purchaseBriefId := resultingId
    version := requirementVersion
    payload := requirement
    contentHash := requirementHash }
  let unavailable :=
    "The accepted rule change could not be bound to its prior frozen decision source."
  let baseSource ← sourceUnavailable unavailable
    (db.getDecisionSourceSnapshot organizationId s.rt requestId base.id)
  let sourcePayload := updateItems [("purchase_brief", .obj payload),
    ("requirement_brief", .obj requirement)] baseSource.payload
  let sourceHash ← contentDigest s.rt (.obj sourcePayload)
  let source : DecisionSourceSnapshot := {
    id := "dss_" ++ requestId ++ "_v" ++ toString resultingVersion
    organizationId := organizationId
    purchaseRequestId := requestId
    purchaseBriefId := resultingId
    stackSnapshotId := baseSource.stackSnapshotId
    version := resultingVersion
    sourceKind := baseSource.sourceKind
    payload := sourcePayload
    contentHash := sourceHash
    acceptedByActorId := actorId
    acceptedAt := given.now }
  let db ← sourceUnavailable unavailable
    (db.addDecisionSourceSnapshot organizationId s.rt source)
  return (⟨resultingId, resultingVersion, source⟩, db)

/-- What is recorded of a decided proposal -/
def decideIn (proposal : BriefProposal) (accept : Bool) (reason : String)
    (briefId decisionId : Option String) (db : PurchaseDb) : PurchaseDb :=
  { db with proposals := db.proposals.map (fun p =>
      if p.organizationId = organizationId ∧ p.ofCalibration = proposal.ofCalibration ∧
          p.ownerId = proposal.ownerId then
        { p with
          status := if accept then "ACCEPTED" else "REJECTED"
          decidedBy := some actorId
          decisionReason := some reason
          resultingPurchaseBriefId := briefId
          resultingDecisionId := decisionId }
      else p) }

def decidedReply (briefId proposalId : String) (accept : Bool) (rebased : Option Rebased)
    (decision : Option DecisionRecord) : KeyedReply where
  status := 200
  payload := [("proposal_id", .str proposalId), ("base_purchase_brief_id", .str briefId),
    ("status", .str (if accept then "ACCEPTED" else "REJECTED")),
    ("resulting_purchase_brief_id", .opt .str (rebased.map (·.briefId))),
    ("resulting_version", .opt .nat (rebased.map (·.version))),
    ("resulting_decision_id", .opt .str (decision.map (·.id))),
    ("resulting_decision_hash", .opt .str (decision.map (·.decisionHash))),
    ("resulting_decision_version", .opt .nat (decision.map (·.version))),
    ("ranking_effect", .bool accept)]
  reference := (rebased.map (·.briefId)).getD proposalId

/-- An accepted proposal: a decision over the changed brief, and the retirement of the intents
    of the earlier ones. -/
def acceptProposal (base : PurchaseBriefVersion) (proposal : BriefProposal) (reason : String)
    (artifacts : Qualified GraphArtifacts) (given : PurchaseGiven) (db : PurchaseDb) :
    Qualified (KeyedReply × PurchaseDb) := do
  let (rebased, db) ← rebase s organizationId actorId base proposal given db
  let artifacts ← artifacts
  let _ ← notFound "PURCHASE_REQUEST" (db.getPurchaseRequest organizationId base.purchaseRequestId)
  let (decision, db) ← recordDecision s.rt organizationId base.purchaseRequestId rebased.briefId
    rebased.source (.api "STACK_SNAPSHOT_MISSING"
      "The Decision cannot bind its proposed Stackfile change." 409) artifacts given db
  let (_, db) ← db.supersedeIntentsForDecisionChange organizationId base.purchaseRequestId
    decision.id proposal.proposalId
  let db := { db with briefs := Table.update (·.id) base.id (fun b => { b with
    status := "SUPERSEDED" }) db.briefs }
  return (decidedReply base.id proposal.proposalId true (some rebased) (some decision),
    decideIn organizationId actorId proposal true reason (some rebased.briefId) (some decision.id)
      db)

/-- The work of `decide_proposal` -/
def decideProposalWork (briefId proposalId : String) (accept : Bool) (reason : String)
    (artifacts : Qualified GraphArtifacts) (given : PurchaseGiven) (db : PurchaseDb) :
    Qualified (KeyedReply × PurchaseDb) := do
  let base ← firstOr (missing "PURCHASE_BRIEF") (db.briefs.find? (fun b =>
    b.id = briefId ∧ b.organizationId = organizationId))
  let proposal ← findProposal organizationId briefId proposalId db
  if proposal.status ≠ "PROPOSED" then
    throw (.api "PROPOSAL_ALREADY_DECIDED"
      "The proposal is no longer pending authorized acceptance." 409)
  if base.status ≠ "APPROVED" then
    throw (.api "PROPOSAL_BASE_SUPERSEDED"
      "The proposal targets a Purchase Brief that is no longer current." 409)
  if accept then
    acceptProposal s organizationId actorId base proposal reason artifacts given db
  else
    return (decidedReply briefId proposalId false none none,
      decideIn organizationId actorId proposal false reason none none db)

/-- `decide_proposal` -/
def decideProposal (roles : List String) (stepUpVerified : Bool) (briefId proposalId : String)
    (accept : Bool) (reason idempotencyKey : String) (artifacts : Qualified GraphArtifacts)
    (given : PurchaseGiven) (db : PurchaseDb) : Qualified (PurchaseAnswer × PurchaseDb) := do
  if ¬ stepUpVerified then
    throw (.api "STEP_UP_REQUIRED"
      "Recent step-up authentication is required to change decision policy." 403)
  if ¬ roles.any (fun role =>
      role = "operations_owner" ∨ role = "policy_owner" ∨ role = "security_privacy_owner") then
    throw (.api "PROPOSAL_AUTHORITY_REQUIRED"
      "The verified actor lacks authority to change the Purchase Brief." 403)
  let requestHash ← contentDigest s.rt (.obj [("brief_id", .str briefId),
    ("proposal_id", .str proposalId), ("decision", .str (if accept then "ACCEPT" else "REJECT")),
    ("reason", .str reason)])
  keyed organizationId actorId
    (if accept then "brief_proposals.accept" else "brief_proposals.reject") idempotencyKey
    requestHash 200
    (decideProposalWork s organizationId actorId briefId proposalId accept reason artifacts given)
    given db

/-! ## The selection of a plan -/

/-- `actor_role` -/
def actorRole (roles : List String) (party : Option String) : String :=
  if party = some "SELLER" then
    if "seller_reviewer" ∈ roles then "SELLER_REVIEWER" else "SELLER_EDITOR"
  else
    let ordered := [("platform_operator", "PLATFORM_OPERATOR"), ("auditor", "AUDITOR"),
      ("budget_owner", "BUDGET_OWNER"), ("procurement", "PROCUREMENT"),
      ("security_privacy_owner", "POLICY_REVIEWER"), ("legal_owner", "POLICY_REVIEWER"),
      ("operations_owner", "DECISION_MAKER"), ("can_select_recommendation", "DECISION_MAKER")]
    ((ordered.find? (fun entry => entry.1 ∈ roles)).map (·.2)).getD "REQUESTER"

/-- `_STATUS_MAP` of the statuses whose options can be selected -/
def selectable (status : Option String) : Bool :=
  status = some CandidateStatus.eligible.value ∨
    status = some CandidateStatus.eligibleWithException.value

/-- `solution_options`: the id of each option, and whether it is supported. A ledger without
    plans is projected to the options of the incumbent. -/
def solutionOptions (ledger : List (String × Value)) : List (String × Bool) :=
  match ledgerPlans ledger with
  | [] => [("sol_renew_incumbent", true), ("sol_resize_incumbent", true),
      ("sol_configure_incumbent", true), ("sol_reuse_incumbent", true),
      ("sol_cancel_incumbent", false), ("sol_no_action_incumbent", false)]
  | plans => plans.filterMap (fun plan => (textOf (plan.lookup "solution_plan_id")).map (fun id =>
      (id, selectable (textOf (plan.lookup "status")))))

/-- `projected["rank_stability"]["status"]` -/
def rankStabilityStatus (ledger : List (String × Value)) : String :=
  (((fieldsOf (ledger.lookup "rank_stability")).bind (fun stability =>
    textOf (stability.lookup "status")))).getD "STABLE"

/-- The ledger of a selection: the one of its source, under the selected decision. -/
def selectedLedger (source : DecisionRecord) (selectedId solutionPlanId : String) (now : Int) :
    Qualified (List (String × Value) × String) := do
  let ledger := updateItems [("decision_id", .str selectedId),
    ("decision_version", .nat (source.version + 1)), ("decision_state", .str "CURRENT"),
    ("supersedes_decision_id", .str source.id),
    ("decision_outcome", .str "SELECTED_SOLUTION_PLAN"),
    ("selected_solution_plan_id", .str solutionPlanId), ("created_at", instant now)] source.ledger
  let decisionHash ← contentDigest s.rt (.obj (without "decision_hash" ledger))
  return (setItem "decision_hash" (.str decisionHash) ledger, decisionHash)

/-- The work of `select_plan` -/
def selectPlanWork (roles : List String) (party : Option String)
    (decisionId solutionPlanId decisionHash : String) (decisionVersion : Nat)
    (given : PurchaseGiven) (db : PurchaseDb) : Qualified (KeyedReply × PurchaseDb) := do
  let source ← notFound "DECISION" (db.getDecision organizationId decisionId)
  requireCurrentDecision organizationId source db
  if source.version ≠ decisionVersion ∨ source.decisionHash ≠ decisionHash then
    throw (.api "DECISION_VERSION_HASH_MISMATCH"
      "Plan selection must bind the exact current Decision version and hash." 409)
  let _ ← notFound "DECISION_REQUEST"
    (db.getPurchaseRequest organizationId source.purchaseRequestId)
  fixtureBundle s
  let (_, supported) ← firstOr (missing "SOLUTION_OPTION")
    ((solutionOptions source.ledger).find? (fun option => option.1 = solutionPlanId))
  if ¬ supported then
    throw (.api "SOLUTION_OPTION_NOT_SELECTABLE"
      "The selected action plan is not executable under the current Decision." 409)
  if rankStabilityStatus source.ledger ≠ "STABLE" ∧ party ≠ some "BUYER" then
    throw (.api "RANK_NOT_STABLE"
      "An unstable or undetermined Decision cannot be selected autonomously." 409)
  let selectionId := "selection_" ++ given.uuid "selection"
  let selectedId := "dec_" ++ given.uuid "dec"
  let (ledger, selectedHash) ← selectedLedger s source selectedId solutionPlanId given.now
  let db ← db.addDecision {
    id := selectedId
    organizationId := organizationId
    purchaseRequestId := source.purchaseRequestId
    purchaseBriefId := source.purchaseBriefId
    version := source.version + 1
    supersedesId := some source.id
    decisionHash := selectedHash
    selectedSolutionPlanId := some solutionPlanId
    ledger := ledger
    selection := some {
      selectionId := selectionId
      sourceDecisionId := source.id
      sourceDecisionVersion := source.version
      sourceDecisionHash := source.decisionHash
      solutionPlanId := solutionPlanId
      selectedByRole := actorRole roles party
      selectedAt := given.now } }
  let (_, db) ← db.supersedeIntentsForDecisionChange organizationId source.purchaseRequestId
    selectedId selectionId
  return (⟨201, [("selection_id", .str selectionId), ("source_decision_id", .str source.id),
    ("selected_decision_id", .str selectedId), ("solution_plan_id", .str solutionPlanId),
    ("decision_version", .nat (source.version + 1)), ("decision_hash", .str selectedHash),
    ("state", .str "SELECTED"),
    ("action_run_href", .str ("/v1/decisions/" ++ selectedId ++ "/action-runs"))], selectedId⟩, db)

/-- `select_plan` -/
def selectPlan (roles : List String) (party : Option String)
    (decisionId solutionPlanId decisionHash : String) (decisionVersion : Nat)
    (idempotencyKey : String) (given : PurchaseGiven) (db : PurchaseDb) :
    Qualified (PurchaseAnswer × PurchaseDb) := do
  let requestHash ← contentDigest s.rt (.obj [("decision_id", .str decisionId),
    ("solution_plan_id", .str solutionPlanId), ("decision_version", .nat decisionVersion),
    ("decision_hash", .str decisionHash)])
  keyed organizationId actorId "plan_selections.create" idempotencyKey requestHash 201
    (selectPlanWork s organizationId roles party decisionId solutionPlanId decisionHash
      decisionVersion given) given db

/-! ## The lock of a purchase intent -/

/-- `_TERM_FIELDS` -/
def termFields : List String :=
  ["purchase_intent_group_id", "procurement_plan_id", "procurement_gate_result_hash", "pack_id",
    "pack_version", "offer_id", "offer_version", "quote_id", "quote_version", "quote_expires_at",
    "merchant", "approved_merchant_chain_id", "amount", "currency", "line_items",
    "expected_fulfillments", "fulfillment_completion_policy", "buyer_legal_entity_id",
    "seller_contracting_entity_id", "billing_identity_id", "cost_center_id", "purchase_order_ref",
    "merchant_subtotal", "tax_amount", "fee_amount", "fee_schedule_version",
    "contract_version_id", "landed_total", "approval_policy_version",
    "approval_requirement_set_id", "approval_plan_hash"]

/-- `validate_plan_commercial_terms`: the value of each field of the terms. A
    `CommercialTermsConflict` is a value error. -/
def validatePlanCommercialTerms (rt : Runtime) (value : Value)
    (solutionPlanId stackPatchId : String) : Qualified (List (String × Value)) := do
  let terms ← firstOr (.valueError "commercial terms must be an object") (fieldsOf (some value))
  let supplied ← firstOr (.valueError "commercial_terms_hash must be a non-empty string")
    ((textOf (terms.lookup "commercial_terms_hash")).filter (· ≠ ""))
  let calculated ← contentDigest rt (.obj (without "commercial_terms_hash" terms))
  if supplied ≠ calculated then
    throw (.valueError "commercial terms hash does not match its payload")
  if textOf (terms.lookup "schema_version") ≠ some "plan_commercial_terms_v1" then
    throw (.valueError "commercial terms schema is unsupported")
  if textOf (terms.lookup "solution_plan_id") ≠ some solutionPlanId then
    throw (.valueError "commercial terms are bound to another Solution Plan")
  if textOf (terms.lookup "stack_patch_id") ≠ some stackPatchId then
    throw (.valueError "commercial terms are bound to another Stackfile patch")
  termFields.mapM (fun field => (terms.lookup field).elim
    (.error (.valueError ("commercial terms are missing " ++ field)))
    (fun value => .ok (field, value)))

/-- What a purchase intent is locked on. -/
structure IntentBinding where
  decision : DecisionRecord
  selectionId : String
  solutionPlanId : String
  stackPatchId : String
  purchaseIntentId : String

/-- `build_purchase_intent_payload` -/
def buildPurchaseIntentPayload (rt : Runtime) (binding : IntentBinding) (commercialTerms : Value)
    (lockedAt : Int) : Qualified (List (String × Value) × String) := do
  let terms ← validatePlanCommercialTerms rt commercialTerms binding.solutionPlanId
    binding.stackPatchId
  let payload := [("schema_version", .str "1.0.0"),
    ("purchase_intent_id", .str binding.purchaseIntentId),
    ("organization_id", .str binding.decision.organizationId),
    ("decision_id", .str binding.decision.id), ("decision_version", .nat binding.decision.version),
    ("decision_hash", .str binding.decision.decisionHash),
    ("selection_id", .str binding.selectionId), ("solution_plan_id", .str binding.solutionPlanId),
    ("stack_patch_id", .str binding.stackPatchId)] ++ terms ++ [("locked_at", instant lockedAt)]
  let intentHash ← contentDigest rt (.obj payload)
  return (payload ++ [("intent_hash", .str intentHash)], intentHash)

/-- A conflict of the terms, as the lock answers it. -/
def termsInvalid {α : Type} : Qualified α → Qualified α
  | .error (.valueError _) => .error (.api "PLAN_COMMERCIAL_TERMS_INVALID"
      "The selected Solution Plan has no valid immutable commercial terms." 409)
  | result => result

/-- The row of an intent over its payload -/
def intentOf (binding : IntentBinding) (payload : List (String × Value)) (intentHash : String) :
    Qualified PurchaseIntent := do
  let malformed : QualificationError := .domain (.value "commercial terms")
  let merchant ← firstOr malformed (fieldsOf (payload.lookup "merchant"))
  let name ← textMember "name" merchant
  let url ← textMember "url" merchant
  let quoteId ← textMember "quote_id" payload
  let quoteVersion ← match payload.lookup "quote_version" with
    | some (.atom (.int version)) => pure version
    | _ => throw malformed
  let expiry ← textMember "quote_expires_at" payload
  let expiresAt ← firstOr malformed (s.fromIsoformat (zuluOffset expiry))
  let amount ← firstOr malformed ((payload.lookup "amount").bind s.cents)
  let currency ← textMember "currency" payload
  return {
    id := binding.purchaseIntentId
    organizationId := binding.decision.organizationId
    decisionId := binding.decision.id
    decisionHash := binding.decision.decisionHash
    solutionPlanId := binding.solutionPlanId
    stackPatchId := binding.stackPatchId
    intentHash := intentHash
    merchantName := name
    merchantUrl := url
    quoteId := quoteId
    quoteVersion := quoteVersion
    quoteExpiresAt := expiresAt.micros
    amount := amount
    currency := currency
    payload := payload
    approvalStatus := .notRequested }

/-- `_purchase_intent_view` -/
def purchaseIntentView (intent : PurchaseIntent) : List (String × Value) :=
  updateItems [("purchase_intent_id", .str intent.id), ("decision_id", .str intent.decisionId),
    ("decision_hash", .str intent.decisionHash), ("solution_plan_id", .str intent.solutionPlanId),
    ("quote_version", .int intent.quoteVersion),
    ("quote_expires_at", instant intent.quoteExpiresAt),
    ("amount", amountJson intent.amount), ("currency", .str intent.currency),
    ("approval_status", .str intent.approvalStatus.value), ("intent_hash", .str intent.intentHash)]
    intent.payload

/-- The plan that a lock binds: executable, with a patch that is there. -/
def lockablePlan (decision : DecisionRecord) (solutionPlanId : String) (db : PurchaseDb) :
    Qualified (EvaluationSolutionPlan × String) := do
  let plan ← match db.getSelectedSolutionPlan organizationId
      (decision.supersedesId.getD decision.id) solutionPlanId with
    | .error (.recordNotFound _) => .error (.api "SOLUTION_PLAN_NOT_PERSISTED"
        "The selected Solution Plan is not bound to the canonical evaluation." 409)
    | found => found
  if plan.lifecycle ≠ .executable ∨ ¬ plan.candidateStatus.rankable then
    throw (.api "SOLUTION_PLAN_NOT_EXECUTABLE" "The selected Solution Plan is not executable." 409)
  let stackPatchId ← firstOr (.api "DECISION_STACK_PATCH_MISSING"
    "The selected Solution Plan has no immutable Stackfile patch." 409)
    ((textOf (plan.payload.lookup "stack_patch_id")).filter (· ≠ ""))
  if ¬ db.patches.any (fun p => p.id = stackPatchId ∧ p.organizationId = organizationId) then
    throw (.api "DECISION_STACK_PATCH_UNAVAILABLE"
      "The selected Solution Plan's Stackfile patch is unavailable." 409)
  return (plan, stackPatchId)

/-- The work of `lock_purchase_intent` -/
def lockPurchaseIntentWork (decisionId : String) (requestedPlanId : Option String)
    (given : PurchaseGiven) (db : PurchaseDb) : Qualified (KeyedReply × PurchaseDb) := do
  let decision ← notFound "DECISION" (db.getDecision organizationId decisionId)
  requireCurrentDecision organizationId decision db
  let selectedPlanId ← firstOr (.api "NO_EXECUTABLE_SOLUTION_PLAN"
    "The Decision has no executable Solution Plan to lock." 409)
    (decision.selectedSolutionPlanId.filter (· ≠ ""))
  if requestedPlanId ≠ none ∧ requestedPlanId ≠ some selectedPlanId then
    throw (.api "SOLUTION_PLAN_MISMATCH"
      "The requested Solution Plan is not the selected exact decision output." 409)
  let (plan, stackPatchId) ← lockablePlan organizationId decision selectedPlanId db
  let binding : IntentBinding := {
    decision := decision
    selectionId := (decision.selection.map (·.selectionId)).getD ("selection_" ++ decision.id)
    solutionPlanId := selectedPlanId
    stackPatchId := stackPatchId
    purchaseIntentId := "pi_" ++ given.uuid "pi" }
  let (payload, intentHash) ← termsInvalid (buildPurchaseIntentPayload s.rt binding
    ((plan.payload.lookup "commercial_terms").getD (.obj [])) given.quoteNow)
  let record ← intentOf s binding payload intentHash
  let db ← db.addPurchaseIntent organizationId record
  return (⟨201, purchaseIntentView record, record.id⟩, db)

/-- `lock_purchase_intent` -/
def lockPurchaseIntent (decisionId : String) (requestedPlanId : Option String)
    (idempotencyKey : String) (given : PurchaseGiven) (db : PurchaseDb) :
    Qualified (PurchaseAnswer × PurchaseDb) := do
  let requestHash ← contentDigest s.rt (.obj [("decision_id", .str decisionId),
    ("solution_plan_id", .opt .str requestedPlanId)])
  keyed organizationId actorId "purchase_intents.create" idempotencyKey requestHash 201
    (lockPurchaseIntentWork s organizationId decisionId requestedPlanId given) given db

end Operations

end SiraApi
