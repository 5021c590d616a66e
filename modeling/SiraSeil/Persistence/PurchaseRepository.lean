-- SUMMARY: The tables of purchases and the repository over them: decisions with their versions, evaluations with their plans, intents, approvals, handoffs, and the retirement of intents when a decision is replaced.
import SiraSeil.Domain.Enums
import SiraSeil.Persistence.WorkflowRepository

/-!
# The purchase tables

`WorkflowRepository` of `persistence/repositories.py` over `persistence/models.py`: the rows
from a purchase request to its payment handoff. A row that would repeat a declared key raises an
integrity error. Times count microseconds and amounts count cents. Columns that no operation
reads are left out, and so are the children of plans, which no operation here reads.
-/

namespace Persistence

open Domain Sorting Raising

/-! ## Rows -/

structure PurchaseRequest where
  id : String
  organizationId : String
  status : String
  scenarioId : Option String

structure PurchaseBriefVersion where
  id : String
  organizationId : String
  purchaseRequestId : String
  version : Nat
  status : String
  payload : List (String × Value)
  contentHash : String
  supersedesId : Option String

structure RequirementBriefVersion where
  id : String
  organizationId : String
  purchaseRequestId : String
  purchaseBriefId : String
  version : Nat
  payload : List (String × Value)
  contentHash : String

/-- Immutable, private source bundle accepted for deterministic compilation. -/
structure DecisionSourceSnapshot where
  id : String
  organizationId : String
  purchaseRequestId : String
  purchaseBriefId : String
  stackSnapshotId : String
  version : Nat
  sourceKind : String
  payload : List (String × Value)
  contentHash : String
  acceptedByActorId : String
  acceptedAt : Int

structure StackSnapshot where
  id : String
  organizationId : String

structure StackPatch where
  id : String
  organizationId : String
  baseSnapshotId : String
  baseVersion : Int
  state : String
  payload : List (String × Value)
  patchHash : String

/-- A proposal to change a brief, kept in a calibration run or in a feedback. -/
structure BriefProposal where
  ofCalibration : Bool
  ownerId : String
  organizationId : String
  purchaseBriefId : Option String
  proposalId : String
  status : String
  changes : List Value
  decidedBy : Option String := none
  decisionReason : Option String := none
  resultingPurchaseBriefId : Option String := none
  resultingDecisionId : Option String := none

/-- `payload["selection"]`: the choice of a plan that a decision records. -/
structure PlanSelection where
  selectionId : String
  sourceDecisionId : String
  sourceDecisionVersion : Nat
  sourceDecisionHash : String
  solutionPlanId : String
  selectedByRole : String
  selectedAt : Int

structure DecisionRecord where
  id : String
  organizationId : String
  purchaseRequestId : String
  purchaseBriefId : String
  version : Nat
  supersedesId : Option String
  decisionHash : String
  selectedSolutionPlanId : Option String
  /-- `payload["ledger"]` -/
  ledger : List (String × Value)
  selection : Option PlanSelection

inductive EvaluationRunKind
  | base | generic | counterfactual | replay
  deriving DecidableEq, Repr

structure EvaluationRun where
  id : String
  organizationId : String
  purchaseRequestId : String
  purchaseBriefId : String
  decisionId : Option String
  runKind : EvaluationRunKind
  inputPayloadHash : String
  evaluationPayloadHash : String
  selectedSolutionPlanId : Option String

structure EvaluationSolutionPlan where
  id : String
  organizationId : String
  evaluationRunId : String
  solutionPlanId : String
  planHash : String
  lifecycle : PlanLifecycle
  candidateStatus : CandidateStatus
  selected : Bool
  payload : List (String × Value)

/-- `ApprovalStatus`, of intents and of approval requests. -/
inductive ApprovalStatus
  | notRequested | pending | approved | rejected | revoked | expired | superseded
  deriving DecidableEq, Repr

def ApprovalStatus.value : ApprovalStatus → String
  | notRequested => "NOT_REQUESTED"
  | pending => "PENDING"
  | approved => "APPROVED"
  | rejected => "REJECTED"
  | revoked => "REVOKED"
  | expired => "EXPIRED"
  | superseded => "SUPERSEDED"

structure PurchaseIntent where
  id : String
  organizationId : String
  decisionId : String
  decisionHash : String
  solutionPlanId : String
  stackPatchId : String
  intentHash : String
  merchantName : String
  merchantUrl : String
  quoteId : String
  quoteVersion : Int
  quoteExpiresAt : Int
  amount : Nat
  currency : String
  payload : List (String × Value)
  approvalStatus : ApprovalStatus

structure ApprovalRequest where
  id : String
  organizationId : String
  purchaseIntentId : String
  intentHash : String
  policyVersion : Int
  status : ApprovalStatus
  requiredRoles : List String
  approvedRoles : List String
  expiresAt : Int

inductive ApprovalEventAction
  | approve | reject | revoke | delegate
  deriving DecidableEq, Repr

structure ApprovalEvent where
  id : String
  organizationId : String
  approvalRequestId : String
  intentHash : String
  actorId : String
  actorRole : String
  action : ApprovalEventAction
  eventKey : String
  reason : Option String

inductive PaymentHandoffStatus
  | ready | opened | expired | cancelled
  deriving DecidableEq, Repr

def PaymentHandoffStatus.value : PaymentHandoffStatus → String
  | ready => "READY"
  | opened => "OPENED"
  | expired => "EXPIRED"
  | cancelled => "CANCELLED"

/-- Approved context for a human-operated payment step outside SIRA. -/
structure PaymentHandoff where
  id : String
  organizationId : String
  purchaseIntentId : String
  approvalRequestId : String
  intentHash : String
  handoffHash : String
  destinationUrl : String
  recipient : String
  amount : Nat
  currency : String
  reference : String
  status : PaymentHandoffStatus
  expiresAt : Int
  openedAt : Option Int
  createdAt : Int

structure WorkflowRun where
  id : String
  organizationId : String
  aggregateId : String
  operation : String
  resultReference : String

/-! ## Tables -/

structure PurchaseDb extends Workspace where
  requests : List PurchaseRequest := []
  briefs : List PurchaseBriefVersion := []
  requirements : List RequirementBriefVersion := []
  sources : List DecisionSourceSnapshot := []
  snapshots : List StackSnapshot := []
  patches : List StackPatch := []
  proposals : List BriefProposal := []
  decisions : List DecisionRecord := []
  evaluations : List EvaluationRun := []
  plans : List EvaluationSolutionPlan := []
  intents : List PurchaseIntent := []
  approvals : List ApprovalRequest := []
  approvalEvents : List ApprovalEvent := []
  handoffs : List PaymentHandoff := []
  workflows : List WorkflowRun := []

/-- The tables from decisions to handoffs. -/
structure PurchaseCore where
  decisions : List DecisionRecord
  evaluations : List EvaluationRun
  plans : List EvaluationSolutionPlan
  patches : List StackPatch
  intents : List PurchaseIntent
  approvals : List ApprovalRequest
  approvalEvents : List ApprovalEvent
  handoffs : List PaymentHandoff

def PurchaseDb.core (db : PurchaseDb) : PurchaseCore where
  decisions := db.decisions
  evaluations := db.evaluations
  plans := db.plans
  patches := db.patches
  intents := db.intents
  approvals := db.approvals
  approvalEvents := db.approvalEvents
  handoffs := db.handoffs

/-- The tables that say which decisions were made, of which requests and over which
    evaluations. -/
structure DecisionTables where
  /-- The ids of the requests with their tenants -/
  requests : List (String × String)
  decisions : List DecisionRecord
  evaluations : List EvaluationRun
  plans : List EvaluationSolutionPlan
  workflows : List WorkflowRun

def PurchaseDb.decisionTables (db : PurchaseDb) : DecisionTables where
  requests := db.requests.map (fun r => (r.id, r.organizationId))
  decisions := db.decisions
  evaluations := db.evaluations
  plans := db.plans
  workflows := db.workflows

/-- What the work on intents, approvals and handoffs leaves alone -/
def PurchaseDb.frame (db : PurchaseDb) : List IdempotencyRecord × DecisionTables :=
  (db.records, db.decisionTables)

/-- What a transaction is given beside the database time and its `uuid4`s: the as-of time of
    quotes. -/
structure PurchaseGiven extends Given where
  quoteNow : Int

/-- `_one_or_missing` -/
def oneOrMissing {α : Type} : List α → Qualified α
  | [] => .error (.recordNotFound "Tenant-owned record was not found")
  | [row] => .ok row
  | _ => .error (.runtimeError "Multiple rows were found when one or none was required")

/-- `_assert_payload_hash`; `capitalize` of the labels is written out. -/
def assertPayloadHash (rt : Runtime) (payload : List (String × Value)) (expectedHash label : String) :
    Qualified Unit := do
  let hash ← contentDigest rt (.obj payload)
  if hash ≠ expectedHash then
    throw (.persistenceConflict (label ++ " hash does not match its payload"))

namespace PurchaseDb

variable (organizationId : String) (db : PurchaseDb)

/-- `add_outbox`: an event of a key is added once. -/
def publish (event : OutboxEvent) : PurchaseDb :=
  let outbox := db.tables.qualification.outbox
  if outbox.any (fun e =>
      e.organizationId = event.organizationId ∧ e.eventKey = event.eventKey) then db
  else { db with tables := { db.tables with
    qualification := { db.tables.qualification with outbox := outbox ++ [event] } } }

/-! ### Reading -/

def getPurchaseRequest (requestId : String) : Qualified PurchaseRequest :=
  oneOrMissing (db.requests.filter (fun r => r.id = requestId ∧ r.organizationId = organizationId))

def getDecision (decisionId : String) : Qualified DecisionRecord :=
  oneOrMissing (db.decisions.filter (fun d =>
    d.id = decisionId ∧ d.organizationId = organizationId))

/-- The decision of a request with the highest version. -/
def latestDecision (requestId : String) : Option DecisionRecord :=
  Table.latest (·.version) (db.decisions.filter (fun d =>
    d.organizationId = organizationId ∧ d.purchaseRequestId = requestId))

/-- `get_decision_source_snapshot` for a brief -/
def getDecisionSourceSnapshot (rt : Runtime) (requestId briefId : String) :
    Qualified DecisionSourceSnapshot := do
  let record ← oneOrMissing (Table.latest (·.version) (db.sources.filter (fun s =>
    s.organizationId = organizationId ∧ s.purchaseRequestId = requestId ∧
      s.purchaseBriefId = briefId))).toList
  assertPayloadHash rt record.payload record.contentHash "Decision source"
  return record

/-- Whether a run is the canonical evaluation of a decision. -/
def IsBaseOf (decisionId : String) (run : EvaluationRun) : Prop :=
  run.organizationId = organizationId ∧ run.decisionId = some decisionId ∧ run.runKind = .base

instance (decisionId : String) (run : EvaluationRun) :
    Decidable (IsBaseOf organizationId decisionId run) :=
  inferInstanceAs (Decidable (_ ∧ _))

/-- `get_selected_solution_plan` -/
def getSelectedSolutionPlan (decisionId solutionPlanId : String) :
    Qualified EvaluationSolutionPlan :=
  oneOrMissing (db.plans.filter (fun p =>
    p.organizationId = organizationId ∧ p.solutionPlanId = solutionPlanId ∧
      db.evaluations.any (fun r => r.id = p.evaluationRunId ∧ IsBaseOf organizationId decisionId r)))

def getPurchaseIntent (intentId : String) : Qualified PurchaseIntent :=
  oneOrMissing (db.intents.filter (fun i => i.id = intentId ∧ i.organizationId = organizationId))

def approval? (approvalId : String) : Option ApprovalRequest :=
  db.approvals.find? (fun a => a.id = approvalId ∧ a.organizationId = organizationId)

/-- The approval request of an intent; the key `uq_approval_exact_intent` leaves one. -/
def approvalOf (intent : PurchaseIntent) : Option ApprovalRequest :=
  db.approvals.find? (fun a => a.organizationId = organizationId ∧
    a.purchaseIntentId = intent.id ∧ a.intentHash = intent.intentHash)

def handoff? (handoffId : String) : Option PaymentHandoff :=
  db.handoffs.find? (fun h => h.id = handoffId ∧ h.organizationId = organizationId)

/-! ### Inserting -/

def addBrief (record : PurchaseBriefVersion) : Qualified PurchaseDb := do
  constrain (db.briefs.any (fun b => b.id = record.id)) "purchase_brief_versions_pkey"
  constrain (db.briefs.any (fun b => b.organizationId = record.organizationId ∧
    b.purchaseRequestId = record.purchaseRequestId ∧ b.version = record.version))
    "uq_purchase_brief_version"
  return { db with briefs := db.briefs ++ [record] }

def addRequirement (record : RequirementBriefVersion) : Qualified PurchaseDb := do
  constrain (db.requirements.any (fun b => b.id = record.id)) "requirement_brief_versions_pkey"
  constrain (db.requirements.any (fun b => b.organizationId = record.organizationId ∧
    b.purchaseRequestId = record.purchaseRequestId ∧ b.version = record.version))
    "uq_requirement_brief_version"
  return { db with requirements := db.requirements ++ [record] }

/-- `add_decision_source_snapshot` -/
def addDecisionSourceSnapshot (rt : Runtime) (record : DecisionSourceSnapshot) :
    Qualified PurchaseDb := do
  if record.organizationId ≠ organizationId then
    throw (.persistenceConflict "Cross-tenant write rejected")
  assertPayloadHash rt record.payload record.contentHash "Decision source"
  constrain (db.sources.any (fun s => s.id = record.id)) "decision_source_snapshots_pkey"
  constrain (db.sources.any (fun s => s.organizationId = record.organizationId ∧
    s.purchaseRequestId = record.purchaseRequestId ∧ s.version = record.version))
    "uq_decision_source_snapshot_version"
  constrain (db.sources.any (fun s => s.organizationId = record.organizationId ∧
    s.purchaseRequestId = record.purchaseRequestId ∧ s.contentHash = record.contentHash))
    "uq_decision_source_snapshot_hash"
  return { db with sources := db.sources ++ [record] }

def addPatch (record : StackPatch) : Qualified PurchaseDb := do
  constrain (db.patches.any (fun p => p.id = record.id)) "stack_patches_pkey"
  return { db with patches := db.patches ++ [record] }

def addDecision (record : DecisionRecord) : Qualified PurchaseDb := do
  constrain (db.decisions.any (fun d => d.id = record.id)) "decision_records_pkey"
  constrain (db.decisions.any (fun d => d.organizationId = record.organizationId ∧
    d.decisionHash = record.decisionHash)) "uq_decision_hash"
  constrain (db.decisions.any (fun d => d.organizationId = record.organizationId ∧
    d.purchaseRequestId = record.purchaseRequestId ∧ d.version = record.version))
    "uq_decision_record_version"
  return { db with decisions := db.decisions ++ [record] }

/-- `add_evaluation_graph`: what the run says of its plans holds of their rows. -/
def addEvaluationGraph (run : EvaluationRun) (plans : List EvaluationSolutionPlan) :
    Qualified PurchaseDb := do
  if run.organizationId ≠ organizationId ∨ ∃ p ∈ plans, p.organizationId ≠ organizationId then
    throw (.persistenceConflict "Cross-tenant write rejected")
  if ¬ (plans.map (·.id)).Nodup then
    throw (.persistenceConflict "Solution Plan record IDs must be unique")
  if ¬ (plans.map (·.solutionPlanId)).Nodup then
    throw (.persistenceConflict "Solution Plan IDs must be unique within an evaluation")
  if ∃ id, run.selectedSolutionPlanId = some id ∧ id ∉ plans.map (·.solutionPlanId) then
    throw (.persistenceConflict "Selected Solution Plan is absent from the evaluation")
  if ((plans.filter (·.selected)).map (·.solutionPlanId)) ≠ run.selectedSolutionPlanId.toList then
    throw (.persistenceConflict "Evaluation selection and selected plan row do not match")
  if ∃ p ∈ plans, p.evaluationRunId ≠ run.id then
    throw (.persistenceConflict "Solution Plan is not bound to the evaluation")
  constrain (db.evaluations.any (fun r => r.id = run.id)) "evaluation_runs_pkey"
  constrain (db.evaluations.any (fun r => r.organizationId = run.organizationId ∧
    r.evaluationPayloadHash = run.evaluationPayloadHash)) "uq_evaluation_payload_hash"
  constrain (db.evaluations.any (fun r => r.organizationId = run.organizationId ∧
    r.purchaseRequestId = run.purchaseRequestId ∧ r.inputPayloadHash = run.inputPayloadHash))
    "uq_evaluation_run_input"
  constrain (plans.any (fun p => db.plans.any (fun q => q.id = p.id)))
    "evaluation_solution_plans_pkey"
  constrain (¬ (plans.map (·.planHash)).Nodup) "uq_evaluation_plan_hash"
  let db := { db with
    evaluations := db.evaluations ++ [run]
    plans := db.plans ++ plans }
  return db.publish {
    organizationId := organizationId
    aggregateType := "evaluation_run"
    aggregateId := run.id
    eventType := "evaluation_run.persisted"
    eventKey := "evaluation-run-persisted:" ++ run.evaluationPayloadHash
    payload := [("evaluation_run_id", .str run.id),
      ("evaluation_payload_hash", .str run.evaluationPayloadHash), ("run_kind", .str "BASE")] }

/-- `add_purchase_intent` -/
def addPurchaseIntent (record : PurchaseIntent) : Qualified PurchaseDb := do
  if record.organizationId ≠ organizationId then
    throw (.persistenceConflict "Cross-tenant write rejected")
  constrain (db.intents.any (fun i => i.id = record.id)) "purchase_intents_pkey"
  constrain (db.intents.any (fun i => i.organizationId = record.organizationId ∧
    i.intentHash = record.intentHash)) "uq_purchase_intent_hash"
  constrain (db.intents.any (fun i => i.organizationId = record.organizationId ∧
    i.decisionId = record.decisionId ∧ i.solutionPlanId = record.solutionPlanId ∧
    i.quoteId = record.quoteId ∧ i.quoteVersion = record.quoteVersion))
    "uq_purchase_intent_business_lock"
  constrain (record.quoteVersion < 1) "ck_purchase_intent_quote_version_positive"
  constrain (record.currency.toUpper ≠ record.currency) "ck_purchase_intent_currency_upper"
  return { db with intents := db.intents ++ [record] }.publish {
    organizationId := organizationId
    aggregateType := "purchase_intent"
    aggregateId := record.id
    eventType := "purchase_intent.locked"
    eventKey := "purchase-intent-locked:" ++ record.id ++ ":" ++ record.intentHash
    payload := [("purchase_intent_id", .str record.id), ("intent_hash", .str record.intentHash)] }

def addApproval (record : ApprovalRequest) : Qualified PurchaseDb := do
  constrain (db.approvals.any (fun a => a.id = record.id)) "approval_requests_pkey"
  constrain (db.approvals.any (fun a => a.organizationId = record.organizationId ∧
    a.purchaseIntentId = record.purchaseIntentId ∧ a.intentHash = record.intentHash))
    "uq_approval_exact_intent"
  return { db with approvals := db.approvals ++ [record] }

def addHandoff (record : PaymentHandoff) : Qualified PurchaseDb := do
  constrain (db.handoffs.any (fun h => h.id = record.id)) "payment_handoffs_pkey"
  constrain (db.handoffs.any (fun h => h.organizationId = record.organizationId ∧
    h.handoffHash = record.handoffHash)) "uq_payment_handoff_hash"
  constrain (db.handoffs.any (fun h => h.organizationId = record.organizationId ∧
    h.purchaseIntentId = record.purchaseIntentId ∧
    h.approvalRequestId = record.approvalRequestId)) "uq_payment_handoff_approval"
  return { db with handoffs := db.handoffs ++ [record] }

def addWorkflow (record : WorkflowRun) : Qualified PurchaseDb := do
  constrain (db.workflows.any (fun w => w.id = record.id)) "workflow_runs_pkey"
  return { db with workflows := db.workflows ++ [record] }

/-! ### Changing -/

def setIntentStatus (intentId : String) (status : ApprovalStatus) : PurchaseDb :=
  { db with intents := Table.update (·.id) intentId (fun i => { i with
      approvalStatus := status }) db.intents }

def updateApproval (approvalId : String) (f : ApprovalRequest → ApprovalRequest) : PurchaseDb :=
  { db with approvals := Table.update (·.id) approvalId f db.approvals }

def updateHandoff (handoffId : String) (f : PaymentHandoff → PaymentHandoff) : PurchaseDb :=
  { db with handoffs := Table.update (·.id) handoffId f db.handoffs }

/-! ### Retiring intents -/

/-- The intents of the other decisions of a request. -/
def intentsOfOthers (requestId currentDecisionId : String) : List PurchaseIntent :=
  db.intents.filter (fun i => i.organizationId = organizationId ∧
    db.decisions.any (fun d => d.id = i.decisionId ∧ d.organizationId = organizationId ∧
      d.purchaseRequestId = requestId ∧ d.id ≠ currentDecisionId))

/-- Whether an intent may still be approved or opened. -/
def ApprovalIsLive (status : ApprovalStatus) : Prop :=
  status = .notRequested ∨ status = .pending ∨ status = .approved

instance (status : ApprovalStatus) : Decidable (ApprovalIsLive status) :=
  inferInstanceAs (Decidable (_ ∨ _))

/-- An intent is superseded, with the approvals that are under way. -/
def supersedeApprovals (intentId : String) : PurchaseDb :=
  { db with
    intents := Table.update (·.id) intentId (fun i => { i with
      approvalStatus := .superseded }) db.intents
    approvals := db.approvals.map (fun a =>
      if a.organizationId = organizationId ∧ a.purchaseIntentId = intentId ∧
          (a.status = .pending ∨ a.status = .approved) then
        { a with status := .superseded }
      else a) }

/-- The handoffs of an intent that can be opened. -/
def readyHandoffs (intentId : String) : List PaymentHandoff :=
  db.handoffs.filter (fun h =>
    h.organizationId = organizationId ∧ h.purchaseIntentId = intentId ∧ h.status = .ready)

def cancelHandoffs (intentId : String) : PurchaseDb :=
  { db with handoffs := db.handoffs.map (fun h =>
      if h.organizationId = organizationId ∧ h.purchaseIntentId = intentId ∧ h.status = .ready then
        { h with status := .cancelled }
      else h) }

/-- What is done with one intent when its decision is replaced. `scalar_one_or_none` raises
    where more than one handoff is cancelled. -/
def supersedeIntent (currentDecisionId proposalId : String) (intent : PurchaseIntent)
    (counted : Nat × PurchaseDb) : Qualified (Nat × PurchaseDb) := do
  let (superseded, db) := counted
  let live := decide (ApprovalIsLive intent.approvalStatus)
  let retired := if live then db.supersedeApprovals organizationId intent.id else db
  let cancelled := retired.readyHandoffs organizationId intent.id
  if 1 < cancelled.length then
    throw (.runtimeError "Multiple rows were found when one or none was required")
  let db := retired.cancelHandoffs organizationId intent.id
  if live || !cancelled.isEmpty then
    return (superseded + 1, db.publish {
      organizationId := organizationId
      aggregateType := "purchase_intent"
      aggregateId := intent.id
      eventType := "approval.superseded"
      eventKey := "decision-change:" ++ proposalId ++ ":" ++ intent.id
      payload := [("purchase_intent_id", .str intent.id),
        ("superseded_decision_id", .str intent.decisionId),
        ("current_decision_id", .str currentDecisionId),
        ("reason", .str "DECISION_VERSION_CHANGED")] })
  else
    return (superseded, db)

/-- `supersede_intents_for_decision_change` -/
def supersedeIntentsForDecisionChange (requestId currentDecisionId proposalId : String) :
    Qualified (Nat × PurchaseDb) :=
  (db.intentsOfOthers organizationId requestId currentDecisionId).foldlM
    (fun counted intent => supersedeIntent organizationId currentDecisionId proposalId intent counted)
    (0, db)

/-! ### Approval events -/

/-- `record_approval_event` -/
def recordApprovalEvent (event : ApprovalEvent) : Qualified PurchaseDb := do
  let approval ← oneOrMissing (db.approvals.filter (fun a =>
    a.id = event.approvalRequestId ∧ a.organizationId = organizationId))
  let intent ← db.getPurchaseIntent organizationId approval.purchaseIntentId
  if event.intentHash ≠ approval.intentHash ∨ event.intentHash ≠ intent.intentHash then
    throw (.persistenceConflict "Approval does not bind the current exact intent hash")
  if approval.status ≠ .pending ∧ approval.status ≠ .approved then
    throw (.persistenceConflict ("Approval request is " ++ approval.status.value))
  if db.approvalEvents.any (fun e =>
      e.organizationId = organizationId ∧ e.eventKey = event.eventKey) then
    return db
  else
    constrain (db.approvalEvents.any (fun e => e.id = event.id)) "approval_events_pkey"
    return { db with approvalEvents := db.approvalEvents ++ [event] }

/-! ## What an operation leaves

The tables from decisions to handoffs after each operation that returned, with what it checked. -/

section Laws

variable {organizationId : String} {db db' : PurchaseDb}

theorem mem_of_oneOrMissing {α : Type} {rows : List α} {row : α}
    (h : oneOrMissing rows = .ok row) : rows = [row] := by
  match rows with
  | [] => cases h
  | [a] => rw [show a = row from Except.ok.inj h]
  | a :: b :: rest => cases h

theorem getDecision_eq_ok {decisionId : String} {decision : DecisionRecord}
    (h : db.getDecision organizationId decisionId = .ok decision) :
    decision ∈ db.decisions ∧ decision.id = decisionId ∧
      decision.organizationId = organizationId := by
  have hrows := mem_of_oneOrMissing h
  have hmem : decision ∈ db.decisions.filter (fun d =>
      d.id = decisionId ∧ d.organizationId = organizationId) := by
    rw [hrows]
    exact List.mem_singleton_self decision
  simpa using hmem

theorem getPurchaseIntent_eq_ok {intentId : String} {intent : PurchaseIntent}
    (h : db.getPurchaseIntent organizationId intentId = .ok intent) :
    intent ∈ db.intents ∧ intent.id = intentId ∧ intent.organizationId = organizationId := by
  have hrows := mem_of_oneOrMissing h
  have hmem : intent ∈ db.intents.filter (fun i =>
      i.id = intentId ∧ i.organizationId = organizationId) := by
    rw [hrows]
    exact List.mem_singleton_self intent
  simpa using hmem

theorem approval?_eq_some {approvalId : String} {approval : ApprovalRequest}
    (h : db.approval? organizationId approvalId = some approval) :
    approval ∈ db.approvals ∧ approval.id = approvalId ∧
      approval.organizationId = organizationId := by
  have hfound := List.find?_some h
  exact ⟨List.mem_of_find?_eq_some h, by simpa using hfound⟩

theorem approvalOf_eq_some {intent : PurchaseIntent} {approval : ApprovalRequest}
    (h : db.approvalOf organizationId intent = some approval) :
    approval ∈ db.approvals ∧ approval.organizationId = organizationId ∧
      approval.purchaseIntentId = intent.id ∧ approval.intentHash = intent.intentHash := by
  have hfound := List.find?_some h
  exact ⟨List.mem_of_find?_eq_some h, by simpa using hfound⟩

theorem handoff?_eq_some {handoffId : String} {handoff : PaymentHandoff}
    (h : db.handoff? organizationId handoffId = some handoff) :
    handoff ∈ db.handoffs ∧ handoff.id = handoffId ∧ handoff.organizationId = organizationId := by
  have hfound := List.find?_some h
  exact ⟨List.mem_of_find?_eq_some h, by simpa using hfound⟩

/-- The latest decision of a request is one of its decisions, and none has a higher version. -/
theorem latestDecision_eq_some {requestId : String} {decision : DecisionRecord}
    (h : db.latestDecision organizationId requestId = some decision) :
    decision ∈ db.decisions ∧ decision.organizationId = organizationId ∧
      decision.purchaseRequestId = requestId ∧
      ∀ d ∈ db.decisions, d.organizationId = organizationId → d.purchaseRequestId = requestId →
        d.version ≤ decision.version := by
  have hmem := Table.latest_mem h
  simp only [List.mem_filter, decide_eq_true_eq] at hmem
  refine ⟨hmem.1, hmem.2.1, hmem.2.2, fun d hd horganization hrequest => ?_⟩
  exact Table.le_of_latest h (List.mem_filter.mpr ⟨hd, decide_eq_true ⟨horganization, hrequest⟩⟩)

theorem latestDecision_eq_none {requestId : String}
    (h : db.latestDecision organizationId requestId = none) :
    ∀ d ∈ db.decisions, d.organizationId = organizationId → d.purchaseRequestId ≠ requestId := by
  intro d hd horganization hrequest
  have hnil := Table.latest_eq_none.mp h
  have hmem : d ∈ db.decisions.filter (fun d =>
      d.organizationId = organizationId ∧ d.purchaseRequestId = requestId) :=
    List.mem_filter.mpr ⟨hd, decide_eq_true ⟨horganization, hrequest⟩⟩
  rw [hnil] at hmem
  cases hmem

@[simp] theorem core_publish (event : OutboxEvent) : (db.publish event).core = db.core := by
  unfold publish
  dsimp only
  split <;> rfl

theorem addDecision_eq_ok {record : DecisionRecord} (h : db.addDecision record = .ok db') :
    db'.core = { db.core with decisions := db.decisions ++ [record] } ∧
      ∀ d ∈ db.decisions, d.id ≠ record.id := by
  simp only [addDecision, check_bind_eq_ok, constrain_eq_ok, pure_eq_ok] at h
  obtain ⟨hid, -, -, rfl⟩ := h
  exact ⟨rfl, by simpa using hid⟩

theorem addPatch_eq_ok {record : StackPatch} (h : db.addPatch record = .ok db') :
    db'.core = { db.core with patches := db.patches ++ [record] } := by
  simp only [addPatch, check_bind_eq_ok, pure_eq_ok] at h
  obtain ⟨-, rfl⟩ := h
  rfl

theorem addEvaluationGraph_eq_ok {run : EvaluationRun} {plans : List EvaluationSolutionPlan}
    (h : db.addEvaluationGraph organizationId run plans = .ok db') :
    db'.core = { db.core with
      evaluations := db.evaluations ++ [run]
      plans := db.plans ++ plans } ∧
    (∀ r ∈ db.evaluations, r.id ≠ run.id) ∧ (∀ p ∈ plans, p.evaluationRunId = run.id) := by
  unfold addEvaluationGraph at h
  simp only [unless_throw_eq_ok, check_bind_eq_ok, constrain_eq_ok,
    pure_eq_ok] at h
  obtain ⟨-, -, -, -, -, hbound, hid, -, -, -, -, rfl⟩ := h
  refine ⟨core_publish _, by simpa using hid, ?_⟩
  simpa using hbound

theorem addPurchaseIntent_eq_ok {record : PurchaseIntent}
    (h : db.addPurchaseIntent organizationId record = .ok db') :
    db'.core = { db.core with intents := db.intents ++ [record] } ∧
      ∀ i ∈ db.intents, i.id ≠ record.id := by
  unfold addPurchaseIntent at h
  simp only [unless_throw_eq_ok, check_bind_eq_ok, constrain_eq_ok,
    pure_eq_ok] at h
  obtain ⟨-, hid, -, -, -, -, rfl⟩ := h
  exact ⟨core_publish _, by simpa using hid⟩

theorem addApproval_eq_ok {record : ApprovalRequest} (h : db.addApproval record = .ok db') :
    db'.core = { db.core with approvals := db.approvals ++ [record] } ∧
      ∀ a ∈ db.approvals, a.id ≠ record.id := by
  simp only [addApproval, check_bind_eq_ok, constrain_eq_ok, pure_eq_ok] at h
  obtain ⟨hid, -, rfl⟩ := h
  exact ⟨rfl, by simpa using hid⟩

theorem addHandoff_eq_ok {record : PaymentHandoff} (h : db.addHandoff record = .ok db') :
    db'.core = { db.core with handoffs := db.handoffs ++ [record] } ∧
      ∀ x ∈ db.handoffs, x.id ≠ record.id := by
  simp only [addHandoff, check_bind_eq_ok, constrain_eq_ok, pure_eq_ok] at h
  obtain ⟨hid, -, -, rfl⟩ := h
  exact ⟨rfl, by simpa using hid⟩

theorem core_addWorkflow {record : WorkflowRun} (h : db.addWorkflow record = .ok db') :
    db'.core = db.core := by
  simp only [addWorkflow, check_bind_eq_ok, pure_eq_ok] at h
  obtain ⟨-, rfl⟩ := h
  rfl

theorem core_addBrief {record : PurchaseBriefVersion} (h : db.addBrief record = .ok db') :
    db'.core = db.core := by
  simp only [addBrief, check_bind_eq_ok, pure_eq_ok] at h
  obtain ⟨-, -, rfl⟩ := h
  rfl

theorem core_addRequirement {record : RequirementBriefVersion}
    (h : db.addRequirement record = .ok db') : db'.core = db.core := by
  simp only [addRequirement, check_bind_eq_ok, pure_eq_ok] at h
  obtain ⟨-, -, rfl⟩ := h
  rfl

theorem core_addDecisionSourceSnapshot {rt : Runtime} {record : DecisionSourceSnapshot}
    (h : db.addDecisionSourceSnapshot organizationId rt record = .ok db') :
    db'.core = db.core := by
  unfold addDecisionSourceSnapshot at h
  simp only [unless_throw_eq_ok, check_bind_eq_ok, pure_eq_ok] at h
  obtain ⟨-, -, -, -, -, rfl⟩ := h
  rfl

/-- The events once an event is recorded: an event of a key is recorded once. -/
def recorded (organizationId : String) (event : ApprovalEvent) (events : List ApprovalEvent) :
    List ApprovalEvent :=
  if events.any (fun e => e.organizationId = organizationId ∧ e.eventKey = event.eventKey) then
    events
  else events ++ [event]

theorem recordApprovalEvent_eq_ok {event : ApprovalEvent}
    (h : db.recordApprovalEvent organizationId event = .ok db') :
    db'.core = { db.core with
      approvalEvents := recorded organizationId event db.approvalEvents } ∧
    ∃ approval ∈ db.approvals, ∃ intent ∈ db.intents, approval.id = event.approvalRequestId ∧
      intent.id = approval.purchaseIntentId ∧ event.intentHash = approval.intentHash ∧
      event.intentHash = intent.intentHash ∧
      (approval.status = .pending ∨ approval.status = .approved) := by
  unfold recordApprovalEvent at h
  obtain ⟨approval, happroval, h⟩ := bind_eq_ok.mp h
  obtain ⟨intent, hintent, h⟩ := bind_eq_ok.mp h
  rw [unless_throw_eq_ok, unless_throw_eq_ok] at h
  obtain ⟨hhash, hstatus, h⟩ := h
  have hfound : approval ∈ db.approvals ∧ approval.id = event.approvalRequestId := by
    have hmem : approval ∈ db.approvals.filter (fun a =>
        a.id = event.approvalRequestId ∧ a.organizationId = organizationId) := by
      rw [mem_of_oneOrMissing happroval]
      exact List.mem_singleton_self approval
    simp only [List.mem_filter, decide_eq_true_eq] at hmem
    exact ⟨hmem.1, hmem.2.1⟩
  obtain ⟨hmem, hid, -⟩ := getPurchaseIntent_eq_ok hintent
  refine ⟨?_, approval, hfound.1, intent, hmem, hfound.2, hid, ?_, ?_, ?_⟩
  · unfold recorded
    split at h
    · next hsame =>
      cases h
      rw [if_pos hsame]
      rfl
    · next hnew =>
      obtain ⟨-, h⟩ := check_bind_eq_ok.mp h
      cases h
      rw [if_neg hnew]
      rfl
  · exact not_not.mp (fun hne => hhash (.inl hne))
  · exact not_not.mp (fun hne => hhash (.inr hne))
  · by_contra hclosed
    exact hstatus (not_or.mp hclosed)

end Laws

end PurchaseDb

/-! ## Retiring -/

namespace PurchaseCore

variable (organizationId : String)

/-- An intent is retired: what is under way ends superseded, and what can be opened is
    cancelled. -/
def retire (intent : PurchaseIntent) (core : PurchaseCore) : PurchaseCore :=
  { core with
    intents := if PurchaseDb.ApprovalIsLive intent.approvalStatus then
        Table.update (·.id) intent.id (fun i => { i with approvalStatus := .superseded }) core.intents
      else core.intents
    approvals := if PurchaseDb.ApprovalIsLive intent.approvalStatus then
        core.approvals.map (fun a =>
          if a.organizationId = organizationId ∧ a.purchaseIntentId = intent.id ∧
              (a.status = .pending ∨ a.status = .approved) then
            { a with status := .superseded }
          else a)
      else core.approvals
    handoffs := core.handoffs.map (fun h =>
      if h.organizationId = organizationId ∧ h.purchaseIntentId = intent.id ∧ h.status = .ready then
        { h with status := .cancelled }
      else h) }

/-- One intent of a tenant is retired. -/
inductive Retirement (core : PurchaseCore) : PurchaseCore → Prop
  | of {intent : PurchaseIntent} (hintent : intent ∈ core.intents)
      (htenant : intent.organizationId = organizationId) :
      Retirement core (core.retire organizationId intent)

/-- Intents of a tenant are retired one after the other. -/
abbrev Retires : PurchaseCore → PurchaseCore → Prop :=
  Relation.ReflTransGen (Retirement organizationId)

/-- No intent of an id can be approved, and no handoff of it can be opened. -/
structure Retired (intentId : String) (core : PurchaseCore) : Prop where
  dead : ∀ i ∈ core.intents, i.id = intentId → ¬ PurchaseDb.ApprovalIsLive i.approvalStatus
  closed : ∀ h ∈ core.handoffs, h.organizationId = organizationId → h.purchaseIntentId = intentId →
    h.status ≠ .ready

section Laws

variable {organizationId} {core core' : PurchaseCore} {intent : PurchaseIntent} {intentId : String}

theorem Retires.frame (h : Retires organizationId core core') :
    core'.decisions = core.decisions ∧ core'.evaluations = core.evaluations ∧
      core'.plans = core.plans ∧ core'.patches = core.patches ∧
      core'.approvalEvents = core.approvalEvents := by
  induction h with
  | refl => exact ⟨rfl, rfl, rfl, rfl, rfl⟩
  | tail _ hstep ih =>
    cases hstep
    exact ih

theorem Retires.preserves {I : PurchaseCore → Prop} (h : Retires organizationId core core')
    (hstep : ∀ c c', I c → Retirement organizationId c c' → I c') (hinit : I core) : I core' := by
  induction h with
  | refl => exact hinit
  | tail _ hlast ih => exact hstep _ _ ih hlast

theorem mem_retire_intents {i : PurchaseIntent} (h : i ∈ (core.retire organizationId intent).intents) :
    i ∈ core.intents ∧ (i.id = intent.id → ¬ PurchaseDb.ApprovalIsLive intent.approvalStatus) ∨
      ∃ r ∈ core.intents, r.id = intent.id ∧ PurchaseDb.ApprovalIsLive intent.approvalStatus ∧
        i = { r with approvalStatus := .superseded } := by
  simp only [retire] at h
  split at h
  · next hlive =>
    rcases Table.mem_update.mp h with ⟨r, hr, hid, rfl⟩ | ⟨hi, hne⟩
    · exact .inr ⟨r, hr, hid, hlive, rfl⟩
    · exact .inl ⟨hi, fun hid => absurd hid hne⟩
  · next hdead => exact .inl ⟨h, fun _ => hdead⟩

theorem mem_retire_approvals {a : ApprovalRequest}
    (h : a ∈ (core.retire organizationId intent).approvals) :
    ∃ r ∈ core.approvals, a = r ∨
      r.purchaseIntentId = intent.id ∧ a = { r with status := .superseded } := by
  simp only [retire] at h
  split at h
  · obtain ⟨r, hr, rfl⟩ := List.mem_map.mp h
    refine ⟨r, hr, ?_⟩
    split
    · next hopen => exact .inr ⟨hopen.2.1, rfl⟩
    · exact .inl rfl
  · exact ⟨a, h, .inl rfl⟩

theorem Retires.mem_approvals (h : Retires organizationId core core') :
    ∀ a ∈ core'.approvals, ∃ r ∈ core.approvals, a = r ∨ a = { r with status := .superseded } :=
  h.preserves (I := fun c => ∀ a ∈ c.approvals, ∃ r ∈ core.approvals,
      a = r ∨ a = { r with status := .superseded }) (fun c c' hc hone => by
    cases hone with
    | of _ _ =>
      intro a ha
      obtain ⟨r, hr, hrow⟩ := mem_retire_approvals ha
      obtain ⟨first, hfirst, hbefore⟩ := hc r hr
      refine ⟨first, hfirst, ?_⟩
      rcases hrow with rfl | ⟨-, rfl⟩
      · exact hbefore
      · rcases hbefore with rfl | rfl
        · exact .inr rfl
        · exact .inr rfl) (fun a ha => ⟨a, ha, .inl rfl⟩)

theorem Retires.closed_approvals (h : Retires organizationId core core') {a : ApprovalRequest}
    (ha : a ∈ core.approvals) (hclosed : ¬ (a.status = .pending ∨ a.status = .approved)) :
    a ∈ core'.approvals :=
  h.preserves (I := fun c => a ∈ c.approvals) (fun c c' hc hone => by
    cases hone with
    | of _ _ =>
      simp only [retire]
      split
      · exact List.mem_map.mpr ⟨a, hc, if_neg (fun hopen => hclosed hopen.2.2)⟩
      · exact hc) ha

theorem mem_retire_handoffs {h : PaymentHandoff} (hmem : h ∈ (core.retire organizationId intent).handoffs) :
    (h ∈ core.handoffs ∧ ¬ (h.organizationId = organizationId ∧ h.purchaseIntentId = intent.id ∧
      h.status = .ready)) ∨
      ∃ r ∈ core.handoffs, r.status = .ready ∧ r.purchaseIntentId = intent.id ∧
        h = { r with status := .cancelled } := by
  obtain ⟨r, hr, rfl⟩ := List.mem_map.mp hmem
  split
  · next hready => exact .inr ⟨r, hr, hready.2.2, hready.2.1, rfl⟩
  · next hother => exact .inl ⟨hr, hother⟩

theorem retired_retire (hkeyed : Table.Keyed (fun (i : PurchaseIntent) => i.id) core.intents)
    (hintent : intent ∈ core.intents) :
    Retired organizationId intent.id (core.retire organizationId intent) where
  dead := by
    intro i hi hid hlive
    rcases mem_retire_intents hi with ⟨hmem, hdead⟩ | ⟨r, -, -, -, rfl⟩
    · obtain rfl := hkeyed.eq hmem hintent hid
      exact hdead rfl hlive
    · simp [PurchaseDb.ApprovalIsLive] at hlive
  closed := by
    intro h hmem htenant hof hready
    rcases mem_retire_handoffs hmem with ⟨-, hother⟩ | ⟨r, -, -, -, rfl⟩
    · exact hother ⟨htenant, hof, hready⟩
    · cases hready

theorem Retired.retire (h : Retired organizationId intentId core) :
    Retired organizationId intentId (core.retire organizationId intent) where
  dead := by
    intro i hi hid hlive
    rcases mem_retire_intents hi with ⟨hmem, -⟩ | ⟨r, -, -, -, rfl⟩
    · exact h.dead i hmem hid hlive
    · simp [PurchaseDb.ApprovalIsLive] at hlive
  closed := by
    intro x hmem htenant hof hready
    rcases mem_retire_handoffs hmem with ⟨hmem, -⟩ | ⟨r, -, -, -, rfl⟩
    · exact h.closed x hmem htenant hof hready
    · cases hready

theorem Retires.retired (h : Retires organizationId core core')
    (hretired : Retired organizationId intentId core) : Retired organizationId intentId core' :=
  h.preserves (fun _ _ hinit hstep => by
    cases hstep
    exact hinit.retire) hretired

theorem keyed_retire (h : Table.Keyed (fun (i : PurchaseIntent) => i.id) core.intents) :
    Table.Keyed (fun (i : PurchaseIntent) => i.id) (core.retire organizationId intent).intents := by
  simp only [PurchaseCore.retire]
  split
  · exact h.update (fun _ => rfl)
  · exact h

end Laws

end PurchaseCore

namespace PurchaseDb

open PurchaseCore

section Laws

variable {organizationId : String} {db db' : PurchaseDb}

variable {currentDecisionId proposalId : String}

theorem supersedeIntent_eq_ok {intent : PurchaseIntent} {counted counted' : Nat × PurchaseDb}
    (h : supersedeIntent organizationId currentDecisionId proposalId intent counted = .ok counted') :
    counted'.2.core = counted.2.core.retire organizationId intent := by
  unfold supersedeIntent at h
  obtain ⟨superseded, db⟩ := counted
  dsimp only at h ⊢
  rw [unless_throw_eq_ok] at h
  obtain ⟨-, h⟩ := h
  have hretired : ((if ApprovalIsLive intent.approvalStatus then
      db.supersedeApprovals organizationId intent.id else db).cancelHandoffs organizationId
        intent.id).core = db.core.retire organizationId intent := by
    unfold PurchaseCore.retire
    split <;> rfl
  simp only [decide_eq_true_eq] at h
  generalize (if ApprovalIsLive intent.approvalStatus then
    db.supersedeApprovals organizationId intent.id else db) = retired at h hretired
  split at h
  · cases h
    exact (core_publish _).trans hretired
  · cases h
    exact hretired

theorem foldlM_supersedeIntent {intents : List PurchaseIntent} {counted counted' : Nat × PurchaseDb}
    (h : intents.foldlM (fun counted intent =>
      supersedeIntent organizationId currentDecisionId proposalId intent counted) counted =
        .ok counted')
    (hkeyed : Table.Keyed (fun (i : PurchaseIntent) => i.id) counted.2.core.intents)
    (hnodup : Table.Keyed (fun (i : PurchaseIntent) => i.id) intents)
    (hmem : ∀ intent ∈ intents, intent ∈ counted.2.core.intents ∧
      intent.organizationId = organizationId) :
    Retires organizationId counted.2.core counted'.2.core ∧
      ∀ intent ∈ intents, Retired organizationId intent.id counted'.2.core := by
  induction intents generalizing counted with
  | nil =>
    cases h
    exact ⟨.refl, fun _ hmem => absurd hmem List.not_mem_nil⟩
  | cons intent intents ih =>
    rw [List.foldlM_cons] at h
    obtain ⟨between, hfirst, hrest⟩ := bind_eq_ok.mp h
    have hcore := supersedeIntent_eq_ok hfirst
    obtain ⟨hintent, htenant⟩ := hmem intent List.mem_cons_self
    obtain ⟨hnew, hnodup⟩ := List.nodup_cons.mp hnodup
    obtain ⟨hlater, hretired⟩ := ih hrest (hcore ▸ keyed_retire hkeyed) hnodup
      (fun other hother => by
        obtain ⟨hin, hof⟩ := hmem other (List.mem_cons_of_mem _ hother)
        have hne : other.id ≠ intent.id := fun hid =>
          hnew (List.mem_map.mpr ⟨other, hother, hid⟩)
        refine ⟨?_, hof⟩
        rw [hcore]
        simp only [PurchaseCore.retire]
        split
        · exact Table.mem_update.mpr (.inr ⟨hin, hne⟩)
        · exact hin)
    rw [hcore] at hlater
    refine ⟨.head (.of hintent htenant) hlater, fun other hother => ?_⟩
    rcases List.mem_cons.mp hother with rfl | hother
    · exact hlater.retired (retired_retire hkeyed hintent)
    · exact hretired other hother

theorem supersedeIntents_eq_ok {requestId : String} {superseded : Nat}
    (h : db.supersedeIntentsForDecisionChange organizationId requestId currentDecisionId proposalId =
      .ok (superseded, db'))
    (hids : Table.Keyed (fun (i : PurchaseIntent) => i.id) db.intents) :
    Retires organizationId db.core db'.core ∧
      ∀ i ∈ db.intentsOfOthers organizationId requestId currentDecisionId,
        Retired organizationId i.id db'.core :=
  foldlM_supersedeIntent h hids (hids.filter _) (fun _ hintent => by
    obtain ⟨hmem, hof⟩ := List.mem_filter.mp hintent
    exact ⟨hmem, (of_decide_eq_true hof).1⟩)

end Laws

end PurchaseDb

end Persistence
