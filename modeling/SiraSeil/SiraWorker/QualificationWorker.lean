-- SUMMARY: The transactions of the qualification worker and of its queue consumer.
import SiraSeil.Library.Interleaving
import SiraSeil.Persistence.QualificationRepository
import Mathlib.Data.Prod.Lex

/-!
# The qualification worker

`services/worker/sira_worker/qualification.py` and `queue_consumer.py`. A delivered
message is processed by transactions in the tenant of its envelope. What the catalog
search and the model answer is given to them.
-/

namespace SiraWorker

open Domain Persistence Sorting Interleaving

/-! ## Candidates -/

/-- The columns of a candidate that the worker uses. -/
structure VectorCandidate where
  productId : String
  organizationId : String
  bundleId : String
  bundleDigest : String
  deriving DecidableEq

/-- `_stable_id` -/
def stableId (kind value : String) : String :=
  kind ++ "_" ++ String.ofList ((Sha256.hexdigest (Runtime.utf8 value.toList)).toList.take 32)

/-! ## Preparing an attempt -/

section Transactions

variable (organizationId : String)

/-- The attempts of a mission. -/
def attemptsOf (missionId : String) (db : QualificationDb) : List QualificationAttempt :=
  db.attempts.filter (fun a => a.organizationId = organizationId ∧ a.missionId = missionId)

/-- The queued attempt of a mission that comes first. -/
def queuedAttempt (missionId : String) (db : QualificationDb) : Option QualificationAttempt :=
  (sortedBy (fun a => toLex (a.replacementDepth, a.createdAt))
    ((attemptsOf organizationId missionId db).filter (·.state = .queued))).head?

/-- The queued attempt of a mission, or its first attempt. -/
def chooseAttempt (missionId : String) (given : Given) (db : QualificationDb) :
    Qualified (QualificationAttempt × QualificationDb) :=
  match queuedAttempt organizationId missionId db with
  | some attempt => .ok (attempt, db)
  | none =>
    if attemptsOf organizationId missionId db ≠ [] then
      .error (.persistenceConflict "qualification mission has no claimable attempt")
    else do
      let attempt : QualificationAttempt := {
        id := stableId "qattempt" missionId
        organizationId := organizationId
        missionId := missionId
        rootAttemptId := stableId "qattempt" missionId
        predecessorAttemptId := none
        replacementDepth := 0
        state := .queued
        generation := 0
        createdAt := given.now }
      constrain (db.attempts.any (fun a => a.id = attempt.id)) "qualification_attempts_pkey"
      return (attempt, { db with attempts := db.attempts ++ [attempt] })

/-- The candidates are pinned to an attempt that has no bundles yet. -/
def pinCandidates (missionId attemptId : String) (candidates : List VectorCandidate)
    (db : QualificationDb) : Qualified QualificationDb :=
  if db.bundlesOf organizationId attemptId ≠ [] then .ok db
  else do
    constrain (!decide (candidates.map (·.productId)).Nodup) "uq_qualification_attempt_product"
    return { db with missionBundles := db.missionBundles ++ candidates.map (fun c =>
      ⟨organizationId, missionId, attemptId, c.productId, c.organizationId, c.bundleId,
        c.bundleDigest⟩) }

/-- The event of an attempt is added once. -/
def announceAttempt (missionId attemptId : String) (db : QualificationDb) :
    Qualified QualificationDb :=
  let eventKey := "qualification-attempt-ready:" ++ attemptId
  if db.outbox.any (fun e => e.organizationId = organizationId ∧ e.eventKey = eventKey) then .ok db
  else addOutbox {
    organizationId := organizationId
    aggregateType := "QUALIFICATION_ATTEMPT"
    aggregateId := attemptId
    eventType := "QUALIFICATION_ATTEMPT_READY"
    eventKey := eventKey
    payload := [("mission_id", .str missionId), ("attempt_id", .str attemptId)] } db

/-- `_prepare_attempt` -/
def prepareAttempt (missionId : String) (candidates : List VectorCandidate) (given : Given)
    (db : QualificationDb) : Qualified (String × QualificationDb) :=
  match db.mission? organizationId missionId with
  | none => .error (.recordNotFound "qualification mission was not found")
  | some mission => do
    let (attempt, chosen) ← chooseAttempt organizationId missionId given db
    let pinned ← pinCandidates organizationId missionId attempt.id candidates chosen
    let db ← announceAttempt organizationId mission.id attempt.id { pinned with
      missions := Table.update (·.id) mission.id (fun m => { m with state := .running })
        pinned.missions }
    return (attempt.id, db)

/-- `_claim_and_snapshot` -/
def claimAndSnapshot (rt : Runtime) (leaseOwner attemptId : String) (given : Given)
    (db : QualificationDb) : Qualified (AttemptLease × QualificationDb) := do
  let (lease, claimed) ← claimAttempt organizationId attemptId leaseOwner 300 given db
  let (_, db) ← snapshotAttempt rt organizationId lease given claimed
  return (lease, db)

/-! ## The evaluation -/

structure QualificationCriterion where
  citedDependencyIds : List String

/-- What the model decided, as it was validated. -/
structure QualificationAgentDecision where
  recommendedProductId : String
  citedDependencyIds : List String
  criteria : List QualificationCriterion
  payload : List (String × Value)

/-- `_finalize` -/
def finalizeEvaluation (rt : Runtime) (lease : AttemptLease)
    (decision : QualificationAgentDecision) (given : Given) (db : QualificationDb) :
    Qualified (FinalizationResult × QualificationDb) := do
  let (result, db) ← finalizeAttempt rt organizationId lease decision.recommendedProductId
    decision.payload decision.citedDependencyIds given db
  match result with
  | .stale .. => return (result, db)
  | .completed .. =>
    match db.attempts.find? (fun a => a.id = lease.attemptId) with
    | none => throw (.recordNotFound "qualification attempt was not found")
    | some attempt =>
      match db.missions.find? (fun m => m.id = attempt.missionId) with
      | none => throw (.recordNotFound "qualification mission was not found")
      | some mission => return (result, { db with
          missions := Table.update (·.id) mission.id
            (fun m => { m with state := .awaitingApproval }) db.missions })

/-! ## The queue consumer -/

/-- What the consumer uses of a validated envelope, with the digest of its body. -/
structure QualificationEnvelope where
  messageId : String
  organizationId : String
  aggregateId : String
  bodyDigest : String

def consumerName : String :=
  "qualification-worker-v1"

/-- `f"sha256:{body_digest}"` -/
def QualificationEnvelope.payloadHash (envelope : QualificationEnvelope) : String :=
  "sha256:" ++ envelope.bodyDigest

/-- `_receipt` -/
def receiptOf (envelope : QualificationEnvelope) (db : QualificationDb) :
    Option ConsumerReceipt :=
  db.receipts.find? (fun r => r.organizationId = envelope.organizationId ∧
    r.consumerName = consumerName ∧ r.messageId = envelope.messageId)

/-- `_record_receipt` -/
def recordReceipt (envelope : QualificationEnvelope) (resultRef : String) (db : QualificationDb) :
    Qualified (Unit × QualificationDb) :=
  match receiptOf envelope db with
  | some existing =>
    if existing.payloadHash ≠ envelope.payloadHash then
      .error (.valueError "replayed message identity has a different payload hash")
    else .ok ((), db)
  | none => do
    -- The id of a receipt comes from its message alone.
    constrain (db.receipts.any (fun r =>
      stableId "qreceipt" r.messageId = stableId "qreceipt" envelope.messageId))
      "qualification_consumer_receipts_pkey"
    return ((), { db with receipts := db.receipts ++
      [⟨envelope.organizationId, consumerName, envelope.messageId, envelope.payloadHash,
        resultRef⟩] })

end Transactions

end SiraWorker
