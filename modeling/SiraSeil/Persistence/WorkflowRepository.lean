-- SUMMARY: Idempotency records, the tables of workspaces beside them, and when a call under a key replays its record or runs.
import SiraSeil.Persistence.QualificationRepository

/-!
# Idempotency records

`WorkflowRepository` of `persistence/repositories.py`: a record of a tenant, an actor, an
operation and a key is claimed before the work of a call and completed after it, in one
transaction. The tables that the work reads and writes stand beside the records.
-/

namespace Persistence

open Domain

/-! ## Records -/

inductive IdempotencyState
  | started | completed
  deriving DecidableEq, Repr

structure IdempotencyRecord where
  id : String
  organizationId : String
  actorId : String
  operation : String
  idempotencyKey : String
  requestHash : String
  state : IdempotencyState
  responseStatus : Option Int
  responsePayload : Option (List (String × Value))
  responseReference : Option String

/-- Whose record a call looks for. -/
structure IdempotencyScope where
  organizationId : String
  actorId : String
  operation : String
  idempotencyKey : String
  deriving DecidableEq

def IdempotencyRecord.scope (record : IdempotencyRecord) : IdempotencyScope where
  organizationId := record.organizationId
  actorId := record.actorId
  operation := record.operation
  idempotencyKey := record.idempotencyKey

structure IdempotencyClaim where
  record : IdempotencyRecord
  replay : Bool

/-! ## Workspaces -/

inductive WorkspaceParty
  | buyer | seller
  deriving DecidableEq, Repr

/-- The mutable pointer to one party workspace's immutable settings history. -/
structure WorkspaceSettings where
  id : String
  organizationId : String
  party : WorkspaceParty
  currentVersionId : String
  currentVersion : Nat
  currentHash : String

structure WorkspaceSettingsVersion where
  id : String
  organizationId : String
  settingsId : String
  version : Nat
  contentHash : String
  payload : List (String × Value)
  changedByActorId : String
  changeReason : String

inductive CompanyContextState
  | active | retired
  deriving DecidableEq, Repr

structure CompanyContextItem where
  id : String
  organizationId : String
  kind : String
  label : String
  state : CompanyContextState
  currentVersionId : String
  currentVersion : Nat
  currentHash : String

structure CompanyContextVersion where
  id : String
  organizationId : String
  itemId : String
  version : Nat
  contentHash : String
  payload : List (String × Value)
  changedByActorId : String
  changeReason : String

/-- The tables that the work of a call reads and writes. -/
structure WorkspaceTables where
  organizations : List String := []
  qualification : QualificationDb := {}
  settings : List WorkspaceSettings := []
  settingsVersions : List WorkspaceSettingsVersion := []
  contextItems : List CompanyContextItem := []
  contextVersions : List CompanyContextVersion := []

structure Workspace where
  tables : WorkspaceTables := {}
  records : List IdempotencyRecord := []

/-! ## Claims -/

/-- The record of a scope. -/
def recordOf (scope : IdempotencyScope) (records : List IdempotencyRecord) :
    Option IdempotencyRecord :=
  records.find? (fun r => r.scope = scope)

/-- `claim_idempotency`: the row of a new claim refers to its tenant. -/
def claimIdempotency (scope : IdempotencyScope) (requestHash : String) (given : Given)
    (workspace : Workspace) : Qualified (IdempotencyClaim × Workspace) :=
  match recordOf scope workspace.records with
  | some existing =>
    if existing.requestHash ≠ requestHash then
      .error (.persistenceConflict
        "Idempotency key was already used with a different request body")
    else .ok (⟨existing, existing.state = .completed⟩, workspace)
  | none =>
    let record : IdempotencyRecord := {
      id := "idem_" ++ given.uuid "idem"
      organizationId := scope.organizationId
      actorId := scope.actorId
      operation := scope.operation
      idempotencyKey := scope.idempotencyKey
      requestHash := requestHash
      state := .started
      responseStatus := none
      responsePayload := none
      responseReference := none }
    if workspace.records.any (fun r => r.id = record.id) ||
        scope.organizationId ∉ workspace.tables.organizations then
      .error (.persistenceConflict "An idempotency claim raced and must be retried")
    else .ok (⟨record, false⟩, { workspace with records := workspace.records ++ [record] })

/-- `complete_idempotency` -/
def completeIdempotency (organizationId : String) (record : IdempotencyRecord)
    (responseStatus : Int) (responsePayload : List (String × Value)) (responseReference : String)
    (workspace : Workspace) : Qualified Workspace :=
  if record.organizationId ≠ organizationId then
    .error (.persistenceConflict "Cross-tenant write rejected")
  else .ok { workspace with
    records := Table.update (·.id) record.id (fun r => { r with
      state := .completed
      responseStatus := some responseStatus
      responsePayload := some responsePayload
      responseReference := some responseReference }) workspace.records }

end Persistence
