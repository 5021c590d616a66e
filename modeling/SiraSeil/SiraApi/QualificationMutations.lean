-- SUMMARY: The nine mutations of the qualification service under their idempotency keys: settings, company context, missions, approvals, responses, consents and introductions.
import SiraSeil.Library.Dict
import SiraSeil.Persistence.WorkflowRepository
import SiraSeil.SiraApi.QualificationService

/-!
# Mutations

`services/api/sira_api/qualification_service.py`: each mutation is one transaction that claims
the record of its key, does its work and completes the record. What it answers is kept in the
record, and a call that finds a completed record answers from it.
-/

namespace SiraApi

open Domain Persistence

/-! ## Answers -/

/-- What a mutation answers with: a status and a JSON document. -/
structure MutationReply where
  status : Int
  payload : List (String × Value)

/-- `payload[key] = value` -/
def setItem (key : String) (value : Value) (items : List (String × Value)) :
    List (String × Value) :=
  if key ∈ items.map (·.1) then Dict.overwrite key value items else items ++ [(key, value)]

/-- The resource that a mutation wrote. -/
structure Written where
  resourceType : String
  resourceId : String
  state : String
  inputDigest : Option String

def Written.answer (written : Written) : List (String × Value) :=
  [("resource_type", .str written.resourceType), ("resource_id", .str written.resourceId),
    ("state", .str written.state), ("input_digest", .opt .str written.inputDigest),
    ("replayed", .bool false)]

/-- What a completed record answers: a status that it lacks is the status of the operation. -/
def replayOf (status : Int) (record : IdempotencyRecord) : MutationReply where
  status := (record.responseStatus.filter (· ≠ 0)).getD status
  payload := setItem "replayed" (.bool true) (record.responsePayload.getD [])

/-! ## Names and bodies -/

def WorkspaceParty.name : WorkspaceParty → String
  | .buyer => "BUYER"
  | .seller => "SELLER"

structure SettingsBody where
  notificationChannels : Value
  quietHours : Value
  disclosureDefaults : Value
  changeReason : String

def SettingsBody.payload (body : SettingsBody) : List (String × Value) :=
  [("notification_channels", body.notificationChannels), ("quiet_hours", body.quietHours),
    ("disclosure_defaults", body.disclosureDefaults)]

structure CompanyContextCreate where
  kind : String
  label : String
  payload : List (String × Value)
  changeReason : String

structure CompanyContextUpdate where
  label : String
  payload : List (String × Value)
  changeReason : String

structure MissionCreate where
  buyerContext : List (String × Value)
  companyContextItemIds : List String
  requirementBrief : Value
  procurementPolicy : Value

/-- `_default_workspace_settings` -/
def defaultWorkspaceSettings : List (String × Value) :=
  [("notification_channels", .obj [("in_app", .bool true), ("email", .bool false)]),
    ("quiet_hours", .obj [("enabled", .bool false), ("start", .str "22:00"), ("end", .str "07:00"),
      ("timezone", .str "Asia/Kolkata")]),
    ("disclosure_defaults", .obj [("allow_anonymized_requirement_preview", .bool true),
      ("share_organization_name_after_consent", .bool false),
      ("allow_outcome_follow_up", .bool true)])]

/-- Whether tenants without a row are provisioned, and whether the database is SQLite. -/
structure TenantBootstrap where
  allowDevelopment : Bool
  sqlite : Bool

/-! ## The mutations -/

namespace Mutations

section Mutations

variable (rt : Runtime) (organizationId actorId idempotencyKey : String)

/-- A call under its key: a completed record answers for it, and otherwise its work is done. -/
def idempotently (operation requestHash : String) (status : Int)
    (write : WorkspaceTables → Qualified (Written × WorkspaceTables)) (given : Given)
    (workspace : Workspace) : Qualified (MutationReply × Workspace) := do
  let (claim, claimed) ← claimIdempotency ⟨organizationId, actorId, operation, idempotencyKey⟩
    requestHash given workspace
  if claim.replay then
    return (replayOf status claim.record, claimed)
  else
    let (written, tables) ← write claimed.tables
    let completed ← completeIdempotency organizationId claim.record status written.answer
      written.resourceId { claimed with tables := tables }
    return (⟨status, written.answer⟩, completed)

/-- An event of the mutation is added once. -/
def publish (event : OutboxEvent) (tables : WorkspaceTables) : WorkspaceTables :=
  { tables with qualification := addOutboxOnce event tables.qualification }

/-- What `If-Match` is compared with: the current settings, or the defaults. -/
def expectedSettingsHash : Option WorkspaceSettings → Qualified String
  | some settings => .ok settings.currentHash
  | none => contentDigest rt (.obj defaultWorkspaceSettings)

/-- The new version of the settings, with the pointer to it. -/
def writeSettings (party : WorkspaceParty) (ifMatch digest changeReason : String)
    (payload : List (String × Value)) (given : Given) (tables : WorkspaceTables) :
    Qualified (Written × WorkspaceTables) := do
  let settings := tables.settings.find? (fun s =>
    s.organizationId = organizationId ∧ s.party = party)
  let expectedHash ← expectedSettingsHash rt settings
  verifyMatch ifMatch expectedHash
  if settings.any (fun s => s.currentHash = digest) then
    throw (.api "WORKSPACE_SETTINGS_UNCHANGED"
      "The proposed settings are identical to the current version." 409)
  let versionId := "wsetver_" ++ given.uuid "wsetver"
  let (settingsId, versionNumber) := match settings with
    | some s => (s.id, s.currentVersion + 1)
    | none => ("wsettings_" ++ given.uuid "wsettings", 1)
  constrain (settings.isNone && tables.settings.any (fun s => s.id = settingsId))
    "qualification_workspace_settings_pkey"
  constrain (tables.settingsVersions.any (fun v => v.id = versionId))
    "qualification_workspace_setting_versions_pkey"
  constrain (tables.settingsVersions.any (fun v => v.organizationId = organizationId ∧
    v.settingsId = settingsId ∧ v.version = versionNumber)) "uq_workspace_settings_revision"
  let heads : List WorkspaceSettings := match settings with
    | some _ => Table.update (·.id) settingsId (fun s => { s with
        currentVersionId := versionId
        currentVersion := versionNumber
        currentHash := digest }) tables.settings
    | none => tables.settings ++ [{
        id := settingsId
        organizationId := organizationId
        party := party
        currentVersionId := versionId
        currentVersion := versionNumber
        currentHash := digest }]
  return (⟨"workspace_settings", settingsId, "ACTIVE", some digest⟩, publish {
    organizationId := organizationId
    aggregateType := "WORKSPACE_SETTINGS"
    aggregateId := settingsId
    eventType := "WORKSPACE_SETTINGS_VERSION_PUBLISHED"
    eventKey := "workspace-settings-version:" ++ versionId
    payload := [("party", .str (WorkspaceParty.name party)), ("version_id", .str versionId),
      ("content_hash", .str digest)] }
    { tables with
      settings := heads
      settingsVersions := tables.settingsVersions ++ [{
        id := versionId
        organizationId := organizationId
        settingsId := settingsId
        version := versionNumber
        contentHash := digest
        payload := payload
        changedByActorId := actorId
        changeReason := changeReason }] })

def updateWorkspaceSettings (party : WorkspaceParty) (ifMatch : String) (body : SettingsBody)
    (given : Given) (workspace : Workspace) : Qualified (MutationReply × Workspace) := do
  let payload := SettingsBody.payload body
  let digest ← contentDigest rt (.obj payload)
  let requestHash ← contentDigest rt
    (.obj [("party", .str (WorkspaceParty.name party)), ("payload", .obj payload)])
  idempotently organizationId actorId idempotencyKey
    ("qualification.workspace_settings.update:" ++ WorkspaceParty.name party) requestHash 200
    (writeSettings rt organizationId actorId party ifMatch digest body.changeReason payload given)
    given workspace

/-! ### Company context -/

/-- The event of a version of an item. -/
def contextVersionEvent (itemId versionId digest : String) : OutboxEvent where
  organizationId := organizationId
  aggregateType := "COMPANY_CONTEXT_ITEM"
  aggregateId := itemId
  eventType := "COMPANY_CONTEXT_VERSION_PUBLISHED"
  eventKey := "company-context-version:" ++ versionId
  payload := [("item_id", .str itemId), ("version_id", .str versionId),
    ("content_hash", .str digest)]

def writeContextItem (body : CompanyContextCreate) (given : Given) (tables : WorkspaceTables) :
    Qualified (Written × WorkspaceTables) := do
  let itemId := "ctxitem_" ++ given.uuid "ctxitem"
  let versionId := "ctxver_" ++ given.uuid "ctxver"
  let digest ← contentDigest rt (.obj body.payload)
  constrain (body.kind ∉ ["REQUIREMENT", "CONSTRAINT", "STACK", "POLICY", "PREFERENCE", "NOTE"])
    "ck_qualification_context_kind"
  constrain (tables.contextItems.any (fun i => i.id = itemId))
    "qualification_company_context_items_pkey"
  constrain (tables.contextVersions.any (fun v => v.id = versionId))
    "qualification_company_context_versions_pkey"
  return (⟨"company_context_item", itemId, "ACTIVE", some digest⟩,
    publish (contextVersionEvent organizationId itemId versionId digest) { tables with
      contextItems := tables.contextItems ++ [{
        id := itemId
        organizationId := organizationId
        kind := body.kind
        label := body.label
        state := .active
        currentVersionId := versionId
        currentVersion := 1
        currentHash := digest }]
      contextVersions := tables.contextVersions ++ [{
        id := versionId
        organizationId := organizationId
        itemId := itemId
        version := 1
        contentHash := digest
        payload := body.payload
        changedByActorId := actorId
        changeReason := body.changeReason }] })

def createCompanyContext (body : CompanyContextCreate) (given : Given) (workspace : Workspace) :
    Qualified (MutationReply × Workspace) := do
  let requestHash ← contentDigest rt (.obj [("kind", .str body.kind), ("label", .str body.label),
    ("payload", .obj body.payload), ("change_reason", .str body.changeReason)])
  idempotently organizationId actorId idempotencyKey "qualification.company_context.create"
    requestHash 201 (writeContextItem rt organizationId actorId body given) given workspace

/-- `_company_context_item` -/
def companyContextItem (itemId : String) (tables : WorkspaceTables) :
    Qualified CompanyContextItem :=
  match tables.contextItems.find? (fun i => i.organizationId = organizationId ∧ i.id = itemId) with
  | none => .error (.api "COMPANY_CONTEXT_NOT_FOUND" "Company context item was not found." 404)
  | some item => .ok item

/-- A revision of an item that was read before. -/
def reviseContextItem (item : CompanyContextItem) (body : CompanyContextUpdate) (given : Given)
    (tables : WorkspaceTables) : Qualified (Written × WorkspaceTables) := do
  let digest ← contentDigest rt (.obj body.payload)
  if digest = item.currentHash ∧ body.label = item.label then
    throw (.api "COMPANY_CONTEXT_UNCHANGED"
      "The proposed revision is identical to the current version." 409)
  let versionId := "ctxver_" ++ given.uuid "ctxver"
  let version := item.currentVersion + 1
  constrain (tables.contextVersions.any (fun v => v.id = versionId))
    "qualification_company_context_versions_pkey"
  constrain (tables.contextVersions.any (fun v => v.organizationId = organizationId ∧
    v.itemId = item.id ∧ v.version = version)) "uq_qualification_context_revision"
  return (⟨"company_context_item", item.id, "ACTIVE", some digest⟩,
    publish (contextVersionEvent organizationId item.id versionId digest) { tables with
      contextItems := Table.update (·.id) item.id (fun i => { i with
        label := body.label
        currentVersionId := versionId
        currentVersion := version
        currentHash := digest }) tables.contextItems
      contextVersions := tables.contextVersions ++ [{
        id := versionId
        organizationId := organizationId
        itemId := item.id
        version := version
        contentHash := digest
        payload := body.payload
        changedByActorId := actorId
        changeReason := body.changeReason }] })

/-- The item is read and compared with `If-Match` before the record of the key is claimed. -/
def updateCompanyContext (itemId ifMatch : String) (body : CompanyContextUpdate) (given : Given)
    (workspace : Workspace) : Qualified (MutationReply × Workspace) := do
  let requestHash ← contentDigest rt (.obj [("label", .str body.label),
    ("payload", .obj body.payload), ("change_reason", .str body.changeReason)])
  let item ← companyContextItem organizationId itemId workspace.tables
  verifyMatch ifMatch item.currentHash
  if item.state ≠ .active then
    throw (.api "COMPANY_CONTEXT_RETIRED" "Retired context cannot be revised." 409)
  idempotently organizationId actorId idempotencyKey
    ("qualification.company_context.update:" ++ itemId) requestHash 200
    (reviseContextItem rt organizationId actorId item body given) given workspace

def retireContextItem (item : CompanyContextItem) (tables : WorkspaceTables) :
    Qualified (Written × WorkspaceTables) :=
  return (⟨"company_context_item", item.id, "RETIRED", some item.currentHash⟩, publish {
    organizationId := organizationId
    aggregateType := "COMPANY_CONTEXT_ITEM"
    aggregateId := item.id
    eventType := "COMPANY_CONTEXT_RETIRED"
    eventKey := "company-context-retired:" ++ item.id ++ ":" ++ item.currentHash
    payload := [("item_id", .str item.id), ("content_hash", .str item.currentHash)] }
    { tables with
      contextItems := Table.update (·.id) item.id (fun i => { i with state := .retired })
        tables.contextItems })

def retireCompanyContext (itemId ifMatch : String) (given : Given) (workspace : Workspace) :
    Qualified (MutationReply × Workspace) := do
  let item ← companyContextItem organizationId itemId workspace.tables
  verifyMatch ifMatch item.currentHash
  let requestHash ← contentDigest rt
    (.obj [("item_id", .str itemId), ("digest", .str item.currentHash)])
  idempotently organizationId actorId idempotencyKey
    ("qualification.company_context.retire:" ++ itemId) requestHash 200
    (retireContextItem organizationId item) given workspace

/-! ### Missions -/

/-- A tenant without a row is provisioned where that is allowed. -/
def provisionOrganization (bootstrap : TenantBootstrap) (tables : WorkspaceTables) :
    Qualified WorkspaceTables :=
  if organizationId ∈ tables.organizations then .ok tables
  else if bootstrap.allowDevelopment && (bootstrap.sqlite ||
      startsWith organizationId "org_guest_" || startsWith organizationId "org_user_") then
    .ok { tables with organizations := tables.organizations ++ [organizationId] }
  else .error (.api "ORGANIZATION_NOT_PROVISIONED"
    "The verified organization is not provisioned in canonical state." 403)

/-- The memory of the selected items, each with the payload of its current version. -/
def companyMemory (itemIds : List String) (tables : WorkspaceTables) : Qualified Value := do
  let items := tables.contextItems.filter (fun i =>
    i.organizationId = organizationId ∧ i.id ∈ itemIds ∧ i.state = .active)
  if !itemIds.all (fun id => items.any (fun i => i.id = id)) then
    throw (.api "COMPANY_CONTEXT_SELECTION_INVALID"
      "One or more selected context items are missing or retired." 409)
  let memory ← (Sorting.sortedBy (·.id) items).mapM (fun i =>
    match tables.contextVersions.find? (fun v =>
        v.organizationId = organizationId ∧ v.id = i.currentVersionId) with
    | none => .error (.domain (.key i.currentVersionId))
    | some version => .ok (.obj [("item_id", .str i.id), ("kind", .str i.kind),
        ("label", .str i.label), ("version_id", .str i.currentVersionId),
        ("version", .nat i.currentVersion), ("content_hash", .str i.currentHash),
        ("payload", .obj version.payload)]))
  return .seq memory

/-- The buyer context of a mission, with the selected company context in it. -/
def missionContext (body : MissionCreate) (tables : WorkspaceTables) :
    Qualified (List (String × Value)) :=
  if body.companyContextItemIds = [] then .ok body.buyerContext
  else (companyMemory organizationId body.companyContextItemIds tables).map
    (fun memory => setItem "company_memory" memory body.buyerContext)

def writeMission (traceId : String) (body : MissionCreate) (given : Given)
    (tables : WorkspaceTables) : Qualified (Written × WorkspaceTables) := do
  let buyerContext ← missionContext organizationId body tables
  let (missionId, qualification) ← SiraApi.createMission rt organizationId
    ⟨.obj buyerContext, body.requirementBrief, body.procurementPolicy, traceId⟩ given
    tables.qualification
  return (⟨"qualification_mission", missionId, "READY", none⟩,
    { tables with qualification := qualification })

def createMission (bootstrap : TenantBootstrap) (traceId : String) (body : MissionCreate)
    (given : Given) (workspace : Workspace) : Qualified (MutationReply × Workspace) := do
  let requestHash ← contentDigest rt (.obj [("buyer_context", .obj body.buyerContext),
    ("company_context_item_ids", .strs body.companyContextItemIds),
    ("requirement_brief", body.requirementBrief), ("procurement_policy", body.procurementPolicy)])
  let provisioned ← provisionOrganization organizationId bootstrap workspace.tables
  idempotently organizationId actorId idempotencyKey "qualification.missions.create" requestHash 201
    (writeMission rt organizationId traceId body given) given
    { workspace with tables := provisioned }

/-! ### Approvals and engagements -/

/-- The work of an operation on the tables of qualification. -/
def onQualification {α : Type} (written : α → Written)
    (work : QualificationDb → Qualified (α × QualificationDb)) (tables : WorkspaceTables) :
    Qualified (Written × WorkspaceTables) := do
  let (result, qualification) ← work tables.qualification
  return (written result, { tables with qualification := qualification })

def writeApproval (decisionId ifMatch reason : String) (action : ApprovalAction) (given : Given)
    (tables : WorkspaceTables) : Qualified (Written × WorkspaceTables) :=
  let decision := tables.qualification.decisions.find? (fun d =>
    d.organizationId = organizationId ∧ d.id = decisionId ∧ d.current)
  let (resourceType, state) := if action = .approve then ("marketplace_engagement", "OPEN")
    else ("decision", "REJECTED")
  onQualification (fun id => ⟨resourceType, id, state, decision.map (·.inputDigest)⟩)
    (SiraApi.decideApproval organizationId decisionId actorId ifMatch reason action given) tables

def decideApproval (decisionId ifMatch reason : String) (action : ApprovalAction) (given : Given)
    (workspace : Workspace) : Qualified (MutationReply × Workspace) := do
  let actionName := if action = .approve then "APPROVE" else "REJECT"
  let requestHash ← contentDigest rt (.obj [("decision_id", .str decisionId),
    ("action", .str actionName), ("reason", .str reason)])
  idempotently organizationId actorId idempotencyKey
    ("qualification.decisions." ++ decisionId ++ ".approval") requestHash 200
    (writeApproval organizationId actorId decisionId ifMatch reason action given) given workspace

def respond (engagementId ifMatch response : String) (citedEvidenceIds : List String)
    (message : Option String) (given : Given) (workspace : Workspace) :
    Qualified (MutationReply × Workspace) := do
  let requestHash ← contentDigest rt (.obj [("engagement_id", .str engagementId),
    ("response", .str response), ("cited_evidence_ids", .strs citedEvidenceIds),
    ("message", .opt .str message)])
  idempotently organizationId actorId idempotencyKey
    ("qualification.engagements." ++ engagementId ++ ".respond") requestHash 201
    (onQualification (fun r => ⟨"seller_response", r.id, r.response, some r.inputDigest⟩)
      (SiraApi.respond organizationId engagementId actorId ifMatch response citedEvidenceIds
        message given)) given workspace

def partyName : ConsentParty → String
  | .buyer => "BUYER"
  | .seller => "SELLER"

/-- `party.lower()` -/
def partyKey : ConsentParty → String
  | .buyer => "buyer"
  | .seller => "seller"

def consent (party : ConsentParty) (engagementId ifMatch : String)
    (sharedFields : List (String × Value)) (given : Given) (workspace : Workspace) :
    Qualified (MutationReply × Workspace) := do
  let requestHash ← contentDigest rt (.obj [("engagement_id", .str engagementId),
    ("party", .str (partyName party)), ("shared_fields", .obj sharedFields)])
  idempotently organizationId actorId idempotencyKey
    ("qualification.engagements." ++ engagementId ++ ".consent." ++ partyKey party) requestHash 201
    (onQualification (fun c => ⟨"marketplace_consent", c.id, "GRANTED", some c.inputDigest⟩)
      (SiraApi.consent rt organizationId party engagementId actorId ifMatch sharedFields given))
    given workspace

def introduce (engagementId ifMatch : String) (sharedFields : List (String × Value))
    (given : Given) (workspace : Workspace) : Qualified (MutationReply × Workspace) := do
  let requestHash ← contentDigest rt (.obj [("engagement_id", .str engagementId),
    ("shared_fields", .obj sharedFields)])
  idempotently organizationId actorId idempotencyKey
    ("qualification.engagements." ++ engagementId ++ ".introduce") requestHash 201
    (onQualification (fun i => ⟨"qualified_introduction", i.id, "INTRODUCED", some i.inputDigest⟩)
      (SiraApi.introduce rt organizationId engagementId ifMatch sharedFields given)) given workspace

end Mutations

end Mutations

/-! ## Calls -/

inductive Mutation
  | updateWorkspaceSettings (party : WorkspaceParty) (ifMatch : String) (body : SettingsBody)
  | createCompanyContext (body : CompanyContextCreate)
  | updateCompanyContext (itemId ifMatch : String) (body : CompanyContextUpdate)
  | retireCompanyContext (itemId ifMatch : String)
  | createMission (traceId : String) (body : MissionCreate)
  | decideApproval (decisionId ifMatch reason : String) (action : ApprovalAction)
  | respond (engagementId ifMatch response : String) (citedEvidenceIds : List String)
      (message : Option String)
  | consent (party : ConsentParty) (engagementId ifMatch : String)
      (sharedFields : List (String × Value))
  | introduce (engagementId ifMatch : String) (sharedFields : List (String × Value))

/-- A mutation by an actor of a tenant, under a key. -/
structure MutationCall where
  organizationId : String
  actorId : String
  idempotencyKey : String
  mutation : Mutation

def mutate (rt : Runtime) (bootstrap : TenantBootstrap) (call : MutationCall) (given : Given)
    (workspace : Workspace) : Qualified (MutationReply × Workspace) :=
  let organizationId := call.organizationId
  let actorId := call.actorId
  let idempotencyKey := call.idempotencyKey
  match call.mutation with
  | .updateWorkspaceSettings party ifMatch body =>
    Mutations.updateWorkspaceSettings rt organizationId actorId idempotencyKey party ifMatch body
      given workspace
  | .createCompanyContext body =>
    Mutations.createCompanyContext rt organizationId actorId idempotencyKey body given workspace
  | .updateCompanyContext itemId ifMatch body =>
    Mutations.updateCompanyContext rt organizationId actorId idempotencyKey itemId ifMatch body given
      workspace
  | .retireCompanyContext itemId ifMatch =>
    Mutations.retireCompanyContext rt organizationId actorId idempotencyKey itemId ifMatch given
      workspace
  | .createMission traceId body =>
    Mutations.createMission rt organizationId actorId idempotencyKey bootstrap traceId body given
      workspace
  | .decideApproval decisionId ifMatch reason action =>
    Mutations.decideApproval rt organizationId actorId idempotencyKey decisionId ifMatch reason
      action given workspace
  | .respond engagementId ifMatch response citedEvidenceIds message =>
    Mutations.respond rt organizationId actorId idempotencyKey engagementId ifMatch response
      citedEvidenceIds message given workspace
  | .consent party engagementId ifMatch sharedFields =>
    Mutations.consent rt organizationId actorId idempotencyKey party engagementId ifMatch
      sharedFields given workspace
  | .introduce engagementId ifMatch sharedFields =>
    Mutations.introduce rt organizationId actorId idempotencyKey engagementId ifMatch sharedFields
      given workspace

end SiraApi
