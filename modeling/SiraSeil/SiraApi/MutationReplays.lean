-- SUMMARY: A mutation that succeeded and is repeated later replays its record and changes nothing, except for the revision of an item that has changed since.
import SiraSeil.Library.Transactions
import SiraSeil.SiraApi.QualificationMutations

/-!
# Retried mutations

A mutation makes some checks, claims the record of its key and then does its work. What comes
after the claim is not repeated by a retry; what comes before it is. `updateCompanyContext`
compares `If-Match` before, and its own success changes the digest that is compared.
-/

namespace SiraApi

open Domain Persistence Raising

/-! ## Keys and checks -/

/-- Under which name a mutation claims its record. -/
def Mutation.operation : Mutation → String
  | .updateWorkspaceSettings party _ _ =>
    "qualification.workspace_settings.update:" ++ WorkspaceParty.name party
  | .createCompanyContext _ => "qualification.company_context.create"
  | .updateCompanyContext itemId _ _ => "qualification.company_context.update:" ++ itemId
  | .retireCompanyContext itemId _ => "qualification.company_context.retire:" ++ itemId
  | .createMission _ _ => "qualification.missions.create"
  | .decideApproval decisionId _ _ _ => "qualification.decisions." ++ decisionId ++ ".approval"
  | .respond engagementId _ _ _ _ => "qualification.engagements." ++ engagementId ++ ".respond"
  | .consent party engagementId _ _ =>
    "qualification.engagements." ++ engagementId ++ ".consent." ++ Mutations.partyKey party
  | .introduce engagementId _ _ => "qualification.engagements." ++ engagementId ++ ".introduce"

/-- With which status a mutation answers. -/
def Mutation.status : Mutation → Int
  | .updateWorkspaceSettings .. | .updateCompanyContext .. | .retireCompanyContext ..
  | .decideApproval .. => 200
  | .createCompanyContext .. | .createMission .. | .respond .. | .consent .. | .introduce .. => 201

def MutationCall.scope (call : MutationCall) : IdempotencyScope :=
  ⟨call.organizationId, call.actorId, call.mutation.operation, call.idempotencyKey⟩

section Calls

variable (rt : Runtime) (bootstrap : TenantBootstrap)

/-- What a call does before it claims its record: the hash of its request, and the tables, in
    which its tenant may have been provisioned. -/
def beforeClaim (call : MutationCall) (tables : WorkspaceTables) : Qualified (String × WorkspaceTables) :=
  match call.mutation with
  | .updateWorkspaceSettings party _ body => do
    let _ ← contentDigest rt (.obj (SettingsBody.payload body))
    let requestHash ← contentDigest rt (.obj [("party", .str (WorkspaceParty.name party)),
      ("payload", .obj (SettingsBody.payload body))])
    return (requestHash, tables)
  | .createCompanyContext body => do
    let requestHash ← contentDigest rt (.obj [("kind", .str body.kind), ("label", .str body.label),
      ("payload", .obj body.payload), ("change_reason", .str body.changeReason)])
    return (requestHash, tables)
  | .updateCompanyContext itemId ifMatch body => do
    let requestHash ← contentDigest rt (.obj [("label", .str body.label),
      ("payload", .obj body.payload), ("change_reason", .str body.changeReason)])
    let item ← Mutations.companyContextItem call.organizationId itemId tables
    verifyMatch ifMatch item.currentHash
    if item.state ≠ .active then
      throw (.api "COMPANY_CONTEXT_RETIRED" "Retired context cannot be revised." 409)
    return (requestHash, tables)
  | .retireCompanyContext itemId ifMatch => do
    let item ← Mutations.companyContextItem call.organizationId itemId tables
    verifyMatch ifMatch item.currentHash
    let requestHash ← contentDigest rt
      (.obj [("item_id", .str itemId), ("digest", .str item.currentHash)])
    return (requestHash, tables)
  | .createMission _ body => do
    let requestHash ← contentDigest rt (.obj [("buyer_context", .obj body.buyerContext),
      ("company_context_item_ids", .strs body.companyContextItemIds),
      ("requirement_brief", body.requirementBrief),
      ("procurement_policy", body.procurementPolicy)])
    let provisioned ← Mutations.provisionOrganization call.organizationId bootstrap tables
    return (requestHash, provisioned)
  | .decideApproval decisionId _ reason action => do
    let actionName := if action = .approve then "APPROVE" else "REJECT"
    let requestHash ← contentDigest rt (.obj [("decision_id", .str decisionId),
      ("action", .str actionName), ("reason", .str reason)])
    return (requestHash, tables)
  | .respond engagementId _ response citedEvidenceIds message => do
    let requestHash ← contentDigest rt (.obj [("engagement_id", .str engagementId),
      ("response", .str response), ("cited_evidence_ids", .strs citedEvidenceIds),
      ("message", .opt .str message)])
    return (requestHash, tables)
  | .consent party engagementId _ sharedFields => do
    let requestHash ← contentDigest rt (.obj [("engagement_id", .str engagementId),
      ("party", .str (Mutations.partyName party)), ("shared_fields", .obj sharedFields)])
    return (requestHash, tables)
  | .introduce engagementId _ sharedFields => do
    let requestHash ← contentDigest rt (.obj [("engagement_id", .str engagementId),
      ("shared_fields", .obj sharedFields)])
    return (requestHash, tables)

/-- What a call does under its claim, with the item that it has read before. -/
def underClaim (call : MutationCall) (given : Given) (before tables : WorkspaceTables) :
    Qualified (Written × WorkspaceTables) :=
  let organizationId := call.organizationId
  let actorId := call.actorId
  match call.mutation with
  | .updateWorkspaceSettings party ifMatch body => do
    let digest ← contentDigest rt (.obj (SettingsBody.payload body))
    Mutations.writeSettings rt organizationId actorId party ifMatch digest body.changeReason
      (SettingsBody.payload body) given tables
  | .createCompanyContext body =>
    Mutations.writeContextItem rt organizationId actorId body given tables
  | .updateCompanyContext itemId _ body => do
    let item ← Mutations.companyContextItem organizationId itemId before
    Mutations.reviseContextItem rt organizationId actorId item body given tables
  | .retireCompanyContext itemId _ => do
    let item ← Mutations.companyContextItem organizationId itemId before
    Mutations.retireContextItem organizationId item tables
  | .createMission traceId body =>
    Mutations.writeMission rt organizationId traceId body given tables
  | .decideApproval decisionId ifMatch reason action =>
    Mutations.writeApproval organizationId actorId decisionId ifMatch reason action given tables
  | .respond engagementId ifMatch response citedEvidenceIds message =>
    Mutations.onQualification
      (fun r => ⟨"seller_response", r.id, r.response, some r.inputDigest⟩)
      (respond organizationId engagementId actorId ifMatch response citedEvidenceIds message given)
      tables
  | .consent party engagementId ifMatch sharedFields =>
    Mutations.onQualification
      (fun c => ⟨"marketplace_consent", c.id, "GRANTED", some c.inputDigest⟩)
      (consent rt organizationId party engagementId actorId ifMatch sharedFields given) tables
  | .introduce engagementId ifMatch sharedFields =>
    Mutations.onQualification
      (fun i => ⟨"qualified_introduction", i.id, "INTRODUCED", some i.inputDigest⟩)
      (introduce rt organizationId engagementId ifMatch sharedFields given) tables

variable {rt bootstrap}

theorem bind_beforeClaim {α : Type} {x : Qualified String} {tables : WorkspaceTables}
    {f : String → Qualified α} {k : String × WorkspaceTables → Qualified α}
    (h : ∀ requestHash, f requestHash = k (requestHash, tables)) :
    x >>= f = (x >>= fun requestHash => pure (requestHash, tables)) >>= k := by
  cases x with
  | error e => rfl
  | ok requestHash => exact h requestHash

theorem mutate_eq (call : MutationCall) (given : Given) (workspace : Workspace) :
    mutate rt bootstrap call given workspace =
      beforeClaim rt bootstrap call workspace.tables >>= fun claimed =>
        Mutations.idempotently call.organizationId call.actorId call.idempotencyKey
          call.mutation.operation claimed.1 call.mutation.status
          (underClaim rt call given workspace.tables) given { workspace with tables := claimed.2 } := by
  obtain ⟨organizationId, actorId, idempotencyKey, mutation⟩ := call
  cases mutation with
  | updateWorkspaceSettings party ifMatch body =>
    unfold mutate beforeClaim underClaim Mutations.updateWorkspaceSettings
    dsimp only
    cases contentDigest rt (.obj (SettingsBody.payload body)) with
    | error e => rfl
    | ok digest =>
      simp only [ok_bind]
      exact bind_beforeClaim (fun _ => rfl)
  | createCompanyContext body => exact bind_beforeClaim (fun _ => rfl)
  | updateCompanyContext itemId ifMatch body =>
    unfold mutate beforeClaim underClaim Mutations.updateCompanyContext
    dsimp only
    cases contentDigest rt (.obj [("label", .str body.label), ("payload", .obj body.payload),
        ("change_reason", .str body.changeReason)]) with
    | error e => rfl
    | ok requestHash =>
      cases Mutations.companyContextItem organizationId itemId workspace.tables with
      | error e => rfl
      | ok item =>
        simp only [ok_bind]
        cases verifyMatch ifMatch item.currentHash with
        | error e => simp only [error_bind]
        | ok _ =>
          simp only [ok_bind]
          split
          · rfl
          · rfl
  | retireCompanyContext itemId ifMatch =>
    unfold mutate beforeClaim underClaim Mutations.retireCompanyContext
    dsimp only
    cases Mutations.companyContextItem organizationId itemId workspace.tables with
    | error e => rfl
    | ok item =>
      simp only [ok_bind]
      cases verifyMatch ifMatch item.currentHash with
      | error e => simp only [error_bind]
      | ok _ =>
        simp only [ok_bind]
        exact bind_beforeClaim (fun _ => rfl)
  | createMission traceId body =>
    unfold mutate beforeClaim underClaim Mutations.createMission
    dsimp only
    cases contentDigest rt (.obj [("buyer_context", .obj body.buyerContext),
        ("company_context_item_ids", .strs body.companyContextItemIds),
        ("requirement_brief", body.requirementBrief),
        ("procurement_policy", body.procurementPolicy)]) with
    | error e => rfl
    | ok requestHash =>
      cases Mutations.provisionOrganization organizationId bootstrap workspace.tables with
      | error e => rfl
      | ok provisioned => rfl
  | decideApproval decisionId ifMatch reason action => exact bind_beforeClaim (fun _ => rfl)
  | respond engagementId ifMatch response citedEvidenceIds message =>
    exact bind_beforeClaim (fun _ => rfl)
  | consent party engagementId ifMatch sharedFields =>
    exact bind_beforeClaim (fun _ => rfl)
  | introduce engagementId ifMatch sharedFields => exact bind_beforeClaim (fun _ => rfl)

end Calls

/-! ## Records of calls -/

/-- The answer that a retry of the call gets. -/
def MutationReply.replayed (reply : MutationReply) : MutationReply :=
  { reply with payload := setItem "replayed" (.bool true) reply.payload }

theorem setItem_setItem (key : String) (value : Value) (items : List (String × Value)) :
    setItem key value (setItem key value items) = setItem key value items := by
  have hset : key ∈ (setItem key value items).map (·.1) := by
    unfold setItem
    split
    · next hkey =>
      rw [Dict.map_fst_overwrite]
      exact hkey
    · simp
  rw [setItem, if_pos hset]
  unfold setItem
  split
  · unfold Dict.overwrite
    rw [List.map_map]
    refine List.map_congr_left (fun p _ => ?_)
    by_cases hp : p.1 = key <;> simp [hp]
  · next hkey =>
    unfold Dict.overwrite
    rw [List.map_append, List.map_singleton, if_pos rfl]
    congr 1
    refine (List.map_congr_left (fun p hp => if_neg (fun heq => ?_))).trans (List.map_id items)
    exact hkey (List.mem_map.mpr ⟨p, hp, heq⟩)

theorem replayed_replayOf (status : Int) (record : IdempotencyRecord) :
    (replayOf status record).replayed = replayOf status record := by
  unfold MutationReply.replayed replayOf
  rw [setItem_setItem]

/-- What a call leaves as its record. -/
def completedRecord (scope : IdempotencyScope) (requestHash : String) (status : Int)
    (written : Written) (given : Given) : IdempotencyRecord where
  id := "idem_" ++ given.uuid "idem"
  organizationId := scope.organizationId
  actorId := scope.actorId
  operation := scope.operation
  idempotencyKey := scope.idempotencyKey
  requestHash := requestHash
  state := .completed
  responseStatus := some status
  responsePayload := some written.answer
  responseReference := some written.resourceId

theorem replayOf_completedRecord {scope : IdempotencyScope} {requestHash : String} {status : Int}
    {written : Written} {given : Given} (hstatus : status ≠ 0) :
    replayOf status (completedRecord scope requestHash status written given) =
      (⟨status, written.answer⟩ : MutationReply).replayed := by
  simp [replayOf, completedRecord, MutationReply.replayed, Option.filter, hstatus]

section Records

variable {organizationId actorId idempotencyKey operation requestHash : String} {status : Int}
  {write : WorkspaceTables → Qualified (Written × WorkspaceTables)} {given : Given}
  {workspace workspace' : Workspace} {reply : MutationReply}

theorem recordOf_append_of_some {scope : IdempotencyScope} {records : List IdempotencyRecord}
    {record : IdempotencyRecord} (h : recordOf scope records = some record)
    (later : List IdempotencyRecord) : recordOf scope (records ++ later) = some record := by
  unfold recordOf at h ⊢
  rw [List.find?_append, h]
  rfl

theorem recordOf_append_of_none {scope : IdempotencyScope} {records : List IdempotencyRecord}
    {record : IdempotencyRecord} (h : recordOf scope records = none) (hscope : record.scope = scope) :
    recordOf scope (records ++ [record]) = some record := by
  unfold recordOf at h ⊢
  rw [List.find?_append, h, Option.none_or, List.find?_cons_of_pos (by simpa using hscope)]

theorem idempotently_of_record {record : IdempotencyRecord}
    (hrecord : recordOf ⟨organizationId, actorId, operation, idempotencyKey⟩ workspace.records =
      some record) (hhash : record.requestHash = requestHash) (hstate : record.state = .completed) :
    Mutations.idempotently organizationId actorId idempotencyKey operation requestHash status write
      given workspace = .ok (replayOf status record, workspace) := by
  unfold Mutations.idempotently claimIdempotency
  rw [hrecord]
  simp [hhash, hstate]

theorem idempotently_eq_ok (hcompleted : ∀ r ∈ workspace.records, r.state = .completed)
    (h : Mutations.idempotently organizationId actorId idempotencyKey operation requestHash status
      write given workspace = .ok (reply, workspace')) :
    (∃ record, recordOf ⟨organizationId, actorId, operation, idempotencyKey⟩ workspace.records =
        some record ∧ record.requestHash = requestHash ∧ reply = replayOf status record ∧
        workspace' = workspace) ∨
      (recordOf ⟨organizationId, actorId, operation, idempotencyKey⟩ workspace.records = none ∧
        organizationId ∈ workspace.tables.organizations ∧
        ∃ written tables, write workspace.tables = .ok (written, tables) ∧
          reply = ⟨status, written.answer⟩ ∧
          workspace' = ⟨tables, workspace.records ++
            [completedRecord ⟨organizationId, actorId, operation, idempotencyKey⟩ requestHash status
              written given]⟩) := by
  unfold Mutations.idempotently at h
  obtain ⟨⟨claim, claimed⟩, hclaim, h⟩ := bind_eq_ok.mp h
  unfold claimIdempotency at hclaim
  split at hclaim
  · next record hrecord =>
    split at hclaim
    · cases hclaim
    · next hhash =>
      cases hclaim
      have hstate : record.state = .completed :=
        hcompleted record (List.mem_of_find?_eq_some hrecord)
      dsimp only at h
      rw [if_pos (by simpa using hstate)] at h
      cases h
      exact .inl ⟨record, hrecord, not_not.mp hhash, rfl, rfl⟩
  · next hrecord =>
    dsimp only at hclaim
    split at hclaim
    · cases hclaim
    · next hfree =>
      simp only [Bool.or_eq_true, List.any_eq_true, decide_eq_true_eq, not_or, not_exists, not_and,
        not_not] at hfree
      cases hclaim
      dsimp only at h
      rw [if_neg (by simp)] at h
      obtain ⟨⟨written, tables⟩, hwrite, h⟩ := bind_eq_ok.mp h
      obtain ⟨completed, hcomplete, h⟩ := bind_eq_ok.mp h
      cases h
      rw [completeIdempotency, if_neg (by simp)] at hcomplete
      cases hcomplete
      refine .inr ⟨hrecord, hfree.2, written, tables, hwrite, rfl, ?_⟩
      rw [Table.update_append, Table.update_of_forall_ne hfree.1, Table.update_cons_self]
      rfl

end Records

/-! ## What later transactions keep -/

/-- Tenants stay, and a retired item is not written again. -/
structure KeepsTables (tables tables' : WorkspaceTables) : Prop where
  organizations : ∀ o ∈ tables.organizations, o ∈ tables'.organizations
  retired : ∀ i ∈ tables.contextItems, i.state = .retired → i ∈ tables'.contextItems
  keyed : Table.Keyed (·.id) tables'.contextItems

theorem KeepsTables.of_eq {tables tables' : WorkspaceTables}
    (hkeyed : Table.Keyed (·.id) tables.contextItems)
    (horganizations : tables'.organizations = tables.organizations)
    (hitems : tables'.contextItems = tables.contextItems) : KeepsTables tables tables' where
  organizations := by
    rw [horganizations]
    exact fun _ ho => ho
  retired := by
    rw [hitems]
    exact fun _ hi _ => hi
  keyed := by
    rw [hitems]
    exact hkeyed

theorem KeepsTables.trans {tables tables' tables'' : WorkspaceTables} (h : KeepsTables tables tables')
    (h' : KeepsTables tables' tables'') : KeepsTables tables tables'' where
  organizations := fun o ho => h'.organizations o (h.organizations o ho)
  retired := fun i hi hretired => h'.retired i (h.retired i hi hretired) hretired
  keyed := h'.keyed

section Work

variable {rt : Runtime} {bootstrap : TenantBootstrap} {organizationId actorId : String}
  {given : Given} {tables tables' : WorkspaceTables} {written : Written}

variable {item : CompanyContextItem}

theorem companyContextItem_eq_ok {itemId : String}
    (h : Mutations.companyContextItem organizationId itemId tables = .ok item) :
    item ∈ tables.contextItems ∧ item.organizationId = organizationId ∧ item.id = itemId := by
  unfold Mutations.companyContextItem at h
  split at h
  · cases h
  · next hfind =>
    cases h
    have hkeys := List.find?_some hfind
    simp only [decide_eq_true_eq] at hkeys
    exact ⟨List.mem_of_find?_eq_some hfind, hkeys⟩

theorem companyContextItem_of_mem (hkeyed : Table.Keyed (·.id) tables.contextItems)
    (hitem : item ∈ tables.contextItems) (horg : item.organizationId = organizationId) :
    Mutations.companyContextItem organizationId item.id tables = .ok item := by
  have hfind : tables.contextItems.find? (fun i =>
      i.organizationId = organizationId ∧ i.id = item.id) = some item := by
    apply hkeyed.find?_eq hitem
    · simpa using horg
    · intro i _ hi
      simp only [decide_eq_true_eq] at hi
      exact hi.2
  unfold Mutations.companyContextItem
  rw [hfind]

theorem onQualification_eq_ok {α : Type} {f : α → Written}
    {run : QualificationDb → Qualified (α × QualificationDb)}
    (h : Mutations.onQualification f run tables = .ok (written, tables')) :
    ∃ qualification, tables' = { tables with qualification := qualification } := by
  unfold Mutations.onQualification at h
  obtain ⟨⟨result, qualification⟩, -, h⟩ := bind_eq_ok.mp h
  cases h
  exact ⟨qualification, rfl⟩

theorem tables_of_writeSettings {party : WorkspaceParty} {ifMatch digest changeReason : String}
    {payload : List (String × Value)}
    (h : Mutations.writeSettings rt organizationId actorId party ifMatch digest changeReason payload
      given tables = .ok (written, tables')) :
    tables'.organizations = tables.organizations ∧ tables'.contextItems = tables.contextItems := by
  unfold Mutations.writeSettings at h
  dsimp only at h
  obtain ⟨_, -, h⟩ := bind_eq_ok.mp h
  obtain ⟨_, -, h⟩ := bind_eq_ok.mp h
  obtain ⟨-, h⟩ := unless_throw_eq_ok.mp h
  obtain ⟨_, -, h⟩ := bind_eq_ok.mp h
  obtain ⟨_, -, h⟩ := bind_eq_ok.mp h
  obtain ⟨_, -, h⟩ := bind_eq_ok.mp h
  cases h
  exact ⟨rfl, rfl⟩

theorem tables_of_writeMission {traceId : String} {body : MissionCreate}
    (h : Mutations.writeMission rt organizationId traceId body given tables =
      .ok (written, tables')) :
    tables'.organizations = tables.organizations ∧ tables'.contextItems = tables.contextItems := by
  unfold Mutations.writeMission at h
  obtain ⟨_, -, h⟩ := bind_eq_ok.mp h
  obtain ⟨_, -, h⟩ := bind_eq_ok.mp h
  cases h
  exact ⟨rfl, rfl⟩

theorem carries_of_writeContextItem {body : CompanyContextCreate}
    (hkeyed : Table.Keyed (·.id) tables.contextItems)
    (h : Mutations.writeContextItem rt organizationId actorId body given tables =
      .ok (written, tables')) : KeepsTables tables tables' := by
  unfold Mutations.writeContextItem at h
  dsimp only at h
  obtain ⟨digest, -, h⟩ := bind_eq_ok.mp h
  obtain ⟨_, -, h⟩ := bind_eq_ok.mp h
  obtain ⟨_, hfree, h⟩ := bind_eq_ok.mp h
  obtain ⟨_, -, h⟩ := bind_eq_ok.mp h
  rw [constrain_eq_ok, List.any_eq_false] at hfree
  simp only [decide_eq_true_eq] at hfree
  cases h
  exact ⟨fun _ ho => ho, fun _ hi _ => List.mem_append_left _ hi, hkeyed.append hfree⟩

theorem carries_of_reviseContextItem {body : CompanyContextUpdate}
    (hkeyed : Table.Keyed (·.id) tables.contextItems) (hitem : item ∈ tables.contextItems)
    (hactive : item.state = .active)
    (h : Mutations.reviseContextItem rt organizationId actorId item body given tables =
      .ok (written, tables')) : KeepsTables tables tables' := by
  unfold Mutations.reviseContextItem at h
  dsimp only at h
  obtain ⟨digest, -, h⟩ := bind_eq_ok.mp h
  obtain ⟨-, h⟩ := unless_throw_eq_ok.mp h
  obtain ⟨_, -, h⟩ := bind_eq_ok.mp h
  obtain ⟨_, -, h⟩ := bind_eq_ok.mp h
  cases h
  refine ⟨fun _ ho => ho, fun i hi hretired => ?_, hkeyed.update (fun _ => rfl)⟩
  refine Table.mem_update.mpr (.inr ⟨hi, fun hid => ?_⟩)
  rw [hkeyed.eq hi hitem hid, hactive] at hretired
  cases hretired

theorem carries_of_retireContextItem (hkeyed : Table.Keyed (·.id) tables.contextItems)
    (hitem : item ∈ tables.contextItems)
    (h : Mutations.retireContextItem organizationId item tables = .ok (written, tables')) :
    KeepsTables tables tables' ∧ { item with state := .retired } ∈ tables'.contextItems := by
  cases h
  refine ⟨⟨fun _ ho => ho, fun i hi hretired => ?_, hkeyed.update (fun _ => rfl)⟩, ?_⟩
  · by_cases hid : i.id = item.id
    · refine Table.mem_update.mpr (.inl ⟨i, hi, hid, ?_⟩)
      rw [← hretired]
    · exact Table.mem_update.mpr (.inr ⟨hi, hid⟩)
  · exact Table.mem_update.mpr (.inl ⟨item, hitem, rfl, rfl⟩)

end Work

/-! ### Operations -/

theorem append_ne_append {p q : String} (hpq : ¬ p.toList <+: q.toList)
    (hqp : ¬ q.toList <+: p.toList) (x y : String) : p ++ x ≠ q ++ y := by
  intro heq
  have hlists : p.toList ++ x.toList = q.toList ++ y.toList := by
    rw [← String.toList_append, ← String.toList_append, heq]
  have hp : p.toList <+: q.toList ++ y.toList := ⟨x.toList, hlists⟩
  rcases List.prefix_or_prefix_of_prefix hp (List.prefix_append q.toList y.toList) with h | h
  · exact hpq h
  · exact hqp h

theorem retires_of_operation {mutation : Mutation} {itemId : String}
    (h : mutation.operation = "qualification.company_context.retire:" ++ itemId) :
    ∃ ifMatch, mutation = .retireCompanyContext itemId ifMatch := by
  cases mutation with
  | updateWorkspaceSettings party =>
    have heq : "qualification.workspace_settings.update:" ++ WorkspaceParty.name party =
      "qualification.company_context.retire:" ++ itemId := h
    exact absurd heq (append_ne_append (by decide) (by decide) _ _)
  | createCompanyContext =>
    have heq : "qualification.company_context.create" ++ "" =
      "qualification.company_context.retire:" ++ itemId := String.append_empty.trans h
    exact absurd heq (append_ne_append (by decide) (by decide) _ _)
  | updateCompanyContext id =>
    have heq : "qualification.company_context.update:" ++ id =
      "qualification.company_context.retire:" ++ itemId := h
    exact absurd heq (append_ne_append (by decide) (by decide) _ _)
  | retireCompanyContext id ifMatch =>
    have heq : "qualification.company_context.retire:" ++ id =
      "qualification.company_context.retire:" ++ itemId := h
    rw [(String.append_right_inj _).mp heq]
    exact ⟨ifMatch, rfl⟩
  | createMission =>
    have heq : "qualification.missions.create" ++ "" =
      "qualification.company_context.retire:" ++ itemId := String.append_empty.trans h
    exact absurd heq (append_ne_append (by decide) (by decide) _ _)
  | decideApproval id =>
    have heq : "qualification.decisions." ++ (id ++ ".approval") =
      "qualification.company_context.retire:" ++ itemId := String.append_assoc.symm.trans h
    exact absurd heq (append_ne_append (by decide) (by decide) _ _)
  | respond id =>
    have heq : "qualification.engagements." ++ (id ++ ".respond") =
      "qualification.company_context.retire:" ++ itemId := String.append_assoc.symm.trans h
    exact absurd heq (append_ne_append (by decide) (by decide) _ _)
  | consent party id =>
    have hconsent : "qualification.engagements." ++ id ++ ".consent." ++ Mutations.partyKey party =
      "qualification.company_context.retire:" ++ itemId := h
    rw [String.append_assoc, String.append_assoc] at hconsent
    exact absurd hconsent (append_ne_append (by decide) (by decide) _ _)
  | introduce id =>
    have heq : "qualification.engagements." ++ (id ++ ".introduce") =
      "qualification.company_context.retire:" ++ itemId := String.append_assoc.symm.trans h
    exact absurd heq (append_ne_append (by decide) (by decide) _ _)

/-! ### Calls -/

/-- Every record is completed, and the item of a retirement on record is retired. -/
structure SoundWorkspace (workspace : Workspace) : Prop where
  completed : ∀ r ∈ workspace.records, r.state = .completed
  items : Table.Keyed (·.id) workspace.tables.contextItems
  retired : ∀ r ∈ workspace.records, ∀ itemId,
    r.operation = "qualification.company_context.retire:" ++ itemId →
      ∃ i ∈ workspace.tables.contextItems, i.organizationId = r.organizationId ∧ i.id = itemId ∧
        i.state = .retired

section Calls

variable {rt : Runtime} {bootstrap : TenantBootstrap} {call : MutationCall} {given : Given}
  {tables tables' provisioned : WorkspaceTables} {requestHash : String}

theorem Mutation.status_ne_zero (mutation : Mutation) : mutation.status ≠ 0 := by
  unfold Mutation.status
  split <;> decide

theorem provisionOrganization_eq_ok {organizationId : String}
    (hkeyed : Table.Keyed (·.id) tables.contextItems)
    (h : Mutations.provisionOrganization organizationId bootstrap tables = .ok provisioned) :
    KeepsTables tables provisioned ∧ organizationId ∈ provisioned.organizations := by
  unfold Mutations.provisionOrganization at h
  split at h
  · next hmem =>
    cases h
    exact ⟨.of_eq hkeyed rfl rfl, hmem⟩
  · split at h
    · cases h
      exact ⟨⟨fun _ ho => List.mem_append_left _ ho, fun _ hi _ => hi, hkeyed⟩,
        List.mem_append_right _ List.mem_cons_self⟩
    · cases h

/-- A revision finds its item active, and at the digest that it is made on. Other mutations do
    not ask. -/
def Revisable (call : MutationCall) (tables : WorkspaceTables) : Prop :=
  match call.mutation with
  | .updateCompanyContext itemId ifMatch _ =>
    ∃ item, Mutations.companyContextItem call.organizationId itemId tables = .ok item ∧
      verifyMatch ifMatch item.currentHash = .ok () ∧ item.state = .active
  | _ => True

/-- What was read before a claim can be read again. -/
def Stands (call : MutationCall) (before tables : WorkspaceTables) : Prop :=
  match call.mutation with
  | .updateCompanyContext .. => Revisable call tables
  | .retireCompanyContext itemId _ =>
    ∀ item, Mutations.companyContextItem call.organizationId itemId before = .ok item →
      ∃ item', Mutations.companyContextItem call.organizationId itemId tables = .ok item' ∧
        item'.currentHash = item.currentHash
  | .createMission .. => call.organizationId ∈ tables.organizations
  | _ => True

theorem hashed_eq_ok {x : Qualified String} :
    (x >>= fun hash => pure (hash, tables)) = .ok (requestHash, provisioned) ↔
      x = .ok requestHash ∧ provisioned = tables := by
  rw [bind_eq_ok]
  constructor
  · rintro ⟨hash, hx, h⟩
    cases h
    exact ⟨hx, rfl⟩
  · rintro ⟨hx, rfl⟩
    exact ⟨requestHash, hx, rfl⟩

theorem revisable_of_beforeClaim {itemId ifMatch : String} {body : CompanyContextUpdate}
    (hmutation : call.mutation = .updateCompanyContext itemId ifMatch body)
    (h : beforeClaim rt bootstrap call tables = .ok (requestHash, provisioned)) :
    Revisable call tables ∧ provisioned = tables := by
  unfold beforeClaim at h
  unfold Revisable
  rw [hmutation] at h ⊢
  dsimp only at h ⊢
  obtain ⟨hash, -, h⟩ := bind_eq_ok.mp h
  obtain ⟨item, hitem, h⟩ := bind_eq_ok.mp h
  obtain ⟨_, hmatch, h⟩ := bind_eq_ok.mp h
  obtain ⟨hactive, h⟩ := unless_throw_eq_ok.mp h
  cases h
  exact ⟨⟨item, hitem, hmatch, not_not.mp hactive⟩, rfl⟩

theorem item_of_beforeClaim {itemId ifMatch : String}
    (hmutation : call.mutation = .retireCompanyContext itemId ifMatch)
    (h : beforeClaim rt bootstrap call tables = .ok (requestHash, provisioned)) :
    provisioned = tables ∧
      ∃ item, Mutations.companyContextItem call.organizationId itemId tables = .ok item := by
  unfold beforeClaim at h
  rw [hmutation] at h
  obtain ⟨item, hitem, h⟩ := bind_eq_ok.mp h
  obtain ⟨_, -, h⟩ := bind_eq_ok.mp h
  exact ⟨(hashed_eq_ok.mp h).2, item, hitem⟩

/-- The checks before a claim carry the tables over, and provision the tenant of a mission. -/
theorem carries_of_beforeClaim (hkeyed : Table.Keyed (·.id) tables.contextItems)
    (h : beforeClaim rt bootstrap call tables = .ok (requestHash, provisioned)) :
    KeepsTables tables provisioned ∧ ∀ traceId body, call.mutation = .createMission traceId body →
      call.organizationId ∈ provisioned.organizations := by
  have hsame : provisioned = tables → KeepsTables tables provisioned :=
    fun heq => .of_eq hkeyed (congrArg WorkspaceTables.organizations heq)
      (congrArg WorkspaceTables.contextItems heq)
  obtain ⟨organizationId, actorId, idempotencyKey, mutation⟩ := call
  cases mutation with
  | updateWorkspaceSettings =>
    obtain ⟨_, -, h⟩ := bind_eq_ok.mp h
    exact ⟨hsame (hashed_eq_ok.mp h).2, nofun⟩
  | createCompanyContext => exact ⟨hsame (hashed_eq_ok.mp h).2, nofun⟩
  | updateCompanyContext => exact ⟨hsame (revisable_of_beforeClaim rfl h).2, nofun⟩
  | retireCompanyContext => exact ⟨hsame (item_of_beforeClaim rfl h).1, nofun⟩
  | createMission =>
    obtain ⟨_, -, h⟩ := bind_eq_ok.mp h
    obtain ⟨_, hprovision, h⟩ := bind_eq_ok.mp h
    cases h
    obtain ⟨hcarries, hmem⟩ := provisionOrganization_eq_ok hkeyed hprovision
    exact ⟨hcarries, fun _ _ _ => hmem⟩
  | decideApproval => exact ⟨hsame (hashed_eq_ok.mp h).2, nofun⟩
  | respond => exact ⟨hsame (hashed_eq_ok.mp h).2, nofun⟩
  | consent => exact ⟨hsame (hashed_eq_ok.mp h).2, nofun⟩
  | introduce => exact ⟨hsame (hashed_eq_ok.mp h).2, nofun⟩

theorem beforeClaim_again (h : beforeClaim rt bootstrap call tables = .ok (requestHash, provisioned))
    (hstands : Stands call tables tables') :
    beforeClaim rt bootstrap call tables' = .ok (requestHash, tables') := by
  obtain ⟨organizationId, actorId, idempotencyKey, mutation⟩ := call
  cases mutation with
  | updateWorkspaceSettings =>
    obtain ⟨digest, hdigest, h⟩ := bind_eq_ok.mp h
    exact bind_eq_ok.mpr ⟨digest, hdigest, hashed_eq_ok.mpr ⟨(hashed_eq_ok.mp h).1, rfl⟩⟩
  | createCompanyContext => exact hashed_eq_ok.mpr ⟨(hashed_eq_ok.mp h).1, rfl⟩
  | updateCompanyContext =>
    obtain ⟨item', hitem', hmatch', hactive'⟩ := hstands
    obtain ⟨hash, hhash, h⟩ := bind_eq_ok.mp h
    obtain ⟨item, -, h⟩ := bind_eq_ok.mp h
    obtain ⟨_, -, h⟩ := bind_eq_ok.mp h
    obtain ⟨-, h⟩ := unless_throw_eq_ok.mp h
    cases h
    refine bind_eq_ok.mpr ⟨_, hhash, bind_eq_ok.mpr ⟨item', hitem',
      bind_eq_ok.mpr ⟨(), hmatch', ?_⟩⟩⟩
    exact unless_throw_eq_ok.mpr ⟨not_not.mpr hactive', rfl⟩
  | retireCompanyContext =>
    obtain ⟨item, hitem, h⟩ := bind_eq_ok.mp h
    obtain ⟨_, hmatch, h⟩ := bind_eq_ok.mp h
    obtain ⟨item', hitem', hsame⟩ := hstands item hitem
    rw [← hsame] at hmatch h
    exact bind_eq_ok.mpr ⟨item', hitem', bind_eq_ok.mpr ⟨(), hmatch,
      hashed_eq_ok.mpr ⟨(hashed_eq_ok.mp h).1, rfl⟩⟩⟩
  | createMission =>
    obtain ⟨hash, hhash, h⟩ := bind_eq_ok.mp h
    obtain ⟨_, -, h⟩ := bind_eq_ok.mp h
    cases h
    have hprovisioned : Mutations.provisionOrganization organizationId bootstrap tables' =
        .ok tables' := if_pos hstands
    exact bind_eq_ok.mpr ⟨_, hhash, bind_eq_ok.mpr ⟨tables', hprovisioned, rfl⟩⟩
  | decideApproval => exact hashed_eq_ok.mpr ⟨(hashed_eq_ok.mp h).1, rfl⟩
  | respond => exact hashed_eq_ok.mpr ⟨(hashed_eq_ok.mp h).1, rfl⟩
  | consent => exact hashed_eq_ok.mpr ⟨(hashed_eq_ok.mp h).1, rfl⟩
  | introduce => exact hashed_eq_ok.mpr ⟨(hashed_eq_ok.mp h).1, rfl⟩

theorem carries_of_underClaim {written : Written}
    (hkeyed : Table.Keyed (·.id) provisioned.contextItems)
    (hbefore : beforeClaim rt bootstrap call tables = .ok (requestHash, provisioned))
    (h : underClaim rt call given tables provisioned = .ok (written, tables')) :
    KeepsTables provisioned tables' ∧ ∀ itemId ifMatch item,
      call.mutation = .retireCompanyContext itemId ifMatch →
      Mutations.companyContextItem call.organizationId itemId tables = .ok item →
        { item with state := .retired } ∈ tables'.contextItems := by
  obtain ⟨organizationId, actorId, idempotencyKey, mutation⟩ := call
  cases mutation with
  | updateWorkspaceSettings =>
    obtain ⟨digest, -, h⟩ := bind_eq_ok.mp h
    obtain ⟨horganizations, hitems⟩ := tables_of_writeSettings h
    exact ⟨.of_eq hkeyed horganizations hitems, nofun⟩
  | createCompanyContext => exact ⟨carries_of_writeContextItem hkeyed h, nofun⟩
  | updateCompanyContext =>
    obtain ⟨⟨item, hitem, -, hactive⟩, rfl⟩ := revisable_of_beforeClaim rfl hbefore
    obtain ⟨item', hitem', h⟩ := bind_eq_ok.mp h
    obtain rfl : item = item' := Except.ok.inj (hitem.symm.trans hitem')
    have hmem := (companyContextItem_eq_ok hitem).1
    exact ⟨carries_of_reviseContextItem hkeyed hmem hactive h, nofun⟩
  | retireCompanyContext itemId ifMatch =>
    obtain ⟨rfl, -⟩ := item_of_beforeClaim rfl hbefore
    obtain ⟨item, hitem, h⟩ := bind_eq_ok.mp h
    have hmem := (companyContextItem_eq_ok hitem).1
    obtain ⟨hcarries, hretired⟩ := carries_of_retireContextItem hkeyed hmem h
    refine ⟨hcarries, fun itemId' ifMatch' item' hmutation hitem' => ?_⟩
    cases hmutation
    obtain rfl : item = item' := Except.ok.inj (hitem.symm.trans hitem')
    exact hretired
  | createMission =>
    obtain ⟨horganizations, hitems⟩ := tables_of_writeMission h
    exact ⟨.of_eq hkeyed horganizations hitems, nofun⟩
  | decideApproval =>
    unfold underClaim Mutations.writeApproval at h
    dsimp only at h
    obtain ⟨qualification, rfl⟩ := onQualification_eq_ok h
    exact ⟨.of_eq hkeyed rfl rfl, nofun⟩
  | respond =>
    unfold underClaim at h
    dsimp only at h
    obtain ⟨qualification, rfl⟩ := onQualification_eq_ok h
    exact ⟨.of_eq hkeyed rfl rfl, nofun⟩
  | consent =>
    unfold underClaim at h
    dsimp only at h
    obtain ⟨qualification, rfl⟩ := onQualification_eq_ok h
    exact ⟨.of_eq hkeyed rfl rfl, nofun⟩
  | introduce =>
    unfold underClaim at h
    dsimp only at h
    obtain ⟨qualification, rfl⟩ := onQualification_eq_ok h
    exact ⟨.of_eq hkeyed rfl rfl, nofun⟩

/-! ### Successes -/

/-- A call that succeeded has its record, with the hash of its request and its answer, and later
    tables in which its checks would still stand. -/
structure Recorded (rt : Runtime) (bootstrap : TenantBootstrap) (call : MutationCall)
    (reply : MutationReply) (tables : WorkspaceTables) (workspace' : Workspace)
    (requestHash : String) (record : IdempotencyRecord) : Prop where
  checked : ∃ provisioned, beforeClaim rt bootstrap call tables = .ok (requestHash, provisioned)
  found : recordOf call.scope workspace'.records = some record
  hash : record.requestHash = requestHash
  completed : record.state = .completed
  answers : replayOf call.mutation.status record = reply.replayed
  stands : ∀ later, KeepsTables workspace'.tables later →
    (∀ itemId ifMatch body, call.mutation ≠ .updateCompanyContext itemId ifMatch body) →
      Stands call tables later

theorem stands_of_keepsTables {later : WorkspaceTables} (hcarries : KeepsTables tables' later)
    (horg : ∀ traceId body, call.mutation = .createMission traceId body →
      call.organizationId ∈ tables'.organizations)
    (hretired : ∀ itemId ifMatch item, call.mutation = .retireCompanyContext itemId ifMatch →
      Mutations.companyContextItem call.organizationId itemId tables = .ok item →
        { item with state := .retired } ∈ tables'.contextItems)
    (hother : ∀ itemId ifMatch body, call.mutation ≠ .updateCompanyContext itemId ifMatch body) :
    Stands call tables later := by
  unfold Stands
  split
  · next hmutation => exact absurd hmutation (hother _ _ _)
  · next itemId ifMatch hmutation =>
    intro item hitem
    obtain ⟨-, hitemOrg, hid⟩ := companyContextItem_eq_ok hitem
    have hlater := hcarries.retired _ (hretired itemId ifMatch item hmutation hitem) rfl
    have hfound := companyContextItem_of_mem hcarries.keyed hlater
      (show _ = call.organizationId from hitemOrg)
    rw [show ({ item with state := .retired } : CompanyContextItem).id = itemId from hid] at hfound
    exact ⟨_, hfound, rfl⟩
  · next traceId body hmutation => exact hcarries.organizations _ (horg traceId body hmutation)
  · trivial

theorem revisable_of_checked
    (h : beforeClaim rt bootstrap call tables = .ok (requestHash, provisioned)) :
    Revisable call tables := by
  cases hmutation : call.mutation with
  | updateCompanyContext => exact (revisable_of_beforeClaim hmutation h).1
  | _ =>
    unfold Revisable
    rw [hmutation]
    trivial

theorem stands_of_revisable (hrevisable : Revisable call tables')
    (hstands : (∀ itemId ifMatch body, call.mutation ≠ .updateCompanyContext itemId ifMatch body) →
      Stands call tables tables') : Stands call tables tables' := by
  cases hmutation : call.mutation with
  | updateCompanyContext =>
    unfold Stands
    rw [hmutation]
    exact hrevisable
  | _ =>
    apply hstands
    rw [hmutation]
    exact nofun

theorem retired_of_record {workspace : Workspace} {record : IdempotencyRecord}
    (hsound : SoundWorkspace workspace) (hrecord : recordOf call.scope workspace.records = some record)
    {itemId ifMatch : String} {item : CompanyContextItem}
    (hmutation : call.mutation = .retireCompanyContext itemId ifMatch)
    (hitem : Mutations.companyContextItem call.organizationId itemId workspace.tables = .ok item) :
    { item with state := .retired } ∈ workspace.tables.contextItems := by
  have hmem : record ∈ workspace.records := List.mem_of_find?_eq_some hrecord
  have hscope : record.scope = call.scope := by simpa using List.find?_some hrecord
  have hoperation : record.operation = "qualification.company_context.retire:" ++ itemId := by
    rw [show record.operation = call.mutation.operation from
      congrArg IdempotencyScope.operation hscope, hmutation]
    rfl
  obtain ⟨i, hi, -, hid, hretired⟩ := hsound.retired record hmem itemId hoperation
  obtain ⟨hitemMem, -, hitemId⟩ := companyContextItem_eq_ok hitem
  obtain rfl : i = item := hsound.items.eq hi hitemMem (hid.trans hitemId.symm)
  rw [← hretired]
  exact hi

theorem recorded_of_mutate {workspace workspace' : Workspace} {reply : MutationReply}
    (hsound : SoundWorkspace workspace)
    (h : mutate rt bootstrap call given workspace = .ok (reply, workspace')) :
    SoundWorkspace workspace' ∧ KeepsTables workspace.tables workspace'.tables ∧
      (∃ added, workspace'.records = workspace.records ++ added) ∧
      ∃ requestHash record,
        Recorded rt bootstrap call reply workspace.tables workspace' requestHash record := by
  rw [mutate_eq] at h
  obtain ⟨⟨requestHash, provisioned⟩, hbefore, h⟩ := bind_eq_ok.mp h
  obtain ⟨hcarried, horg⟩ := carries_of_beforeClaim hsound.items hbefore
  have hprovisioned : SoundWorkspace ⟨provisioned, workspace.records⟩ :=
    ⟨hsound.completed, hcarried.keyed, fun r hr itemId hoperation => by
      obtain ⟨i, hi, hiorg, hid, hretired⟩ := hsound.retired r hr itemId hoperation
      exact ⟨i, hcarried.retired i hi hretired, hiorg, hid, hretired⟩⟩
  rcases idempotently_eq_ok hprovisioned.completed h with
    ⟨record, hrecord, hhash, rfl, rfl⟩ |
    ⟨hnone, -, written, tables, hwrite, rfl, rfl⟩
  · -- The call replays a record.
    refine ⟨hprovisioned, hcarried, ⟨[], (List.append_nil _).symm⟩, requestHash, record,
      ⟨provisioned, hbefore⟩, hrecord, hhash,
      hsound.completed record (List.mem_of_find?_eq_some hrecord),
      (replayed_replayOf _ _).symm, fun later hlater hother => ?_⟩
    refine stands_of_keepsTables hlater horg (fun itemId ifMatch item hmutation hitem => ?_) hother
    have hfound : recordOf call.scope workspace.records = some record := hrecord
    exact hcarried.retired _ (retired_of_record hsound hfound hmutation hitem) rfl
  · -- The call does its work, and its record is new.
    obtain ⟨hworked, hretires⟩ := carries_of_underClaim hcarried.keyed hbefore hwrite
    refine ⟨⟨?_, hworked.keyed, ?_⟩, hcarried.trans hworked, ⟨_, rfl⟩, requestHash, _,
      ⟨provisioned, hbefore⟩, recordOf_append_of_none hnone rfl, rfl, rfl,
      replayOf_completedRecord call.mutation.status_ne_zero, fun later hlater hother => ?_⟩
    · intro r hr
      rcases List.mem_append.mp hr with hr | hr
      · exact hsound.completed r hr
      · rw [List.mem_singleton.mp hr]
        rfl
    · intro r hr itemId hoperation
      rcases List.mem_append.mp hr with hr | hr
      · obtain ⟨i, hi, hiorg, hid, hretired⟩ := hprovisioned.retired r hr itemId hoperation
        exact ⟨i, hworked.retired i hi hretired, hiorg, hid, hretired⟩
      · rw [List.mem_singleton.mp hr] at hoperation ⊢
        obtain ⟨ifMatch, hmutation⟩ := retires_of_operation hoperation
        obtain ⟨-, item, hitem⟩ := item_of_beforeClaim hmutation hbefore
        obtain ⟨-, hitemOrg, hitemId⟩ := companyContextItem_eq_ok hitem
        exact ⟨_, hretires itemId ifMatch item hmutation hitem, hitemOrg, hitemId, rfl⟩
    · exact stands_of_keepsTables hlater
        (fun traceId body hmutation => hworked.organizations _ (horg traceId body hmutation))
        hretires hother

end Calls

/-! ## Runs -/

/-- A mutation, or what other services and workers leave: tenants, and other tables. -/
inductive WorkspaceStep
  | mutates (call : MutationCall) (given : Given)
  | elsewhere (organizations : List String) (qualification : QualificationDb)

section Runs

variable (rt : Runtime) (bootstrap : TenantBootstrap)

def takeStep : WorkspaceStep → Workspace → Qualified (Option MutationReply × Workspace)
  | .mutates call given, workspace =>
    (mutate rt bootstrap call given workspace).map (fun r => (some r.1, r.2))
  | .elsewhere organizations qualification, workspace =>
    .ok (none, { workspace with tables := { workspace.tables with
      organizations := workspace.tables.organizations ++ organizations
      qualification := qualification } })

/-- The workspace after steps, from the empty one. -/
def workspaceAfter (steps : List WorkspaceStep) : Workspace :=
  Transactions.run (takeStep rt bootstrap) {} steps

variable {rt bootstrap}

/-- Records and retired items stay. -/
structure Grows (workspace workspace' : Workspace) : Prop where
  records : ∃ added, workspace'.records = workspace.records ++ added
  tables : KeepsTables workspace.tables workspace'.tables

theorem grows_of_takeStep {step : WorkspaceStep} {workspace workspace' : Workspace}
    {reply : Option MutationReply} (hsound : SoundWorkspace workspace)
    (h : takeStep rt bootstrap step workspace = .ok (reply, workspace')) :
    SoundWorkspace workspace' ∧ Grows workspace workspace' := by
  cases step with
  | mutates call given =>
    unfold takeStep at h
    dsimp only at h
    cases hmutate : mutate rt bootstrap call given workspace with
    | error e =>
      rw [hmutate] at h
      cases h
    | ok r =>
      rw [hmutate] at h
      cases h
      obtain ⟨hsound', hcarries, hrecords, -⟩ := recorded_of_mutate hsound hmutate
      exact ⟨hsound', hrecords, hcarries⟩
  | elsewhere organizations qualification =>
    cases h
    exact ⟨⟨hsound.completed, hsound.items, hsound.retired⟩, ⟨[], (List.append_nil _).symm⟩,
      fun _ ho => List.mem_append_left _ ho, fun _ hi _ => hi, hsound.items⟩

theorem sound_workspaceAfter (rt : Runtime) (bootstrap : TenantBootstrap)
    (steps : List WorkspaceStep) : SoundWorkspace (workspaceAfter rt bootstrap steps) :=
  Transactions.run_induction (I := SoundWorkspace)
    (fun _ _ _ _ hsound h => (grows_of_takeStep hsound h).1)
    ⟨fun _ hr => absurd hr List.not_mem_nil, Table.keyed_nil,
      fun _ hr => absurd hr List.not_mem_nil⟩ steps

theorem grows_of_run {workspace : Workspace} (hsound : SoundWorkspace workspace)
    (steps : List WorkspaceStep) :
    Grows workspace (Transactions.run (takeStep rt bootstrap) workspace steps) := by
  have hrelated := Transactions.run_related (f := takeStep rt bootstrap) (s := workspace)
    (I := fun _ => True) (R := fun (w w' : Workspace) => SoundWorkspace w → SoundWorkspace w' ∧ Grows w w')
    (fun w hw => ⟨hw, ⟨[], (List.append_nil _).symm⟩, .of_eq hw.items rfl rfl⟩)
    (fun w₁ w₂ w₃ h₁ h₂ hw => by
      obtain ⟨hw₂, ⟨added, hadded⟩, hcarries⟩ := h₁ hw
      obtain ⟨hw₃, ⟨added', hadded'⟩, hcarries'⟩ := h₂ hw₂
      refine ⟨hw₃, ⟨added ++ added', ?_⟩, hcarries.trans hcarries'⟩
      rw [hadded', hadded, List.append_assoc])
    (fun _ _ _ _ _ h => ⟨trivial, fun hw => grows_of_takeStep hw h⟩) trivial steps
  exact (hrelated hsound).2

/-- A call that succeeded and is repeated after any other steps gets its answer again, as a
    replay that changes nothing, if and only if it is not the revision of an item that has left
    the digest of its `If-Match`, or has been retired. -/
theorem retried_mutation_replays_iff (rt : Runtime) (bootstrap : TenantBootstrap)
    (before later : List WorkspaceStep) (call : MutationCall) (given given' : Given)
    {reply : MutationReply} {workspace : Workspace}
    (h : mutate rt bootstrap call given (workspaceAfter rt bootstrap before) =
      .ok (reply, workspace)) :
    mutate rt bootstrap call given'
        (workspaceAfter rt bootstrap (before ++ .mutates call given :: later)) =
      .ok (reply.replayed, workspaceAfter rt bootstrap (before ++ .mutates call given :: later)) ↔
        Revisable call
          (workspaceAfter rt bootstrap (before ++ .mutates call given :: later)).tables := by
  obtain ⟨hsound, -, -, requestHash, record, hrecorded⟩ :=
    recorded_of_mutate (sound_workspaceAfter rt bootstrap before) h
  have hstep : takeStep rt bootstrap (.mutates call given) (workspaceAfter rt bootstrap before) =
      .ok (some reply, workspace) := by
    unfold takeStep
    dsimp only
    rw [h]
    rfl
  have hretried : workspaceAfter rt bootstrap (before ++ .mutates call given :: later) =
      Transactions.run (takeStep rt bootstrap) workspace later := by
    unfold workspaceAfter at hstep ⊢
    rw [Transactions.run_append]
    exact congrArg (Transactions.run (takeStep rt bootstrap) · later)
      (Transactions.after_of_ok hstep)
  have hgrows : Grows workspace (Transactions.run (takeStep rt bootstrap) workspace later) :=
    grows_of_run hsound later
  rw [hretried]
  constructor
  · intro hretry
    rw [mutate_eq] at hretry
    obtain ⟨⟨hash, provisioned⟩, hbefore, -⟩ := bind_eq_ok.mp hretry
    exact revisable_of_checked hbefore
  · intro hrevisable
    obtain ⟨provisioned, hchecked⟩ := hrecorded.checked
    have hstands := stands_of_revisable hrevisable (hrecorded.stands _ hgrows.tables)
    obtain ⟨added, hadded⟩ := hgrows.records
    have hfound := recordOf_append_of_some hrecorded.found added
    rw [← hadded] at hfound
    rw [mutate_eq, beforeClaim_again hchecked hstands, ok_bind, ← hrecorded.answers]
    exact idempotently_of_record hfound hrecorded.hash hrecorded.completed

end Runs

namespace Sample

def noBootstrap : TenantBootstrap := ⟨false, false⟩

/-- What the transactions of the sample draw, numbered. -/
def drawn (n : Nat) : Given := ⟨n, fun _ => toString n⟩

/-- The buyer's note on ten seats. -/
def creation : MutationCall :=
  ⟨"buyer", "ann", "create", .createCompanyContext
    ⟨"NOTE", "seats", [("seats", .int 10)], "first"⟩⟩

/-- The note is revised to twenty seats, on the digest of ten. -/
def revision : MutationCall :=
  ⟨"buyer", "ann", "revise", .updateCompanyContext "ctxitem_1"
    "sha256:022fdcf3b02a56d008c4602eedd425a5cac8ca513f017a50fa3895d4abd14b92"
    ⟨"seats", [("seats", .int 20)], "more"⟩⟩

def provisioning : WorkspaceStep := .elsewhere ["buyer"] {}

end Sample

open Sample

/-- A revision that succeeded raises when it is repeated. -/
theorem revision_is_not_replayed :
    (mutate .ascii noBootstrap revision (drawn 2) (workspaceAfter .ascii noBootstrap
      [provisioning, .mutates creation (drawn 1)])).isOk = true ∧
    (mutate .ascii noBootstrap revision (drawn 3) (workspaceAfter .ascii noBootstrap
      [provisioning, .mutates creation (drawn 1), .mutates revision (drawn 2)])).isOk = false := by
  decide +kernel

theorem retried_mutation_replays_iff_sample :
    ∃ reply workspace, mutate .ascii noBootstrap creation (drawn 1)
        (workspaceAfter .ascii noBootstrap [provisioning]) = .ok (reply, workspace) ∧
      mutate .ascii noBootstrap creation (drawn 2) (workspaceAfter .ascii noBootstrap
          [provisioning, .mutates creation (drawn 1)]) =
        .ok (reply.replayed, workspaceAfter .ascii noBootstrap
          [provisioning, .mutates creation (drawn 1)]) := by
  have hfirst : (mutate .ascii noBootstrap creation (drawn 1)
      (workspaceAfter .ascii noBootstrap [provisioning])).isOk = true := by
    decide +kernel
  obtain ⟨⟨reply, workspace⟩, h⟩ := exists_of_isOk hfirst
  exact ⟨reply, workspace, h, (retried_mutation_replays_iff .ascii noBootstrap [provisioning] []
    creation (drawn 1) (drawn 2) h).mpr trivial⟩

end SiraApi
