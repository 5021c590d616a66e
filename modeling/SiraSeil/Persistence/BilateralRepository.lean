-- SUMMARY: The tables of the exchange and the repository over them: cases, commands, transitions, projections, disclosures, offers, approvals and handoffs.
import SiraSeil.Domain.ExchangeContracts
import SiraSeil.Library.Table

/-!
# The repository of the exchange

`persistence/bilateral_repository.py` over the tables of `persistence/models.py`.
An operation takes the tables and returns its record with the tables it leaves;
one that raises leaves nothing, since its transaction is rolled back. A row that
would repeat a declared key raises an integrity error. Random row ids, the status
column of commands and the times the database adds by itself are left out.
-/

namespace Persistence

open Domain Raising

/-! ## Rows -/

structure BilateralExchangeCase where
  id : String
  organizationId : String
  sellerOrganizationId : String
  state : ExchangeState
  version : Nat
  coordinatorState : CoordinatorState
  stateHash : String
  lastCommandId : Option String

structure BilateralPartyCommand extends PartyCommandData where
  organizationId : String
  payloadHash : String

/-- A transition stores the id of its command. The rest of the command is the history of
    what was applied; no operation reads it. -/
structure BilateralTransition where
  organizationId : String
  caseId : String
  sequence : Nat
  command : PartyCommandData
  commandOrganizationId : String
  previousState : ExchangeState
  nextState : ExchangeState
  transitionHash : String

def BilateralTransition.commandId (transition : BilateralTransition) : String :=
  transition.command.id

structure BilateralPartyProjection extends PartyProjection where
  organizationId : String

structure BilateralReleaseManifest extends ReleaseManifest where
  organizationId : String

structure BilateralExchangeEnvelope extends ExchangeEnvelope where
  organizationId : String

/-- The terms are those of the proposal; the status is the column that advances. -/
structure BilateralOfferVersion where
  organizationId : String
  terms : OfferVersion
  approvalStatus : OfferApprovalStatus

/-- `f"{offer.offer_id}:v{offer.version}"` -/
def offerRowId (offer : OfferVersionData) : String :=
  offer.offerId ++ ":v" ++ toString offer.version

def BilateralOfferVersion.id (record : BilateralOfferVersion) : String :=
  offerRowId record.terms.toOfferVersionData

structure BilateralOfferApproval extends OfferApproval where
  organizationId : String
  approvalHash : String

structure BilateralExchangeHandoff extends ExchangePaymentHandoff where
  organizationId : String

structure Db where
  cases : List BilateralExchangeCase := []
  commands : List BilateralPartyCommand := []
  transitions : List BilateralTransition := []
  projections : List BilateralPartyProjection := []
  manifests : List BilateralReleaseManifest := []
  envelopes : List BilateralExchangeEnvelope := []
  offers : List BilateralOfferVersion := []
  approvals : List BilateralOfferApproval := []
  handoffs : List BilateralExchangeHandoff := []

/-- A declared key refuses a row that repeats it. -/
def unique (taken : Bool) (key : String) : Exchanged Unit :=
  if taken then .error (.integrity key) else .ok ()

theorem unique_eq_ok {taken : Bool} {key : String} : unique taken key = .ok () ↔ taken = false := by
  unfold unique
  split <;> simp_all

/-! ## Cases and commands -/

section Repository

variable (rt : Runtime) (organizationId : String)

def createCase (caseId sellerOrganizationId : String) (db : Db) :
    Exchanged (BilateralExchangeCase × Db) :=
  match db.cases.find? (fun c => c.id = caseId) with
  | some existing =>
    if existing.organizationId ≠ organizationId then
      .error (.persistenceConflict "exchange case belongs to another buyer tenant")
    else .ok (existing, db)
  | none => do
    let state : CoordinatorState := { caseId := caseId }
    let stateHash ← exchangeHash rt state.toJson
    let record : BilateralExchangeCase := {
      id := caseId
      organizationId := organizationId
      sellerOrganizationId := sellerOrganizationId
      state := state.state
      version := state.version
      coordinatorState := state
      stateHash := stateHash
      lastCommandId := none }
    return (record, { db with cases := db.cases ++ [record] })

def appendCommand (command : PartyCommandData) (db : Db) :
    Exchanged (BilateralPartyCommand × Db) := do
  let payloadHash ← exchangeHash rt (.obj command.payload)
  match db.commands.find? (fun c => c.organizationId = organizationId ∧ c.party = command.party ∧
      c.idempotencyKey = command.idempotencyKey) with
  | some existing =>
    if existing.payloadHash ≠ payloadHash ∨ existing.commandType ≠ command.commandType then
      throw (.persistenceConflict "party command idempotency key was reused")
    else return (existing, db)
  | none =>
    unique (db.commands.any (fun c => c.id = command.id)) "bilateral_party_commands_pkey"
    let record : BilateralPartyCommand := {
      command with organizationId := organizationId, payloadHash := payloadHash }
    return (record, { db with commands := db.commands ++ [record] })

def getCase (caseId : String) (db : Db) : Exchanged BilateralExchangeCase :=
  match db.cases.find? (fun c => c.organizationId = organizationId ∧ c.id = caseId) with
  | some record => .ok record
  | none => .error (.recordNotFound "bilateral exchange case was not found")

/-- The transitions of a case. -/
def Db.transitionsOf (db : Db) (organizationId caseId : String) : List BilateralTransition :=
  db.transitions.filter (fun t => t.organizationId = organizationId ∧ t.caseId = caseId)

/-- `coalesce(max(sequence), 0) + 1` -/
def Db.nextSequence (db : Db) (organizationId caseId : String) : Nat :=
  ((db.transitionsOf organizationId caseId).map (·.sequence)).foldl max 0 + 1

/-- The row of a case after a compiled command. -/
def BilateralExchangeCase.advance (exchange : BilateralExchangeCase) (next : CoordinatorState)
    (stateHash commandId : String) : BilateralExchangeCase :=
  { exchange with
    state := next.state
    version := next.version
    coordinatorState := next
    stateHash := stateHash
    lastCommandId := some commandId }

/-- The keys of a transition cannot be taken: its sequence is beyond all others and its
    command was looked for. -/
def applyCommand (exchange : BilateralExchangeCase) (command : PartyCommand rt)
    (commandOrganizationId : String) (db : Db) : Exchanged (CompiledTransition × Db) := do
  if (db.transitionsOf organizationId exchange.id).any (fun t => t.commandId = command.id) then
    throw (.persistenceConflict "party command was already applied")
  let compiled ← compilePartyCommand rt exchange.coordinatorState command
  let stateHash ← exchangeHash rt compiled.nextState.toJson
  let sequence := db.nextSequence organizationId exchange.id
  let transitionHash ← exchangeHash rt (.obj [("case_id", .str exchange.id),
    ("sequence", .nat sequence), ("command_id", .str command.id),
    ("command_organization_id", .str commandOrganizationId),
    ("previous_state", .str compiled.previousState.value),
    ("next_state", .str compiled.nextState.state.value), ("state_hash", .str stateHash)])
  let transition : BilateralTransition := {
    organizationId := organizationId
    caseId := exchange.id
    sequence := sequence
    command := command.toPartyCommandData
    commandOrganizationId := commandOrganizationId
    previousState := compiled.previousState
    nextState := compiled.nextState.state
    transitionHash := transitionHash }
  return (compiled, { db with
    transitions := db.transitions ++ [transition]
    cases := Table.update (·.id) exchange.id
      (fun c => c.advance compiled.nextState stateHash command.id) db.cases })

/-! ## Projections -/

def publishProjection (shown : PartyProjection) (db : Db) :
    Exchanged (BilateralPartyProjection × Db) :=
  match db.projections.find? (fun p => p.organizationId = organizationId ∧
      p.caseId = shown.caseId ∧ p.party = shown.party ∧ p.version = shown.version) with
  | some existing =>
    if existing.projectionHash ≠ shown.projectionHash then
      .error (.persistenceConflict "projection version already has another payload")
    else .ok (existing, db)
  | none => do
    unique (db.projections.any (fun p => p.organizationId = organizationId ∧
      p.projectionHash = shown.projectionHash)) "uq_bilateral_projection_hash"
    let record : BilateralPartyProjection := { shown with organizationId := organizationId }
    return (record, { db with projections := db.projections ++ [record] })

/-- How every operation of the service ends its transaction in the buyer's tenant. -/
def applyAndPublish (exchange : BilateralExchangeCase) (command : PartyCommand rt)
    (commandOrganizationId : String) (db : Db) : Exchanged (CompiledTransition × Db) := do
  let (compiled, db) ← applyCommand rt organizationId exchange command commandOrganizationId db
  let (_, db) ← publishProjection organizationId compiled.buyerProjection db
  return (compiled, db)

def latestProjection (caseId : String) (party : ExchangeParty) (db : Db) :
    Exchanged BilateralPartyProjection :=
  match Table.latest (·.version) (db.projections.filter (fun p =>
      p.organizationId = organizationId ∧ p.caseId = caseId ∧ p.party = party)) with
  | some record => .ok record
  | none => .error (.recordNotFound "party projection was not found")

/-! ## Disclosures -/

def storeReleaseManifest (manifest : ReleaseManifest) (db : Db) :
    Exchanged (BilateralReleaseManifest × Db) :=
  match db.manifests.find? (fun m => m.manifestId = manifest.manifestId) with
  | some existing =>
    if existing.organizationId ≠ organizationId ∨ existing.manifestHash ≠ manifest.manifestHash then
      .error (.persistenceConflict "release manifest id was reused")
    else .ok (existing, db)
  | none => do
    unique (db.manifests.any (fun m => m.organizationId = organizationId ∧
      m.manifestHash = manifest.manifestHash)) "uq_release_manifest_hash"
    let record : BilateralReleaseManifest := { manifest with organizationId := organizationId }
    return (record, { db with manifests := db.manifests ++ [record] })

def storeEnvelope (envelope : ExchangeEnvelope) (db : Db) :
    Exchanged (BilateralExchangeEnvelope × Db) :=
  match db.envelopes.find? (fun e => e.envelopeId = envelope.envelopeId) with
  | some existing =>
    if existing.organizationId ≠ organizationId ∨ existing.payloadHash ≠ envelope.payloadHash then
      .error (.persistenceConflict "exchange envelope id was reused")
    else .ok (existing, db)
  | none =>
    match db.manifests.find? (fun m => m.organizationId = organizationId ∧
        m.manifestHash = envelope.manifestHash) with
    | none => .error (.recordNotFound "release manifest was not found")
    | some manifest =>
      if manifest.caseId ≠ envelope.caseId ∨ manifest.owner ≠ envelope.sender ∨
          manifest.recipient ≠ envelope.recipient ∨ manifest.status ≠ .active ∨
          manifest.expiresAt.micros ≤ envelope.expiresAt.micros then
        .error (.persistenceConflict "envelope exceeds its release authorization")
      else do
        unique (db.envelopes.any (fun e => e.organizationId = organizationId ∧
          e.caseId = envelope.caseId ∧ e.sender = envelope.sender ∧
          e.sequence = envelope.sequence)) "uq_exchange_envelope_sequence"
        unique (db.envelopes.any (fun e => e.organizationId = organizationId ∧
          e.payloadHash = envelope.payloadHash)) "uq_exchange_envelope_hash"
        let record : BilateralExchangeEnvelope := { envelope with organizationId := organizationId }
        return (record, { db with envelopes := db.envelopes ++ [record] })

/-! ## Offers and approvals -/

/-- The offers of a case. -/
def Db.offersOf (db : Db) (organizationId caseId : String) : List BilateralOfferVersion :=
  db.offers.filter (fun o => o.organizationId = organizationId ∧ o.terms.caseId = caseId)

/-- The offer of a case with the highest version. -/
def Db.latestOffer (db : Db) (organizationId caseId : String) : Option BilateralOfferVersion :=
  Table.latest (·.terms.version) (db.offersOf organizationId caseId)

def BilateralOfferVersion.withStatus (status : OfferApprovalStatus)
    (record : BilateralOfferVersion) : BilateralOfferVersion :=
  { record with approvalStatus := status }

/-- `except ValueError as error: raise PersistenceConflict(str(error))` -/
def asConflict : ExchangeError → ExchangeError
  | .contractViolation message => .persistenceConflict message
  | error => error

/-- The offers once the latest one has made way for a new offer. -/
def supersedeLatest (offer : OfferVersion) (db : Db) : Exchanged (List BilateralOfferVersion) :=
  match db.latestOffer organizationId offer.caseId with
  | none =>
    if offer.version ≠ 1 then
      .error (.persistenceConflict "negotiation must begin with offer version 1")
    else .ok db.offers
  | some latest => do
    (validateCounteroffer latest.terms offer).mapError asConflict
    if latest.approvalStatus = .approved then
      throw (.persistenceConflict "an approved offer cannot be countered")
    return Table.update (·.id) latest.id (·.withStatus .superseded) db.offers

def storeOffer (offer : OfferVersion) (db : Db) : Exchanged (BilateralOfferVersion × Db) :=
  match db.offers.find? (fun o => o.organizationId = organizationId ∧
      o.terms.offerHash = offer.offerHash) with
  | some existing => .ok (existing, db)
  | none => do
    let offers ← supersedeLatest organizationId offer db
    unique (offers.any (fun o => o.id = offerRowId offer.toOfferVersionData))
      "bilateral_offer_versions_pkey"
    unique (offers.any (fun o => o.organizationId = organizationId ∧
      o.terms.caseId = offer.caseId ∧ o.terms.version = offer.version)) "uq_offer_case_version"
    let record : BilateralOfferVersion := ⟨organizationId, offer, offer.approvalStatus⟩
    return (record, { db with offers := offers ++ [record] })

def approveOffer (approval : OfferApproval) (now : Datetime) (db : Db) :
    Exchanged (BilateralOfferApproval × Db) :=
  match db.approvals.find? (fun a => a.organizationId = organizationId ∧
      a.caseId = approval.caseId ∧ a.offerHash = approval.offerHash) with
  | some existing => .ok (existing, db)
  | none =>
    match db.latestOffer organizationId approval.caseId with
    | none => .error (.recordNotFound "offer was not found")
    | some offerRecord => do
      let _ ← approval.authorize offerRecord.terms now
      let approvalHash ← exchangeHash rt (.obj approval.toJson)
      unique (db.approvals.any (fun a => a.approvalId = approval.approvalId))
        "bilateral_offer_approvals_pkey"
      unique (db.approvals.any (fun a => a.organizationId = organizationId ∧
        a.approvalHash = approvalHash)) "uq_offer_approval_hash"
      let record : BilateralOfferApproval := {
        approval with organizationId := organizationId, approvalHash := approvalHash }
      return (record, { db with
        approvals := db.approvals ++ [record]
        offers := Table.update (·.id) offerRecord.id (·.withStatus .approved) db.offers })

/-! ## Handoffs -/

def storeHandoff (handoff : ExchangePaymentHandoff) (db : Db) :
    Exchanged (BilateralExchangeHandoff × Db) :=
  match db.handoffs.find? (fun h => h.organizationId = organizationId ∧
      h.caseId = handoff.caseId ∧ h.offerHash = handoff.offerHash) with
  | some existing =>
    if existing.handoffHash ≠ handoff.handoffHash then
      .error (.persistenceConflict "approved offer is bound to another handoff")
    else .ok (existing, db)
  | none => do
    unique (db.handoffs.any (fun h => h.handoffId = handoff.handoffId))
      "bilateral_exchange_handoffs_pkey"
    unique (db.handoffs.any (fun h => h.organizationId = organizationId ∧
      h.handoffHash = handoff.handoffHash)) "uq_bilateral_handoff_hash"
    let record : BilateralExchangeHandoff := { handoff with organizationId := organizationId }
    return (record, { db with handoffs := db.handoffs ++ [record] })

/-- The stored handoff is validated again, with its hash, before it is opened. -/
def openHandoff (https : String → Bool) (handoffId expectedHash : String) (now : Datetime)
    (db : Db) : Exchanged (BilateralExchangeHandoff × Db) :=
  match db.handoffs.find? (fun h => h.organizationId = organizationId ∧
      h.handoffId = handoffId) with
  | none => .error (.recordNotFound "exchange handoff was not found")
  | some record => do
    if record.handoffHash ≠ expectedHash then
      throw (.persistenceConflict "exchange handoff hash does not match")
    let current ← ExchangePaymentHandoff.new rt https record.toExchangePaymentHandoffData
    ensure (decide (record.handoffHash = current.handoffHash))
      "handoff_hash does not match the canonical exchange handoff"
    let opened ← current.openAt now
    let changed : BilateralExchangeHandoff := {
      record with status := opened.status, openedAt := opened.openedAt }
    return (changed, { db with
      handoffs := Table.update (·.handoffId) record.handoffId
        (fun h => { h with status := opened.status, openedAt := opened.openedAt }) db.handoffs })

end Repository

/-! ## What the operations leave -/

section Specs

variable {rt : Runtime} {organizationId : String} {db db' : Db}

/-- The row of a case that was just created. -/
structure BilateralExchangeCase.Fresh (record : BilateralExchangeCase)
    (organizationId caseId sellerOrganizationId : String) : Prop where
  id : record.id = caseId
  organization : record.organizationId = organizationId
  seller : record.sellerOrganizationId = sellerOrganizationId
  version : record.version = 1
  coordinator : record.coordinatorState = { caseId := caseId }
  state : record.state = .created

variable {caseId : String} {record : BilateralExchangeHandoff} {now : Datetime}
  {handoff : ExchangePaymentHandoff}

theorem createCase_eq_ok {sellerOrganizationId : String} {record : BilateralExchangeCase}
    (h : createCase rt organizationId caseId sellerOrganizationId db = .ok (record, db')) :
    (record ∈ db.cases ∧ record.id = caseId ∧ record.organizationId = organizationId ∧ db' = db) ∨
      (record.Fresh organizationId caseId sellerOrganizationId ∧
        (∀ c ∈ db.cases, c.id ≠ caseId) ∧ db' = { db with cases := db.cases ++ [record] }) := by
  unfold createCase at h
  split at h
  · next existing hfind =>
    split at h
    · cases h
    · next horg =>
      cases h
      have hid : record.id = caseId := by simpa using List.find?_some hfind
      exact .inl ⟨List.mem_of_find?_eq_some hfind, hid, not_not.mp horg, rfl⟩
  · next hnone =>
    obtain ⟨stateHash, -, h⟩ := bind_eq_ok.mp h
    cases h
    refine .inr ⟨⟨rfl, rfl, rfl, rfl, rfl, rfl⟩, ?_, rfl⟩
    intro c hc
    simpa using List.find?_eq_none.mp hnone c hc

theorem createCase_organization {sellerOrganizationId : String} {record : BilateralExchangeCase}
    (h : createCase rt organizationId caseId sellerOrganizationId db = .ok (record, db')) :
    record.organizationId = organizationId := by
  rcases createCase_eq_ok h with ⟨-, -, horg, -⟩ | ⟨hfresh, -⟩
  · exact horg
  · exact hfresh.organization

theorem appendCommand_frame {command : PartyCommandData} {record : BilateralPartyCommand}
    (h : appendCommand rt organizationId command db = .ok (record, db')) :
    db' = { db with commands := db'.commands } := by
  unfold appendCommand at h
  obtain ⟨payloadHash, -, h⟩ := bind_eq_ok.mp h
  split at h
  · split at h
    · cases h
    · cases h
      rfl
  · obtain ⟨-, -, h⟩ := bind_eq_ok.mp h
    cases h
    rfl

theorem getCase_eq_ok {record : BilateralExchangeCase}
    (h : getCase organizationId caseId db = .ok record) :
    record ∈ db.cases ∧ record.organizationId = organizationId ∧ record.id = caseId := by
  unfold getCase at h
  split at h
  · next found hfind =>
    cases h
    have hkeys : record.organizationId = organizationId ∧ record.id = caseId := by
      simpa using List.find?_some hfind
    exact ⟨List.mem_of_find?_eq_some hfind, hkeys⟩
  · cases h

/-- What an applied command has checked and what it leaves. -/
structure Applied (rt : Runtime) (organizationId : String) (exchange : BilateralExchangeCase)
    (command : PartyCommand rt) (compiled : CompiledTransition) (transition : BilateralTransition)
    (stateHash : String) (db db' : Db) : Prop where
  fresh : ∀ t ∈ db.transitionsOf organizationId exchange.id, t.commandId ≠ command.id
  compiles : Compiles rt exchange.coordinatorState command compiled
  organization : transition.organizationId = organizationId
  caseId : transition.caseId = exchange.id
  sequence : transition.sequence = db.nextSequence organizationId exchange.id
  records : transition.command = command.toPartyCommandData
  leaves : db' = { db with
    transitions := db.transitions ++ [transition]
    cases := Table.update (·.id) exchange.id
      (fun c => c.advance compiled.nextState stateHash command.id) db.cases }

theorem applyCommand_eq_ok {exchange : BilateralExchangeCase} {command : PartyCommand rt}
    {commandOrganizationId : String} {compiled : CompiledTransition}
    (h : applyCommand rt organizationId exchange command commandOrganizationId db =
      .ok (compiled, db')) :
    ∃ transition stateHash,
      Applied rt organizationId exchange command compiled transition stateHash db db' := by
  unfold applyCommand at h
  dsimp only at h
  split at h
  · cases h
  · next hfresh =>
    obtain ⟨compiled', hcompiled, h⟩ := bind_eq_ok.mp h
    obtain ⟨stateHash, -, h⟩ := bind_eq_ok.mp h
    obtain ⟨transitionHash, -, h⟩ := bind_eq_ok.mp h
    cases h
    refine ⟨_, stateHash, ?_, compiles_of_compilePartyCommand hcompiled, ?_, ?_, ?_, ?_, rfl⟩
    · intro t ht heq
      exact hfresh (List.any_eq_true.mpr ⟨t, ht, by simpa using heq⟩)
    · rfl
    · rfl
    · rfl
    · rfl

theorem publishProjection_eq_ok {shown : PartyProjection} {record : BilateralPartyProjection}
    (h : publishProjection organizationId shown db = .ok (record, db')) :
    (db' = db ∧ record ∈ db.projections ∧ record.organizationId = organizationId ∧
        record.caseId = shown.caseId ∧ record.party = shown.party ∧
        record.version = shown.version) ∨
      (db' = { db with projections := db.projections ++ [record] } ∧
        record = { shown with organizationId := organizationId }) := by
  unfold publishProjection at h
  split at h
  · next existing hfind =>
    split at h
    · cases h
    · cases h
      have hkeys : record.organizationId = organizationId ∧ record.caseId = shown.caseId ∧
          record.party = shown.party ∧ record.version = shown.version := by
        simpa using List.find?_some hfind
      exact .inl ⟨rfl, List.mem_of_find?_eq_some hfind, hkeys⟩
  · obtain ⟨-, -, h⟩ := bind_eq_ok.mp h
    cases h
    exact .inr ⟨rfl, rfl⟩

theorem applyAndPublish_eq_ok {exchange : BilateralExchangeCase} {command : PartyCommand rt}
    {commandOrganizationId : String} {compiled : CompiledTransition}
    (h : applyAndPublish rt organizationId exchange command commandOrganizationId db =
      .ok (compiled, db')) :
    ∃ transition stateHash between record,
      Applied rt organizationId exchange command compiled transition stateHash db between ∧
      publishProjection organizationId compiled.buyerProjection between = .ok (record, db') := by
  unfold applyAndPublish at h
  obtain ⟨⟨compiled', between⟩, happly, h⟩ := bind_eq_ok.mp h
  obtain ⟨⟨record, db''⟩, hpublish, h⟩ := bind_eq_ok.mp h
  cases h
  obtain ⟨transition, stateHash, happlied⟩ := applyCommand_eq_ok happly
  exact ⟨transition, stateHash, between, record, happlied, hpublish⟩

theorem storeReleaseManifest_frame {manifest : ReleaseManifest} {record : BilateralReleaseManifest}
    (h : storeReleaseManifest organizationId manifest db = .ok (record, db')) :
    db' = { db with manifests := db'.manifests } := by
  unfold storeReleaseManifest at h
  split at h
  · split at h
    · cases h
    · cases h
      rfl
  · obtain ⟨-, -, h⟩ := bind_eq_ok.mp h
    cases h
    rfl

theorem storeEnvelope_frame {envelope : ExchangeEnvelope} {record : BilateralExchangeEnvelope}
    (h : storeEnvelope organizationId envelope db = .ok (record, db')) :
    db' = { db with envelopes := db'.envelopes } := by
  unfold storeEnvelope at h
  split at h
  · split at h
    · cases h
    · cases h
      rfl
  · split at h
    · cases h
    · split at h
      · cases h
      · obtain ⟨-, -, h⟩ := bind_eq_ok.mp h
        obtain ⟨-, -, h⟩ := bind_eq_ok.mp h
        cases h
        rfl

theorem supersedeLatest_eq_ok {offer : OfferVersion} {offers : List BilateralOfferVersion}
    (h : supersedeLatest organizationId offer db = .ok offers) :
    (db.latestOffer organizationId offer.caseId = none ∧ offer.version = 1 ∧ offers = db.offers) ∨
      ∃ latest, db.latestOffer organizationId offer.caseId = some latest ∧
        validateCounteroffer latest.terms offer = .ok () ∧
        offers = Table.update (·.id) latest.id (·.withStatus .superseded) db.offers := by
  unfold supersedeLatest at h
  split at h
  · next hnone =>
    split at h
    · cases h
    · next hversion =>
      cases h
      exact .inl ⟨hnone, not_not.mp hversion, rfl⟩
  · next latest hlatest =>
    obtain ⟨⟨⟩, hcounter, h⟩ := bind_eq_ok.mp h
    have hcounter : validateCounteroffer latest.terms offer = .ok () := by
      cases hvalid : validateCounteroffer latest.terms offer with
      | ok u => rfl
      | error e =>
        rw [hvalid] at hcounter
        cases hcounter
    split at h
    · cases h
    · cases h
      exact .inr ⟨latest, hlatest, hcounter, rfl⟩

theorem storeOffer_eq_ok {offer : OfferVersion} {record : BilateralOfferVersion}
    (h : storeOffer organizationId offer db = .ok (record, db')) :
    (db' = db ∧ record ∈ db.offers ∧ record.organizationId = organizationId ∧
        record.terms.offerHash = offer.offerHash) ∨
      ∃ offers, supersedeLatest organizationId offer db = .ok offers ∧
        (∀ o ∈ offers, o.id ≠ offerRowId offer.toOfferVersionData) ∧
        record = ⟨organizationId, offer, offer.approvalStatus⟩ ∧
        db' = { db with offers := offers ++ [record] } := by
  unfold storeOffer at h
  split at h
  · next existing hfind =>
    cases h
    have hkeys : record.organizationId = organizationId ∧
        record.terms.offerHash = offer.offerHash := by simpa using List.find?_some hfind
    exact .inl ⟨rfl, List.mem_of_find?_eq_some hfind, hkeys⟩
  · obtain ⟨offers, hoffers, h⟩ := bind_eq_ok.mp h
    obtain ⟨⟨⟩, hid, h⟩ := bind_eq_ok.mp h
    obtain ⟨⟨⟩, -, h⟩ := bind_eq_ok.mp h
    cases h
    refine .inr ⟨offers, hoffers, ?_, rfl, rfl⟩
    intro o ho heq
    have hany := List.any_eq_false.mp (unique_eq_ok.mp hid) o ho
    simp [heq] at hany

theorem approveOffer_eq_ok {approval : OfferApproval} {record : BilateralOfferApproval}
    (h : approveOffer rt organizationId approval now db = .ok (record, db')) :
    (db' = db ∧ record ∈ db.approvals ∧ record.organizationId = organizationId ∧
        record.caseId = approval.caseId ∧ record.offerHash = approval.offerHash) ∨
      ∃ latest, db.latestOffer organizationId approval.caseId = some latest ∧
        approval.offerHash = latest.terms.offerHash ∧
        record.organizationId = organizationId ∧ record.caseId = approval.caseId ∧
        record.offerHash = approval.offerHash ∧
        db' = { db with
          approvals := db.approvals ++ [record]
          offers := Table.update (·.id) latest.id (·.withStatus .approved) db.offers } := by
  unfold approveOffer at h
  split at h
  · next existing hfind =>
    cases h
    have hkeys : record.organizationId = organizationId ∧ record.caseId = approval.caseId ∧
        record.offerHash = approval.offerHash := by simpa using List.find?_some hfind
    exact .inl ⟨rfl, List.mem_of_find?_eq_some hfind, hkeys⟩
  · split at h
    · cases h
    · next latest hlatest =>
      obtain ⟨authorized, hauthorize, h⟩ := bind_eq_ok.mp h
      obtain ⟨approvalHash, -, h⟩ := bind_eq_ok.mp h
      obtain ⟨⟨⟩, -, h⟩ := bind_eq_ok.mp h
      obtain ⟨⟨⟩, -, h⟩ := bind_eq_ok.mp h
      cases h
      exact .inr ⟨latest, hlatest, OfferApproval.authorize_eq_ok hauthorize, rfl, rfl, rfl, rfl⟩

theorem storeHandoff_frame (h : storeHandoff organizationId handoff db = .ok (record, db')) :
    db' = { db with handoffs := db'.handoffs } := by
  unfold storeHandoff at h
  split at h
  · split at h
    · cases h
    · cases h
      rfl
  · obtain ⟨-, -, h⟩ := bind_eq_ok.mp h
    obtain ⟨-, -, h⟩ := bind_eq_ok.mp h
    cases h
    rfl

theorem openHandoff_frame {https : String → Bool} {handoffId expectedHash : String}
    (h : openHandoff rt organizationId https handoffId expectedHash now db = .ok (record, db')) :
    db' = { db with handoffs := db'.handoffs } := by
  unfold openHandoff at h
  split at h
  · cases h
  · dsimp only at h
    split at h
    · cases h
    · obtain ⟨current, -, h⟩ := bind_eq_ok.mp h
      obtain ⟨-, -, h⟩ := bind_eq_ok.mp h
      obtain ⟨opened, -, h⟩ := bind_eq_ok.mp h
      cases h
      rfl

theorem storeHandoff_eq_ok (h : storeHandoff organizationId handoff db = .ok (record, db')) :
    (db' = db ∧ record ∈ db.handoffs ∧ record.organizationId = organizationId ∧
        record.caseId = handoff.caseId ∧ record.offerHash = handoff.offerHash ∧
        record.handoffHash = handoff.handoffHash) ∨
      ((∀ r ∈ db.handoffs, ¬ (r.organizationId = organizationId ∧ r.caseId = handoff.caseId ∧
          r.offerHash = handoff.offerHash)) ∧
        (∀ r ∈ db.handoffs, r.handoffId ≠ handoff.handoffId) ∧
        record = { handoff with organizationId := organizationId } ∧
        db' = { db with handoffs := db.handoffs ++ [record] }) := by
  unfold storeHandoff at h
  split at h
  · next existing hfind =>
    split at h
    · cases h
    · next hhash =>
      cases h
      have hkeys : record.organizationId = organizationId ∧ record.caseId = handoff.caseId ∧
          record.offerHash = handoff.offerHash := by simpa using List.find?_some hfind
      exact .inl ⟨rfl, List.mem_of_find?_eq_some hfind, hkeys.1, hkeys.2.1, hkeys.2.2,
        not_not.mp hhash⟩
  · next hnone =>
    obtain ⟨⟨⟩, hid, h⟩ := bind_eq_ok.mp h
    obtain ⟨⟨⟩, -, h⟩ := bind_eq_ok.mp h
    cases h
    refine .inr ⟨?_, ?_, rfl, rfl⟩
    · intro r hr hkeys
      exact absurd hkeys (by simpa using List.find?_eq_none.mp hnone r hr)
    · intro r hr
      simpa using List.any_eq_false.mp (unique_eq_ok.mp hid) r hr

theorem storeHandoff_of_mem (hmem : record ∈ db.handoffs)
    (hkeys : record.organizationId = organizationId ∧ record.caseId = handoff.caseId ∧
      record.offerHash = handoff.offerHash)
    (hkeyed : Table.Keyed (fun h : BilateralExchangeHandoff =>
      (h.organizationId, h.caseId, h.offerHash)) db.handoffs) :
    storeHandoff organizationId handoff db =
      if record.handoffHash ≠ handoff.handoffHash then
        .error (.persistenceConflict "approved offer is bound to another handoff")
      else .ok (record, db) := by
  have hfind : db.handoffs.find? (fun h => h.organizationId = organizationId ∧
      h.caseId = handoff.caseId ∧ h.offerHash = handoff.offerHash) = some record :=
    hkeyed.find?_eq hmem (by simpa using hkeys) (fun r _ hr => by
      have hr : r.organizationId = organizationId ∧ r.caseId = handoff.caseId ∧
          r.offerHash = handoff.offerHash := by simpa using hr
      simp only [hr.1, hr.2.1, hr.2.2, hkeys.1, hkeys.2.1, hkeys.2.2])
  unfold storeHandoff
  rw [hfind]

/-- A handoff is opened by its id and its hash, after its contract was validated again. -/
theorem openHandoff_eq_ok {https : String → Bool} {handoffId expectedHash : String}
    (h : openHandoff rt organizationId https handoffId expectedHash now db = .ok (record, db')) :
    ∃ stored current opened, stored ∈ db.handoffs ∧ stored.organizationId = organizationId ∧
      stored.handoffId = handoffId ∧ stored.handoffHash = expectedHash ∧
      ExchangePaymentHandoff.new rt https stored.toExchangePaymentHandoffData = .ok current ∧
      current.openAt now = .ok opened ∧
      record = { stored with status := opened.status, openedAt := opened.openedAt } ∧
      db' = { db with
        handoffs := Table.update (·.handoffId) stored.handoffId
          (fun h => { h with status := opened.status, openedAt := opened.openedAt })
          db.handoffs } := by
  unfold openHandoff at h
  split at h
  · cases h
  · next stored hfind =>
    have hkeys : stored.organizationId = organizationId ∧ stored.handoffId = handoffId := by
      simpa using List.find?_some hfind
    dsimp only at h
    split at h
    · cases h
    · next hhash =>
      obtain ⟨current, hcurrent, h⟩ := bind_eq_ok.mp h
      obtain ⟨-, -, h⟩ := bind_eq_ok.mp h
      obtain ⟨opened, hopened, h⟩ := bind_eq_ok.mp h
      cases h
      exact ⟨stored, current, opened, List.mem_of_find?_eq_some hfind, hkeys.1, hkeys.2,
        not_not.mp hhash, hcurrent, hopened, rfl, rfl⟩

end Specs

end Persistence
