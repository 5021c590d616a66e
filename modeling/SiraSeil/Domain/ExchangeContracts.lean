-- SUMMARY: The disclosure and offer contracts of the exchange: manifests, envelopes, offers and their counters, approvals, payment handoffs and routes.
import SiraSeil.Domain.BilateralExchange
import SiraSeil.Domain.Money
import SiraSeil.Library.Sorting

/-!
# Exchange contracts

`domain/exchange_contracts.py`. A contract is validated when it is built and
carries the hash of its own content. The approval status of an offer and the
status of a handoff are left out of their hashes, so neither changes when the
contract advances. Amounts are decimals with at most two places and are held in
cents. The routes of `domain/exchange_route.py` close the module.
-/

namespace Domain

open Raising

inductive ReleaseStatus
  | active | revoked
  deriving DecidableEq

def ReleaseStatus.value : ReleaseStatus → String
  | active => "ACTIVE"
  | revoked => "REVOKED"

inductive OfferApprovalStatus
  | pending | approved | rejected | revoked | superseded
  deriving DecidableEq

def OfferApprovalStatus.value : OfferApprovalStatus → String
  | pending => "PENDING"
  | approved => "APPROVED"
  | rejected => "REJECTED"
  | revoked => "REVOKED"
  | superseded => "SUPERSEDED"

inductive ExchangeHandoffStatus
  | ready | opened | expired | cancelled
  deriving DecidableEq

/-! ## Shared checks -/

/-- `^sha256:[0-9a-f]{64}$` -/
def isHash (text : String) : Bool :=
  let digits := text.toList.drop 7
  startsWith text "sha256:" && decide (digits.length = 64) && digits.all (· ∈ hexDigits)

/-- `_require_aware` -/
def requireAware (value : Datetime) (name : String) : Exchanged Unit :=
  ensure value.aware (name ++ " must include a timezone")

/-- `_participant` -/
def participant (value : ExchangeParty) (name : String) : Exchanged Unit :=
  ensure (decide (value ≠ .system)) (name ++ " must be BUYER or SELLER")

/-- Content hashing in a model validator or an operation of the exchange. -/
def exchangeHash (rt : Runtime) (value : Value) : Exchanged String :=
  (contentHash rt value).mapError ExchangeError.domain

theorem exchangeHash_eq_ok {rt : Runtime} {value : Value} {hash : String} :
    exchangeHash rt value = .ok hash ↔ contentHash rt value = .ok hash := by
  unfold exchangeHash
  cases contentHash rt value <;> simp [Except.mapError]

/-- `key.casefold().replace("-", "_")` contains a marker of private data. -/
def privateKey (rt : Runtime) (key : String) : Bool :=
  let normalized := String.ofList ((rt.casefold key).toList.map (fun c => if c = '-' then '_' else c))
  ["hidden_budget", "reservation_value", "seller_floor", "private_note", "private_source",
    "buyer_private", "seller_private"].any (hasPart normalized)

/-- `_assert_public_tree` -/
def assertPublicTree (rt : Runtime) (fields : Fields) : Exchanged Unit :=
  if Value.namesFields (privateKey rt) fields then
    .error (.contractViolation "private-plane data cannot enter an exchange contract")
  else .ok ()

/-- `_decimal_text` of an amount in cents. -/
def decimalText (cents : Nat) : String :=
  if cents % 100 = 0 then toString (cents / 100)
  else if cents % 10 = 0 then toString (cents / 100) ++ "." ++ toString (cents / 10 % 10)
  else toString (cents / 100) ++ "." ++ Money.twoDigits (cents % 100)

/-- The JSON text of an amount in cents. -/
def amountJson (cents : Nat) : Value :=
  .str (toString (cents / 100) ++ "." ++ Money.twoDigits (cents % 100))

/-- The JSON text of a timestamp. -/
def datetimeJson (value : Datetime) : Value :=
  .str (String.ofList (Rfc8785.datetimeText value.micros))

/-- `Field(ge=0, max_digits=20, decimal_places=2)` of an amount in cents. -/
def boundedAmount (cents : Nat) : Bool :=
  decide (cents < 10 ^ 20)

/-! ## Disclosure -/

inductive Transformation
  | identity | lowercase | redact
  deriving DecidableEq

def Transformation.value : Transformation → String
  | identity => "IDENTITY"
  | lowercase => "LOWERCASE"
  | redact => "REDACT"

structure ReleaseManifestData where
  manifestId : String
  caseId : String
  owner : ExchangeParty
  recipient : ExchangeParty
  purpose : String
  fields : List String
  transformations : List (String × Transformation)
  sourceVersions : List (String × Nat)
  expiresAt : Datetime
  approvalId : String
  approvedPayloadHash : String
  status : ReleaseStatus := .active

namespace ReleaseManifestData

/-- `approval_payload` -/
def approvalPayload (m : ReleaseManifestData) : Fields :=
  [("case_id", .str m.caseId), ("owner", .str m.owner.value),
    ("recipient", .str m.recipient.value), ("purpose", .str m.purpose), ("fields", .strs m.fields),
    ("transformations", .obj (m.transformations.map (fun p => (p.1, .str p.2.value)))),
    ("source_versions", .obj (m.sourceVersions.map (fun p => (p.1, .nat p.2)))),
    ("expires_at", .datetime m.expiresAt)]

/-- `hash_payload` -/
def hashPayload (m : ReleaseManifestData) : Value :=
  .obj ([("schema_version", .str "release-manifest.v1"), ("manifest_id", .str m.manifestId)] ++
    m.approvalPayload ++
    [("approval_id", .str m.approvalId), ("approved_payload_hash", .str m.approvedPayloadHash),
      ("status", .str m.status.value)])

/-- `validate_contract`, before the manifest is hashed. -/
def validate (rt : Runtime) (m : ReleaseManifestData) : Exchanged Unit := do
  ensure (boundedText m.manifestId 64 && boundedText m.caseId 64 && boundedText m.purpose 240 &&
    !m.fields.isEmpty && !m.sourceVersions.isEmpty && boundedText m.approvalId 64 &&
    isHash m.approvedPayloadHash) "release-manifest.v1"
  participant m.owner "owner"
  participant m.recipient "recipient"
  ensure (decide (m.owner ≠ m.recipient)) "release recipient must be the other exchange party"
  requireAware m.expiresAt "expires_at"
  ensure (decide m.fields.Nodup) "release fields must be unique"
  ensure (m.fields.all (fun field => field != "" && !field.toList.contains '.' && !privateKey rt field))
    "release fields must be safe top-level field names"
  ensure (m.transformations.all (fun p => m.fields.contains p.1))
    "transformations may reference only released fields"
  ensure (m.sourceVersions.all (fun p => decide (1 ≤ p.2))) "source versions must be positive"
  let approved ← exchangeHash rt (.obj m.approvalPayload)
  ensure (m.approvedPayloadHash == approved)
    "release approval does not bind the exact disclosure payload"

end ReleaseManifestData

structure ReleaseManifest extends ReleaseManifestData where
  manifestHash : String

def ReleaseManifest.new (rt : Runtime) (m : ReleaseManifestData) : Exchanged ReleaseManifest := do
  m.validate rt
  let hash ← exchangeHash rt m.hashPayload
  return ⟨m, hash⟩

/-- One field of `release`. -/
def releaseField (lower : String → String) (transformations : List (String × Transformation))
    (field : String) (value : Value) : Exchanged (String × Value) :=
  match (transformations.lookup field).getD .identity, value with
  | .identity, value => .ok (field, value)
  | .redact, _ => .ok (field, .str "[redacted]")
  | .lowercase, .atom (.str text) => .ok (field, .str (lower text))
  | .lowercase, _ => .error (.contractViolation "LOWERCASE transformation requires text")

/-- `sorted(set(self.fields) - set(source))` -/
def ReleaseManifestData.missing (m : ReleaseManifestData) (source : Fields) : List String :=
  Sorting.sortedSet (m.fields.filter (fun field => (source.lookup field).isNone))

/-- The text of a list of strings; `repr` is the one of a string. -/
def reprList (repr : String → String) (texts : List String) : String :=
  "[" ++ String.intercalate ", " (texts.map repr) ++ "]"

/-- One field of `release`, read from its source. -/
def selectField (lower : String → String) (m : ReleaseManifestData) (source : Fields)
    (field : String) : Exchanged (String × Value) :=
  match source.lookup field with
  | some value => releaseField lower m.transformations field value
  | none => .error (.domain (.key field))

/-- `ReleaseManifest.release` -/
def ReleaseManifest.release (rt : Runtime) (lower repr : String → String) (m : ReleaseManifest)
    (source : Fields) (now : Datetime) : Exchanged Fields := do
  requireAware now "now"
  if m.status ≠ .active then throw (.contractViolation "release authorization has been revoked")
  if m.expiresAt.micros ≤ now.micros then
    throw (.contractViolation "release authorization has expired")
  if m.missing source ≠ [] then
    throw (.contractViolation
      ("release source is missing approved fields: " ++ reprList repr (m.missing source)))
  let selected ← m.fields.mapM (selectField lower m.toReleaseManifestData source)
  assertPublicTree rt selected
  return selected

/-- `ReleaseManifest.revoke` -/
def ReleaseManifest.revoke (rt : Runtime) (m : ReleaseManifest) : Exchanged ReleaseManifest :=
  if m.status = .revoked then .ok m
  else ReleaseManifest.new rt { m.toReleaseManifestData with status := .revoked }

structure ExchangeEnvelopeData where
  envelopeId : String
  caseId : String
  sender : ExchangeParty
  recipient : ExchangeParty
  sequence : Nat
  causationId : String
  manifestHash : String
  payload : Fields
  expiresAt : Datetime

/-- `hash_payload` -/
def ExchangeEnvelopeData.hashPayload (e : ExchangeEnvelopeData) : Value :=
  .obj [("schema_version", .str "exchange-envelope.v1"), ("envelope_id", .str e.envelopeId),
    ("case_id", .str e.caseId), ("sender", .str e.sender.value),
    ("recipient", .str e.recipient.value), ("sequence", .nat e.sequence),
    ("causation_id", .str e.causationId), ("manifest_hash", .str e.manifestHash),
    ("payload", .obj e.payload), ("expires_at", .datetime e.expiresAt)]

structure ExchangeEnvelope extends ExchangeEnvelopeData where
  payloadHash : String

/-- `validate_envelope` -/
def ExchangeEnvelope.new (rt : Runtime) (e : ExchangeEnvelopeData) : Exchanged ExchangeEnvelope := do
  ensure (boundedText e.envelopeId 64 && boundedText e.caseId 64 && decide (1 ≤ e.sequence) &&
    boundedText e.causationId 64 && isHash e.manifestHash) "exchange-envelope.v1"
  participant e.sender "sender"
  participant e.recipient "recipient"
  ensure (decide (e.sender ≠ e.recipient)) "exchange envelope must cross parties"
  requireAware e.expiresAt "expires_at"
  assertPublicTree rt e.payload
  let hash ← exchangeHash rt e.hashPayload
  return ⟨e, hash⟩

/-! ## Offers -/

structure OfferLine where
  itemId : String
  description : String
  quantity : Nat
  unitPrice : Nat
  deriving DecidableEq

def OfferLine.subtotal (line : OfferLine) : Nat :=
  line.unitPrice * line.quantity

def OfferLine.valid (line : OfferLine) : Bool :=
  boundedText line.itemId 64 && boundedText line.description 240 && decide (1 ≤ line.quantity) &&
    boundedAmount line.unitPrice

structure OfferVersionData where
  offerId : String
  caseId : String
  version : Nat
  proposer : ExchangeParty
  recipient : ExchangeParty
  predecessorHash : Option String := none
  changedTerms : List String
  rationale : String
  currency : String
  lines : List OfferLine
  total : Nat
  expiresAt : Datetime
  requirementHash : String
  evidenceHash : String
  approvalStatus : OfferApprovalStatus := .pending
  deriving DecidableEq

namespace OfferVersionData

/-- The members of an offer but for its status and hash, with its amounts and its
    expiry rendered by the given functions. -/
def members (o : OfferVersionData) (amount : Nat → Value) (time : Datetime → Value) : Fields :=
  [("schema_version", .str "offer.v1"), ("offer_id", .str o.offerId), ("case_id", .str o.caseId),
    ("version", .nat o.version), ("proposer", .str o.proposer.value),
    ("recipient", .str o.recipient.value), ("predecessor_hash", .opt .str o.predecessorHash),
    ("changed_terms", .strs o.changedTerms), ("rationale", .str o.rationale),
    ("currency", .str o.currency),
    ("lines", .seq (o.lines.map (fun line => .obj [("item_id", .str line.itemId),
      ("description", .str line.description), ("quantity", .nat line.quantity),
      ("unit_price", amount line.unitPrice)]))),
    ("total", amount o.total), ("expires_at", time o.expiresAt),
    ("requirement_hash", .str o.requirementHash), ("evidence_hash", .str o.evidenceHash)]

/-- `hash_payload` -/
def hashPayload (o : OfferVersionData) : Value :=
  .obj (o.members (fun cents => .str (decimalText cents)) .datetime)

/-- The fields of an offer, and `validate_offer` before its arithmetic. -/
def validateTerms (o : OfferVersionData) : Exchanged Unit := do
  ensure (boundedText o.offerId 64 && boundedText o.caseId 64 && decide (1 ≤ o.version) &&
    o.predecessorHash.all isHash && boundedText o.rationale 1000 && isCurrency o.currency &&
    !o.lines.isEmpty && o.lines.all OfferLine.valid && boundedAmount o.total &&
    isHash o.requirementHash && isHash o.evidenceHash) "offer.v1"
  participant o.proposer "proposer"
  participant o.recipient "recipient"
  ensure (decide (o.proposer ≠ o.recipient)) "offer recipient must be the other exchange party"
  requireAware o.expiresAt "expires_at"
  ensure (!(o.version == 1 && o.predecessorHash.isSome)) "initial offer cannot have a predecessor"
  ensure (!(decide (1 < o.version) && o.predecessorHash.isNone))
    "counteroffer must bind its predecessor"
  ensure (!(decide (1 < o.version) && o.changedTerms.isEmpty)) "counteroffer must name changed terms"
  ensure (decide o.changedTerms.Nodup) "changed terms must be unique"
  ensure (decide (o.lines.map (·.itemId)).Nodup) "offer line item ids must be unique"

/-- `validate_offer`, before the offer is hashed. -/
def validate (o : OfferVersionData) : Exchanged Unit := do
  o.validateTerms
  ensure ((o.lines.map OfferLine.subtotal).sum == o.total)
    "offer total does not equal line-item arithmetic"

end OfferVersionData

structure OfferVersion extends OfferVersionData where
  offerHash : String

def OfferVersion.new (rt : Runtime) (o : OfferVersionData) : Exchanged OfferVersion := do
  o.validate
  let hash ← exchangeHash rt o.hashPayload
  return ⟨o, hash⟩

/-- `model_dump(mode="json")` -/
def OfferVersion.toJson (o : OfferVersion) : Fields :=
  o.members amountJson datetimeJson ++
    [("approval_status", .str o.approvalStatus.value), ("offer_hash", .str o.offerHash)]

theorem OfferVersion.new_eq_ok {rt : Runtime} {data : OfferVersionData} {offer : OfferVersion}
    (h : OfferVersion.new rt data = .ok offer) :
    offer.toOfferVersionData = data ∧ contentHash rt data.hashPayload = .ok offer.offerHash := by
  unfold OfferVersion.new at h
  obtain ⟨-, -, h⟩ := bind_eq_ok.mp h
  obtain ⟨hash, hhash, h⟩ := bind_eq_ok.mp h
  obtain rfl := pure_eq_ok.mp h
  exact ⟨rfl, exchangeHash_eq_ok.mp hhash⟩

theorem OfferVersionData.keys_of_hashPayload {o o' : OfferVersionData}
    (h : o.hashPayload = o'.hashPayload) : o.caseId = o'.caseId ∧ o.version = o'.version := by
  simp only [hashPayload, members, Value.obj.injEq, List.cons.injEq, Prod.mk.injEq,
    Value.atom.injEq, Atom.str.injEq, Atom.int.injEq, Nat.cast_inj] at h
  exact ⟨h.2.2.1.2, h.2.2.2.1.2⟩

/-- `assert_actionable` -/
def OfferVersion.assertActionable (o : OfferVersion) (actor : ExchangeParty) (now : Datetime) :
    Exchanged Unit := do
  requireAware now "now"
  if actor ≠ o.recipient then
    throw (.contractViolation "only the current recipient may accept this offer")
  if o.expiresAt.micros ≤ now.micros then throw (.contractViolation "offer has expired")
  if o.approvalStatus ≠ .pending then throw (.contractViolation "offer is not pending")

/-- The terms that `validate_counteroffer` compares, by name. -/
def actualChanges (previous current : OfferVersion) : List String :=
  [("currency", decide (previous.currency ≠ current.currency)),
    ("lines", decide (previous.lines ≠ current.lines)),
    ("total", decide (previous.total ≠ current.total)),
    ("requirement_hash", decide (previous.requirementHash ≠ current.requirementHash)),
    ("evidence_hash", decide (previous.evidenceHash ≠ current.evidenceHash))].filterMap
      (fun p => if p.2 then some p.1 else none)

/-- `validate_counteroffer` -/
def validateCounteroffer (previous current : OfferVersion) : Exchanged Unit := do
  if current.caseId ≠ previous.caseId ∨ current.offerId ≠ previous.offerId then
    throw (.contractViolation "counteroffer targets another negotiation")
  if current.version ≠ previous.version + 1 then
    throw (.contractViolation "counteroffer version is not sequential")
  if current.predecessorHash ≠ some previous.offerHash then
    throw (.contractViolation "counteroffer does not bind the current offer")
  if current.proposer ≠ previous.recipient ∨ current.recipient ≠ previous.proposer then
    throw (.contractViolation "counteroffer parties do not alternate")
  let changes := actualChanges previous current
  if !(current.changedTerms.all changes.contains && changes.all current.changedTerms.contains) then
    throw (.contractViolation "changed_terms does not exactly describe the counteroffer")

theorem validateCounteroffer_eq_ok {previous current : OfferVersion}
    (h : validateCounteroffer previous current = .ok ()) :
    current.caseId = previous.caseId ∧ current.version = previous.version + 1 ∧
      current.predecessorHash = some previous.offerHash ∧
      current.proposer = previous.recipient ∧ current.recipient = previous.proposer := by
  unfold validateCounteroffer at h
  dsimp only at h
  split at h
  · cases h
  · next hcase =>
    split at h
    · cases h
    · next hversion =>
      split at h
      · cases h
      · next hpredecessor =>
        split at h
        · cases h
        · next hparties =>
          simp only [not_or, not_not] at hcase hparties
          exact ⟨hcase.1, not_not.mp hversion, not_not.mp hpredecessor, hparties.1, hparties.2⟩

theorem OfferVersion.assertActionable_eq_ok {offer : OfferVersion} {actor : ExchangeParty}
    {now : Datetime} (h : offer.assertActionable actor now = .ok ()) : actor = offer.recipient := by
  unfold OfferVersion.assertActionable at h
  obtain ⟨-, -, h⟩ := bind_eq_ok.mp h
  dsimp only at h
  split at h
  · cases h
  · next hactor => exact not_not.mp hactor

/-! ## Approvals -/

structure OfferApproval where
  approvalId : String
  caseId : String
  offerHash : String
  approverId : String
  approvedAt : Datetime
  expiresAt : Datetime

/-- `validate_approval` -/
def OfferApproval.validate (a : OfferApproval) : Exchanged Unit := do
  ensure (boundedText a.approvalId 64 && boundedText a.caseId 64 && isHash a.offerHash &&
    boundedText a.approverId 100) "offer approval"
  requireAware a.approvedAt "approved_at"
  requireAware a.expiresAt "expires_at"
  ensure (decide (a.approvedAt.micros < a.expiresAt.micros)) "offer approval must expire after approval"

/-- `model_dump(mode="json")` -/
def OfferApproval.toJson (a : OfferApproval) : Fields :=
  [("approval_id", .str a.approvalId), ("case_id", .str a.caseId), ("offer_hash", .str a.offerHash),
    ("approver_id", .str a.approverId), ("approved_at", datetimeJson a.approvedAt),
    ("expires_at", datetimeJson a.expiresAt)]

/-- `authorize` -/
def OfferApproval.authorize (a : OfferApproval) (offer : OfferVersion) (now : Datetime) :
    Exchanged OfferVersion := do
  requireAware now "now"
  if a.caseId ≠ offer.caseId ∨ a.offerHash ≠ offer.offerHash then
    throw (.contractViolation "approval does not bind the current exact offer")
  if a.expiresAt.micros ≤ now.micros ∨ offer.expiresAt.micros ≤ now.micros then
    throw (.contractViolation "offer or approval has expired")
  if offer.approvalStatus ≠ .pending then
    throw (.contractViolation "offer is not pending approval")
  return { offer with approvalStatus := .approved }

theorem OfferApproval.authorize_eq_ok {approval : OfferApproval} {offer authorized : OfferVersion}
    {now : Datetime} (h : approval.authorize offer now = .ok authorized) :
    approval.offerHash = offer.offerHash := by
  unfold OfferApproval.authorize at h
  obtain ⟨-, -, h⟩ := bind_eq_ok.mp h
  dsimp only at h
  split at h
  · cases h
  · next hbinds =>
    by_contra hne
    exact hbinds (.inr hne)

/-! ## Payment handoffs -/

structure ExchangePaymentHandoffData where
  handoffId : String
  caseId : String
  offerHash : String
  approvalHash : String
  destinationUrl : String
  recipient : String
  amount : Nat
  currency : String
  reference : String
  createdAt : Datetime
  expiresAt : Datetime
  status : ExchangeHandoffStatus := .ready
  openedAt : Option Datetime := none

/-- `hash_payload` -/
def ExchangePaymentHandoffData.hashPayload (p : ExchangePaymentHandoffData) : Value :=
  .obj [("schema_version", .str "exchange-handoff.v1"), ("handoff_id", .str p.handoffId),
    ("case_id", .str p.caseId), ("offer_hash", .str p.offerHash),
    ("approval_hash", .str p.approvalHash), ("destination_url", .str p.destinationUrl),
    ("recipient", .str p.recipient), ("amount", .str (decimalText p.amount)),
    ("currency", .str p.currency), ("reference", .str p.reference),
    ("created_at", .datetime p.createdAt), ("expires_at", .datetime p.expiresAt)]

/-- `validate_handoff`, before the handoff is hashed. `https` says of a URL that it
    is HTTPS with a host, without credentials and without a fragment. -/
def ExchangePaymentHandoffData.validate (https : String → Bool) (p : ExchangePaymentHandoffData) :
    Exchanged Unit := do
  ensure (boundedText p.handoffId 64 && boundedText p.caseId 64 && isHash p.offerHash &&
    isHash p.approvalHash && boundedText p.destinationUrl 2000 && boundedText p.recipient 200 &&
    boundedAmount p.amount && isCurrency p.currency && boundedText p.reference 160)
    "exchange-handoff.v1"
  ensure (https p.destinationUrl)
    "exchange handoff destination must be HTTPS without credentials or fragment"
  requireAware p.createdAt "created_at"
  requireAware p.expiresAt "expires_at"
  ensure (decide (p.createdAt.micros < p.expiresAt.micros))
    "exchange handoff must expire after creation"
  ensure (p.openedAt.all (·.aware)) "opened_at must include a timezone"
  ensure (!(decide (p.status = .opened) && p.openedAt.isNone))
    "opened exchange handoff requires opened_at"
  ensure (!(decide (p.status ≠ .opened) && p.openedAt.isSome))
    "only an opened exchange handoff may have opened_at"

structure ExchangePaymentHandoff extends ExchangePaymentHandoffData where
  handoffHash : String

def ExchangePaymentHandoff.new (rt : Runtime) (https : String → Bool)
    (p : ExchangePaymentHandoffData) : Exchanged ExchangePaymentHandoff := do
  p.validate https
  let hash ← exchangeHash rt p.hashPayload
  return ⟨p, hash⟩

/-- `ExchangePaymentHandoff.open` -/
def ExchangePaymentHandoff.openAt (p : ExchangePaymentHandoff) (now : Datetime) :
    Exchanged ExchangePaymentHandoff := do
  requireAware now "now"
  if p.status = .opened then return p
  if p.status ≠ .ready ∨ p.expiresAt.micros ≤ now.micros then
    throw (.contractViolation "exchange handoff is not openable")
  return { p with status := .opened, openedAt := some now }

section Handoffs

variable {rt : Runtime} {https : String → Bool} {p : ExchangePaymentHandoffData}
  {handoff opened : ExchangePaymentHandoff} {now : Datetime}

theorem ExchangePaymentHandoff.new_eq_ok :
    ExchangePaymentHandoff.new rt https p = .ok handoff ↔
      p.validate https = .ok () ∧ contentHash rt p.hashPayload = .ok handoff.handoffHash ∧
        handoff.toExchangePaymentHandoffData = p := by
  unfold ExchangePaymentHandoff.new
  rw [check_bind_eq_ok, bind_eq_ok]
  constructor
  · rintro ⟨hvalid, hash, hhash, h⟩
    obtain rfl := pure_eq_ok.mp h
    exact ⟨hvalid, exchangeHash_eq_ok.mp hhash, rfl⟩
  · rintro ⟨hvalid, hhash, rfl⟩
    exact ⟨hvalid, handoff.handoffHash, exchangeHash_eq_ok.mpr hhash, rfl⟩

/-- A handoff that is open stays as it is, and one that is ready opens before it expires. -/
theorem ExchangePaymentHandoff.openAt_eq_ok (hnow : now.aware = true) :
    handoff.openAt now = .ok opened ↔
      (handoff.status = .opened ∧ opened = handoff) ∨
        (handoff.status = .ready ∧ now.micros < handoff.expiresAt.micros ∧
          opened = { handoff with status := .opened, openedAt := some now }) := by
  unfold ExchangePaymentHandoff.openAt requireAware
  rw [check_bind_eq_ok, ensure_eq_ok]
  cases hstatus : handoff.status with
  | opened =>
    simp only [hnow, if_pos, pure_eq_ok, true_and, reduceCtorEq, false_and, or_false]
    exact eq_comm
  | ready =>
    by_cases hexpired : handoff.expiresAt.micros ≤ now.micros
    · simp [hnow, hexpired, not_lt.mpr hexpired, map_eq_ok]
    · simp only [hnow, hexpired, not_le.mp hexpired, if_neg, pure_eq_ok, true_and,
        reduceCtorEq, false_and, false_or, or_self, ne_eq, not_true_eq_false, not_false_eq_true]
      exact eq_comm
  | _ => simp [hnow, map_eq_ok]

theorem ExchangePaymentHandoffData.validate_opened (hnow : now.aware = true)
    (h : p.validate https = .ok ()) :
    { p with status := .opened, openedAt := some now }.validate https = .ok () := by
  unfold ExchangePaymentHandoffData.validate at h ⊢
  simp only [check_bind_eq_ok, ensure_eq_ok] at h ⊢
  obtain ⟨hfields, hhttps, hcreated, hexpires, hafter, -, -, -⟩ := h
  exact ⟨hfields, hhttps, hcreated, hexpires, hafter, by simpa using hnow, rfl, rfl⟩

theorem ExchangePaymentHandoffData.expires_of_validate (h : p.validate https = .ok ()) :
    p.createdAt.micros < p.expiresAt.micros := by
  unfold ExchangePaymentHandoffData.validate at h
  simp only [check_bind_eq_ok, ensure_eq_ok] at h
  exact of_decide_eq_true h.2.2.2.2.1

end Handoffs

/-! ## Routes -/

structure ExchangeRoute where
  caseId : String
  candidateId : String
  productId : String
  merchantName : String
  merchantUrl : String
  buyerOrganizationId : String
  sellerOrganizationId : String
  developmentGuestOrganizationId : Option String
  expiresAt : Datetime
  deriving DecidableEq

/-- The field constraints of a route. -/
def ExchangeRoute.validate (route : ExchangeRoute) : Exchanged Unit :=
  ensure (boundedText route.caseId 64 && boundedText route.candidateId 128 &&
    boundedText route.productId 128 && boundedText route.merchantName 200 &&
    startsWith route.merchantUrl "https://" && decide (route.merchantUrl.length ≤ 2000) &&
    boundedText route.buyerOrganizationId 64 && boundedText route.sellerOrganizationId 64 &&
    route.developmentGuestOrganizationId.all (boundedText · 64)) "exchange route"

/-- The organizations a route names. -/
def ExchangeRoute.permittedOrganizations (route : ExchangeRoute) : List String :=
  [route.buyerOrganizationId, route.sellerOrganizationId] ++
    route.developmentGuestOrganizationId.toList

/-- `ExchangeRouteCodec.decode`, of a token that stands for the route it was encrypted
    from. Encryption is taken as perfect: what decrypts is what was issued. -/
def ExchangeRoute.decode (issued : List ExchangeRoute) (token : ExchangeRoute)
    (organizationId : String) (now : Datetime) : Exchanged ExchangeRoute := do
  if token ∉ issued then throw (.validation "exchange route is invalid")
  requireAware now "now"
  if token.expiresAt.micros ≤ now.micros then throw (.validation "exchange route has expired")
  if organizationId ∉ token.permittedOrganizations then
    throw (.validation "exchange route belongs to another organization")
  return token

theorem ExchangeRoute.decode_eq_ok {issued : List ExchangeRoute} {token route : ExchangeRoute}
    {organizationId : String} {now : Datetime}
    (h : ExchangeRoute.decode issued token organizationId now = .ok route) :
    route ∈ issued ∧ token = route := by
  unfold ExchangeRoute.decode at h
  dsimp only at h
  split at h
  · cases h
  · next hissued =>
    obtain ⟨-, -, h⟩ := bind_eq_ok.mp h
    split at h
    · cases h
    · split at h
      · cases h
      · cases h
        exact ⟨not_not.mp hissued, rfl⟩

end Domain
