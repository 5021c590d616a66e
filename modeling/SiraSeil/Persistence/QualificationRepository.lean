-- SUMMARY: The tables of qualification and the repository over them: leases with generations, snapshots, checkpoints, fenced finalization, bundle activation and invalidation.
import SiraSeil.Domain.Hashing
import SiraSeil.Library.Raising
import SiraSeil.Library.Table

/-!
# The qualification repository

`persistence/qualification_repository.py` over `persistence/qualification_models.py`.
An operation takes the tables, the database time and what `uuid4` draws, and returns
its result with the tables it leaves; one that raises leaves nothing. A row that would
repeat a declared key, or an update that would take a key away from a row that refers
to it, raises an integrity error. Times count microseconds. Row ids that nothing refers
to, payloads that no operation reads and the widths of columns are left out.
-/

namespace Persistence

open Domain Sorting

/-! ## Errors -/

/-- What an operation of qualification raises. -/
inductive QualificationError
  | persistenceConflict (message : String)
  | recordNotFound (message : String)
  | valueError (message : String)
  | runtimeError (message : String)
  | integrity (constraint : String)
  | domain (error : PyError)
  | api (code message : String) (statusCode : Nat)
  deriving DecidableEq

abbrev Qualified (α : Type) := Except QualificationError α

/-- A declared constraint refuses what violates it. -/
def constrain (violated : Bool) (constraint : String) : Qualified Unit :=
  if violated then .error (.integrity constraint) else .ok ()

theorem constrain_eq_ok {violated : Bool} {constraint : String} :
    constrain violated constraint = .ok () ↔ violated = false := by
  unfold constrain
  split <;> simp_all

/-- `content_hash` -/
def contentDigest (rt : Runtime) (payload : Value) : Qualified String :=
  (contentHash rt payload).mapError .domain

theorem contentDigest_eq_ok {rt : Runtime} {v : Value} {hash : String} :
    contentDigest rt v = .ok hash ↔ v.Canonical ∧ hash = "sha256:" ++ rt.hexdigest v := by
  unfold contentDigest
  rw [Raising.mapError_eq_ok, contentHash_eq_ok]

theorem exists_contentDigest_eq_ok (rt : Runtime) {v : Value} :
    (∃ hash, contentDigest rt v = .ok hash) ↔ v.Canonical := by
  simp only [contentDigest_eq_ok, exists_and_left, exists_eq, and_true]

/-! ## Rows -/

inductive BundleState
  | candidate | ready | active | superseded | retracted
  deriving DecidableEq, Repr

inductive MemberKind
  | productTwin | catalogProjection | evidence
  deriving DecidableEq, Repr

inductive DependencyKind
  | buyerContext | requirementBrief | procurementPolicy | productBundle
  | member (kind : MemberKind)
  deriving DecidableEq, Repr

def MemberKind.value : MemberKind → String
  | productTwin => "PRODUCT_TWIN"
  | catalogProjection => "CATALOG_PROJECTION"
  | evidence => "EVIDENCE"

def DependencyKind.value : DependencyKind → String
  | buyerContext => "BUYER_CONTEXT"
  | requirementBrief => "REQUIREMENT_BRIEF"
  | procurementPolicy => "PROCUREMENT_POLICY"
  | productBundle => "PRODUCT_BUNDLE"
  | member kind => kind.value

inductive MissionState
  | draft | ready | running | awaitingApproval | completed | failed | cancelled
  deriving DecidableEq, Repr

inductive AttemptState
  | queued | running | snapshotComplete | stale | completed | failed | cancelled
  deriving DecidableEq, Repr

inductive ApprovalState
  | pending | approved | rejected | invalidated
  deriving DecidableEq, Repr

inductive EngagementState
  | «open» | responded | consentPending | introduced | expired | invalidated
  deriving DecidableEq, Repr

structure ProductBundle where
  id : String
  organizationId : String
  productId : String
  digest : String
  state : BundleState

structure ProductBundleMember where
  organizationId : String
  bundleId : String
  ordinal : Nat
  memberKind : MemberKind
  memberId : String
  memberHash : String

structure ActiveProductBundle where
  productId : String
  bundleId : String
  bundleDigest : String
  generation : Nat
  organizationId : String
  deriving DecidableEq

structure QualificationMission where
  id : String
  organizationId : String
  buyerContextVersionId : String
  buyerContextHash : String
  requirementBriefVersionId : String
  requirementBriefHash : String
  procurementPolicyVersion : String
  procurementPolicyHash : String
  traceId : String
  state : MissionState

structure QualificationMissionBundle where
  organizationId : String
  missionId : String
  attemptId : String
  productId : String
  sellerOrganizationId : String
  bundleId : String
  bundleDigest : String

structure QualificationAttempt where
  id : String
  organizationId : String
  missionId : String
  rootAttemptId : String
  predecessorAttemptId : Option String
  replacementDepth : Nat
  state : AttemptState
  generation : Nat
  createdAt : Int
  leaseOwner : Option String := none
  leaseExpiresAt : Option Int := none
  inputDigest : Option String := none
  staleReason : Option String := none

/-- What an attempt depends on, and its stored row. -/
structure DependencySnapshot where
  kind : DependencyKind
  organizationId : String
  identifier : String
  version : String
  digest : String
  deriving DecidableEq

structure AttemptDependency where
  organizationId : String
  attemptId : String
  snapshot : DependencySnapshot

structure AttemptCheckpoint where
  organizationId : String
  attemptId : String
  generation : Nat
  sequence : Nat
  kind : String
  payload : List (String × Value)

structure QualificationDecision where
  id : String
  organizationId : String
  missionId : String
  attemptId : String
  inputDigest : String
  decisionDigest : String
  recommendedProductId : String
  payload : List (String × Value)
  approvalState : ApprovalState
  current : Bool

structure DecisionDependency where
  organizationId : String
  decisionId : String
  snapshot : DependencySnapshot
  cited : Bool

structure MarketplaceEngagement where
  id : String
  missionId : String
  decisionId : String
  buyerOrganizationId : String
  sellerOrganizationId : String
  productId : String
  inputDigest : String
  state : EngagementState
  expiresAt : Int
  deriving DecidableEq

/-- The two projections of an engagement are keyed by it. -/
structure EngagementProjection where
  engagementId : String
  organizationId : String

structure SellerResponse where
  id : String
  organizationId : String
  engagementId : String
  inputDigest : String
  response : String
  citedEvidenceIds : List String
  message : Option String
  actorId : String

inductive ConsentParty
  | buyer | seller
  deriving DecidableEq, Repr

inductive ConsentState
  | granted | revoked | expired
  deriving DecidableEq, Repr

structure MarketplaceConsent where
  id : String
  engagementId : String
  party : ConsentParty
  actorId : String
  inputDigest : String
  approvedFieldsHash : String
  state : ConsentState
  expiresAt : Int

structure QualifiedIntroduction where
  id : String
  engagementId : String
  decisionId : String
  sellerOrganizationId : String
  inputDigest : String
  sharedFieldsHash : String
  receipt : List (String × Value)

structure QualificationEffect where
  organizationId : String
  effectKind : String
  semanticKey : String
  payload : List (String × Value)
  resultRef : String

structure OutboxEvent where
  organizationId : String
  aggregateType : String
  aggregateId : String
  eventType : String
  eventKey : String
  payload : List (String × Value)

structure ConsumerReceipt where
  organizationId : String
  consumerName : String
  messageId : String
  payloadHash : String
  resultRef : String

structure QualificationDb where
  missions : List QualificationMission := []
  attempts : List QualificationAttempt := []
  missionBundles : List QualificationMissionBundle := []
  bundles : List ProductBundle := []
  members : List ProductBundleMember := []
  activeBundles : List ActiveProductBundle := []
  dependencies : List AttemptDependency := []
  checkpoints : List AttemptCheckpoint := []
  decisions : List QualificationDecision := []
  decisionDependencies : List DecisionDependency := []
  engagements : List MarketplaceEngagement := []
  buyerProjections : List EngagementProjection := []
  sellerProjections : List EngagementProjection := []
  sellerResponses : List SellerResponse := []
  consents : List MarketplaceConsent := []
  introductions : List QualifiedIntroduction := []
  effects : List QualificationEffect := []
  outbox : List OutboxEvent := []
  receipts : List ConsumerReceipt := []

namespace QualificationDb

variable (db : QualificationDb) (organizationId : String)

def dependenciesOf (attemptId : String) : List AttemptDependency :=
  db.dependencies.filter (fun d => d.organizationId = organizationId ∧ d.attemptId = attemptId)

def bundlesOf (attemptId : String) : List QualificationMissionBundle :=
  db.missionBundles.filter (fun b => b.organizationId = organizationId ∧ b.attemptId = attemptId)

/-- The members of a bundle in the order of their ordinals. -/
def membersOf (bundleId : String) : List ProductBundleMember :=
  sortedBy (·.ordinal) (db.members.filter (fun m =>
    m.organizationId = organizationId ∧ m.bundleId = bundleId))

/-- The active pointer of a product. -/
def activeBundle (productId : String) : Option ActiveProductBundle :=
  db.activeBundles.find? (fun a => a.organizationId = organizationId ∧ a.productId = productId)

def attempt? (attemptId : String) : Option QualificationAttempt :=
  db.attempts.find? (fun a => a.organizationId = organizationId ∧ a.id = attemptId)

def mission? (missionId : String) : Option QualificationMission :=
  db.missions.find? (fun m => m.organizationId = organizationId ∧ m.id = missionId)

/-- Change the row of an attempt. -/
def updateAttempt (attemptId : String) (f : QualificationAttempt → QualificationAttempt) :
    QualificationDb :=
  { db with attempts := Table.update (·.id) attemptId f db.attempts }

end QualificationDb

/-! ## The repository -/

/-- What a transaction is given: the database time, and the `uuid4` for each name under which
    it may create a row. -/
structure Given where
  now : Int
  uuid : String → String

structure AttemptLease where
  attemptId : String
  generation : Nat
  leaseOwner : String
  leaseExpiresAt : Int

inductive FinalizationResult
  | completed (attemptId decisionId : String)
  | stale (attemptId replacementAttemptId : String)
  deriving DecidableEq

structure BundleInvalidationResult where
  productId : String
  invalidatedDecisionIds : List String
  replacementAttemptIds : List String

/-- Add an event, whose key is unique in its tenant. -/
def addOutbox (event : OutboxEvent) (db : QualificationDb) : Qualified QualificationDb := do
  constrain (db.outbox.any (fun e =>
    e.organizationId = event.organizationId ∧ e.eventKey = event.eventKey)) "uq_outbox_event_key"
  return { db with outbox := db.outbox ++ [event] }

section Repository

variable (rt : Runtime) (organizationId : String)

/-! ### Bundles -/

/-- The digest of the members of a bundle. -/
def membershipDigest (members : List ProductBundleMember) : Qualified String :=
  contentDigest rt (.seq (members.map (fun m => .obj [("ordinal", .nat m.ordinal),
    ("kind", .str m.memberKind.value), ("id", .str m.memberId), ("hash", .str m.memberHash)])))

/-- The pointer of a product is set to a bundle. -/
def pointTo (bundle : ProductBundle) (db : QualificationDb) : Qualified QualificationDb :=
  match db.activeBundle organizationId bundle.productId with
  | none => do
    constrain (db.activeBundles.any (fun a => a.productId = bundle.productId))
      "qualification_active_product_bundles_pkey"
    return { db with activeBundles := db.activeBundles ++
      [⟨bundle.productId, bundle.id, bundle.digest, 1, organizationId⟩] }
  | some active =>
    if active.bundleId ≠ bundle.id then
      .ok { db with
        bundles := Table.update (·.id) active.bundleId
          (fun b => if b.state = .active then { b with state := .superseded } else b) db.bundles
        activeBundles := Table.update (·.productId) active.productId
          (fun a => { a with
            bundleId := bundle.id
            bundleDigest := bundle.digest
            generation := a.generation + 1 }) db.activeBundles }
    else .ok db

def activateBundle (bundleId actorId expectedDigest : String) (db : QualificationDb) :
    Qualified (ProductBundle × QualificationDb) :=
  match db.bundles.find? (fun b => b.organizationId = organizationId ∧ b.id = bundleId) with
  | none => .error (.recordNotFound "product bundle was not found")
  | some bundle => do
    if bundle.digest ≠ expectedDigest then
      throw (.persistenceConflict "product bundle digest changed")
    if bundle.state ≠ .ready ∧ bundle.state ≠ .active then
      throw (.persistenceConflict "product bundle is not ready")
    let members := db.membersOf organizationId bundle.id
    let computedDigest ← membershipDigest rt members
    if members = [] ∨ computedDigest ≠ bundle.digest then
      throw (.persistenceConflict "product bundle membership is incomplete or corrupt")
    let pointed ← pointTo organizationId bundle db
    let activated := { pointed with
      bundles := Table.update (·.id) bundle.id (fun b => { b with state := .active })
        pointed.bundles }
    let db ← addOutbox {
      organizationId := organizationId
      aggregateType := "PRODUCT_BUNDLE"
      aggregateId := bundle.id
      eventType := "PRODUCT_BUNDLE_ACTIVATED"
      eventKey := "bundle-activated:" ++ bundle.id ++ ":" ++ bundle.digest
      payload := [("bundle_id", .str bundle.id), ("product_id", .str bundle.productId),
        ("bundle_digest", .str bundle.digest), ("actor_id", .str actorId)] } activated
    return ({ bundle with state := .active }, db)

/-! ### Leases -/

/-- The states in which an attempt can be claimed. -/
def AttemptState.claimable (state : AttemptState) : Bool :=
  state ∈ [.queued, .running, .snapshotComplete]

/-- The lease of an attempt is free for an owner at a time. -/
def QualificationAttempt.free (attempt : QualificationAttempt) (leaseOwner : String) (now : Int) :
    Bool :=
  attempt.leaseOwner.isNone || attempt.leaseExpiresAt.any (· ≤ now) ||
    attempt.leaseOwner = some leaseOwner

/-- `claim_attempt`. Checkpoints refer to their attempt with its generation, and the update
    must not take that key away. -/
def claimAttempt (attemptId leaseOwner : String) (leaseSeconds : Int) (given : Given)
    (db : QualificationDb) : Qualified (AttemptLease × QualificationDb) :=
  if leaseSeconds < 1 ∨ 600 < leaseSeconds then
    .error (.valueError "lease_seconds must be between 1 and 600")
  else
    let expiresAt := given.now + 1000000 * leaseSeconds
    match db.attempt? organizationId attemptId with
    | some attempt =>
      if attempt.state.claimable ∧ attempt.free leaseOwner given.now then do
        constrain (db.checkpoints.any (fun k => k.organizationId = organizationId ∧
          k.attemptId = attempt.id ∧ k.generation = attempt.generation))
          "qualification_attempt_checkpoints_generation_fkey"
        return (⟨attemptId, attempt.generation + 1, leaseOwner, expiresAt⟩,
          db.updateAttempt attempt.id (fun a => { a with
            state := .running
            leaseOwner := some leaseOwner
            leaseExpiresAt := some expiresAt
            generation := a.generation + 1 }))
      else
        .error (.persistenceConflict "attempt lease is held by another worker or is terminal")
    | none =>
      .error (.persistenceConflict "attempt lease is held by another worker or is terminal")

/-- An attempt is fenced by a lease: the lease is its latest, has not expired and allows its
    state. -/
def QualificationAttempt.fencedBy (attempt : QualificationAttempt) (lease : AttemptLease)
    (allowedStates : List AttemptState) (now : Int) : Bool :=
  attempt.generation = lease.generation && attempt.leaseOwner = some lease.leaseOwner &&
    attempt.leaseExpiresAt.any (now < ·) && allowedStates.contains attempt.state

/-- `_fenced_attempt` -/
def fencedAttempt (lease : AttemptLease) (allowedStates : List AttemptState) (now : Int)
    (db : QualificationDb) : Qualified QualificationAttempt :=
  match db.attempt? organizationId lease.attemptId with
  | some attempt =>
    if attempt.fencedBy lease allowedStates now then .ok attempt
    else .error (.persistenceConflict "attempt lease or generation fence was lost")
  | none => .error (.persistenceConflict "attempt lease or generation fence was lost")

/-! ### Snapshots and checkpoints -/

def checkpointAttempt (lease : AttemptLease) (sequence : Nat) (kind : String)
    (payload : List (String × Value)) (given : Given) (db : QualificationDb) :
    Qualified (AttemptCheckpoint × QualificationDb) := do
  let attempt ← fencedAttempt organizationId lease [.running, .snapshotComplete] given.now db
  constrain (sequence = 0) "ck_qualification_checkpoint_sequence"
  constrain (db.checkpoints.any (fun k => k.organizationId = organizationId ∧
    k.attemptId = attempt.id ∧ k.sequence = sequence)) "uq_qualification_checkpoint_sequence"
  let checkpoint : AttemptCheckpoint :=
    ⟨organizationId, attempt.id, attempt.generation, sequence, kind, payload⟩
  return (checkpoint, { db with checkpoints := db.checkpoints ++ [checkpoint] })

/-- What the bundles of an attempt contribute to its snapshot, bundles before members. -/
def bundleDependencies (bundles : List QualificationMissionBundle) (db : QualificationDb) :
    List DependencySnapshot :=
  bundles.map (fun b =>
    ⟨.productBundle, b.sellerOrganizationId, b.productId, b.bundleId, b.bundleDigest⟩) ++
  bundles.flatMap (fun b => (db.membersOf b.sellerOrganizationId b.bundleId).map (fun m =>
    ⟨.member m.memberKind, b.sellerOrganizationId, m.memberId, b.bundleId, m.memberHash⟩))

/-- What a mission contributes to the snapshots of its attempts. -/
def QualificationMission.dependencies (mission : QualificationMission) (organizationId : String) :
    List DependencySnapshot :=
  [⟨.buyerContext, organizationId, mission.buyerContextVersionId, mission.buyerContextVersionId,
      mission.buyerContextHash⟩,
    ⟨.requirementBrief, organizationId, mission.requirementBriefVersionId,
      mission.requirementBriefVersionId, mission.requirementBriefHash⟩,
    ⟨.procurementPolicy, organizationId, mission.procurementPolicyVersion,
      mission.procurementPolicyVersion, mission.procurementPolicyHash⟩]

/-- The digest of a snapshot. -/
def snapshotDigest (dependencies : List DependencySnapshot) : Qualified String :=
  contentDigest rt (.seq (dependencies.map (fun d => .obj [("kind", .str d.kind.value),
    ("organization_id", .str d.organizationId), ("id", .str d.identifier),
    ("version", .str d.version), ("digest", .str d.digest)])))

/-- The dependencies of an attempt as its mission and its bundles give them. -/
def collectDependencies (attempt : QualificationAttempt) (db : QualificationDb) :
    Qualified (List DependencySnapshot) :=
  match db.mission? organizationId attempt.missionId with
  | none => .error (.recordNotFound "qualification mission was not found")
  | some mission =>
    let bundles := sortedBy (·.productId) (db.bundlesOf organizationId attempt.id)
    if bundles = [] then
      .error (.persistenceConflict "qualification mission has no product bundles")
    else if bundles.any (fun b => (db.membersOf b.sellerOrganizationId b.bundleId).isEmpty) then
      .error (.persistenceConflict "qualification product bundle has no members")
    else .ok (mission.dependencies organizationId ++ bundleDependencies bundles db)

/-- The dependencies of an attempt are stored, each kind and id once. -/
def storeDependencies (attemptId : String) (dependencies : List DependencySnapshot)
    (db : QualificationDb) : Qualified QualificationDb := do
  constrain (!decide (dependencies.map (fun d => (d.kind, d.identifier))).Nodup)
    "uq_qualification_attempt_dependency"
  return { db with dependencies := db.dependencies ++
    dependencies.map (fun d => ⟨organizationId, attemptId, d⟩) }

def snapshotAttempt (lease : AttemptLease) (given : Given) (db : QualificationDb) :
    Qualified (List DependencySnapshot × QualificationDb) := do
  let attempt ← fencedAttempt organizationId lease [.running, .snapshotComplete] given.now db
  let dependencies ← collectDependencies organizationId attempt db
  let digest ← snapshotDigest rt dependencies
  if db.dependenciesOf organizationId attempt.id ≠ [] then
    if attempt.inputDigest ≠ some digest then
      throw (.persistenceConflict "attempt snapshot is immutable")
    return (dependencies, db)
  let stored ← storeDependencies organizationId attempt.id dependencies db
  constrain (db.checkpoints.any (fun k => k.organizationId = organizationId ∧
    k.attemptId = attempt.id ∧ k.sequence = 1)) "uq_qualification_checkpoint_sequence"
  let checkpoint : AttemptCheckpoint := ⟨organizationId, attempt.id, attempt.generation, 1,
    "SNAPSHOT_COMPLETE", [("input_digest", .str digest),
      ("dependency_count", .nat dependencies.length)]⟩
  return (dependencies, QualificationDb.updateAttempt
    { stored with checkpoints := db.checkpoints ++ [checkpoint] } attempt.id
    (fun a => { a with inputDigest := some digest, state := .snapshotComplete }))

/-! ### Replacement and finalization -/

/-- `_changed_product_bundles`: the products whose active pointer is not the one of the
    snapshot. -/
def changedProductBundles (dependencies : List AttemptDependency) (db : QualificationDb) :
    List String :=
  sortedBy id ((dependencies.filter (fun d => d.snapshot.kind = .productBundle ∧
    ¬ (db.activeBundles.any (fun a => a.organizationId = d.snapshot.organizationId ∧
      a.productId = d.snapshot.identifier ∧ a.bundleId = d.snapshot.version ∧
      a.bundleDigest = d.snapshot.digest)))).map (·.snapshot.identifier))

/-- `_replacement_for` -/
def replacementFor (attempt : QualificationAttempt) (given : Given) (db : QualificationDb) :
    Qualified (QualificationAttempt × QualificationDb) :=
  match db.attempts.find? (fun a => a.organizationId = organizationId ∧
      a.predecessorAttemptId = some attempt.id) with
  | some existing => .ok (existing, db)
  | none =>
    if 3 ≤ attempt.replacementDepth then
      .error (.persistenceConflict "qualification replacement chain exhausted")
    else do
      let replacement : QualificationAttempt := {
        id := "qattempt_" ++ given.uuid attempt.id
        organizationId := organizationId
        missionId := attempt.missionId
        rootAttemptId := attempt.rootAttemptId
        predecessorAttemptId := some attempt.id
        replacementDepth := attempt.replacementDepth + 1
        state := .queued
        generation := 0
        createdAt := given.now }
      constrain (db.attempts.any (fun a => a.id = replacement.id)) "qualification_attempts_pkey"
      return (replacement, { db with attempts := db.attempts ++ [replacement] })

/-- The decision is added with its dependencies. A mission has one current decision. -/
def addDecision (decision : QualificationDecision) (dependencies : List AttemptDependency)
    (citedDependencyIds : List String) (db : QualificationDb) : Qualified QualificationDb := do
  constrain (db.decisions.any (fun d => d.id = decision.id)) "qualification_decisions_pkey"
  constrain (db.decisions.any (fun d => d.organizationId = organizationId ∧
    d.attemptId = decision.attemptId)) "uq_qualification_decision_attempt"
  constrain (db.decisions.any (fun d => d.organizationId = organizationId ∧
    d.missionId = decision.missionId ∧ d.inputDigest = decision.inputDigest))
    "uq_qualification_decision_input"
  constrain (db.decisions.any (fun d => d.organizationId = organizationId ∧
    d.missionId = decision.missionId ∧ d.current)) "uq_qualification_current_decision"
  return { db with
    decisions := db.decisions ++ [decision]
    decisionDependencies := db.decisionDependencies ++ dependencies.map (fun d =>
      ⟨organizationId, decision.id, d.snapshot, citedDependencyIds.contains d.snapshot.identifier⟩) }

/-- The attempt is stale, and another one takes its place. -/
def finalizeStale (attempt : QualificationAttempt) (changed : List String) (given : Given)
    (db : QualificationDb) : Qualified (FinalizationResult × QualificationDb) := do
  let marked := db.updateAttempt attempt.id (fun a => { a with
    state := .stale, staleReason := some (",".intercalate changed) })
  let (replacement, replaced) ← replacementFor organizationId attempt given marked
  let db ← addOutbox {
    organizationId := organizationId
    aggregateType := "QUALIFICATION_ATTEMPT"
    aggregateId := attempt.id
    eventType := "QUALIFICATION_ATTEMPT_STALE"
    eventKey := "attempt-stale:" ++ attempt.id ++ ":" ++ toString attempt.generation
    payload := [("attempt_id", .str attempt.id),
      ("replacement_attempt_id", .str replacement.id), ("changed_dependencies", .strs changed)] }
    replaced
  return (.stale attempt.id replacement.id, db)

/-- The attempt is completed with its decision. -/
def finalizeCompleted (attempt : QualificationAttempt) (dependencies : List AttemptDependency)
    (inputDigest recommendedProductId : String) (payload : List (String × Value))
    (citedDependencyIds : List String) (given : Given) (db : QualificationDb) :
    Qualified (FinalizationResult × QualificationDb) := do
  let decisionDigest ← contentDigest rt (.obj [("attempt_id", .str attempt.id),
    ("input_digest", .str inputDigest), ("recommended_product_id", .str recommendedProductId),
    ("payload", .obj payload)])
  let decision : QualificationDecision := {
    id := "qdec_" ++ given.uuid attempt.id
    organizationId := organizationId
    missionId := attempt.missionId
    attemptId := attempt.id
    inputDigest := inputDigest
    decisionDigest := decisionDigest
    recommendedProductId := recommendedProductId
    payload := payload
    approvalState := .pending
    current := true }
  let decided ← addDecision organizationId decision dependencies citedDependencyIds db
  let db ← addOutbox {
    organizationId := organizationId
    aggregateType := "QUALIFICATION_DECISION"
    aggregateId := decision.id
    eventType := "QUALIFICATION_DECISION_CREATED"
    eventKey := "decision-created:" ++ decision.id
    payload := [("decision_id", .str decision.id), ("mission_id", .str decision.missionId),
      ("attempt_id", .str attempt.id), ("input_digest", .str inputDigest)] }
    (decided.updateAttempt attempt.id (fun a => { a with state := .completed }))
  return (.completed attempt.id decision.id, db)

def finalizeAttempt (lease : AttemptLease) (recommendedProductId : String)
    (payload : List (String × Value)) (citedDependencyIds : List String) (given : Given)
    (db : QualificationDb) : Qualified (FinalizationResult × QualificationDb) := do
  let attempt ← fencedAttempt organizationId lease [.snapshotComplete] given.now db
  let dependencies := db.dependenciesOf organizationId attempt.id
  let changed := changedProductBundles dependencies db
  if changed ≠ [] then
    finalizeStale organizationId attempt changed given db
  else if !citedDependencyIds.all (fun cited =>
      dependencies.any (fun d => d.snapshot.identifier = cited)) then
    .error (.persistenceConflict "decision cites evidence outside the committed snapshot")
  else if !dependencies.any (fun d => d.snapshot.kind = .productBundle ∧
      d.snapshot.identifier = recommendedProductId) then
    .error (.persistenceConflict "recommended product is outside the committed snapshot")
  else
    match attempt.inputDigest with
    | none => .error (.persistenceConflict "attempt has no committed input digest")
    | some inputDigest =>
      finalizeCompleted rt organizationId attempt dependencies inputDigest recommendedProductId
        payload citedDependencyIds given db

/-! ### Invalidation -/

/-- The dependency is the bundle that the pointer of its product has. -/
def DecisionDependency.isActive (dependency : DecisionDependency)
    (active : Option ActiveProductBundle) : Bool :=
  active.any (fun a => a.bundleId = dependency.snapshot.version ∧
    a.bundleDigest = dependency.snapshot.digest)

/-- The current decisions of the tenant with their dependency on a product, in the order of
    their ids. -/
def decisionsOn (productId : String) (db : QualificationDb) :
    List (QualificationDecision × DecisionDependency) :=
  sortedBy (·.1.id) ((db.decisions.filter (fun d => d.organizationId = organizationId ∧
    d.current)).flatMap (fun d =>
      (db.decisionDependencies.filter (fun dependency =>
        dependency.organizationId = d.organizationId ∧ dependency.decisionId = d.id ∧
        dependency.snapshot.kind = .productBundle ∧
        dependency.snapshot.identifier = productId)).map (fun dependency => (d, dependency))))

/-- The decision is no longer current, and its open engagements end. -/
def retireDecision (decision : QualificationDecision) (db : QualificationDb) : QualificationDb :=
  { db with
    decisions := Table.update (·.id) decision.id
      (fun d => { d with current := false, approvalState := .invalidated }) db.decisions
    engagements := db.engagements.map (fun e =>
      if e.buyerOrganizationId = organizationId ∧ e.decisionId = decision.id ∧
          e.state ∉ [.introduced, .expired] then { e with state := .invalidated } else e) }

/-- The mission of a retired decision is opened again with a replacement of its attempt, unless
    the mission has ended. -/
def reopenMission (decision : QualificationDecision) (productId : String)
    (active : ActiveProductBundle) (given : Given) (db : QualificationDb) :
    Qualified (Option String × QualificationDb) :=
  match db.attempt? organizationId decision.attemptId,
      db.mission? organizationId decision.missionId with
  | some attempt, some mission =>
    if mission.state = .failed ∨ mission.state = .cancelled then .ok (none, db)
    else do
      let (replacement, replaced) ← replacementFor organizationId attempt given db
      let db ← addOutbox {
        organizationId := organizationId
        aggregateType := "QUALIFICATION_MISSION"
        aggregateId := mission.id
        eventType := "QUALIFICATION_MISSION_READY"
        eventKey := "qualification-mission-ready:" ++ mission.id ++ ":bundle:" ++ productId ++
          ":" ++ toString active.generation
        payload := [("mission_id", .str mission.id), ("trace_id", .str mission.traceId),
          ("organization_id", .str organizationId),
          ("reason", .str "ACTIVE_PRODUCT_BUNDLE_CHANGED"), ("product_id", .str productId),
          ("replacement_attempt_id", .str replacement.id)] }
        { replaced with missions :=
            Table.update (·.id) mission.id (fun m => { m with state := .ready }) replaced.missions }
      return (some replacement.id, db)
  | _, _ => .ok (none, db)

/-- One round of the loop of `invalidate_decisions_for_active_bundle`. -/
def invalidateDecision (productId : String) (given : Given)
    (row : QualificationDecision × DecisionDependency)
    (done : BundleInvalidationResult × QualificationDb) :
    Qualified (BundleInvalidationResult × QualificationDb) :=
  let (result, db) := done
  let active := db.activeBundle row.2.snapshot.organizationId productId
  if row.2.isActive active then .ok (result, db)
  else
    let retired := retireDecision organizationId row.1 db
    let result := { result with
      invalidatedDecisionIds := result.invalidatedDecisionIds ++ [row.1.id] }
    match active with
    | none => .ok (result, retired)
    | some active => do
      let (replacement, db) ← reopenMission organizationId row.1 productId active given retired
      return ({ result with
        replacementAttemptIds := result.replacementAttemptIds ++ replacement.toList }, db)

def invalidateDecisionsForActiveBundle (productId : String) (given : Given)
    (db : QualificationDb) : Qualified (BundleInvalidationResult × QualificationDb) :=
  (decisionsOn organizationId productId db).foldlM
    (fun done row => invalidateDecision organizationId productId given row done)
    (⟨productId, [], []⟩, db)

/-! ### Introductions -/

/-- The unexpired consent that a party granted to an engagement at a digest. -/
def grantedConsent (engagementId inputDigest : String) (now : Int) (party : ConsentParty)
    (db : QualificationDb) : Option MarketplaceConsent :=
  (db.consents.filter (fun c => c.engagementId = engagementId ∧ c.inputDigest = inputDigest ∧
    c.state = .granted ∧ now < c.expiresAt ∧ c.party = party)).getLast?

/-- The introduction of an engagement is created with its effect. -/
def createIntroduction (engagement : MarketplaceEngagement) (decisionId inputDigest : String)
    (sharedFields : List (String × Value)) (sharedFieldsHash : String)
    (buyer seller : MarketplaceConsent) (given : Given) (db : QualificationDb) :
    Qualified (QualifiedIntroduction × QualificationDb) := do
  let receipt : List (String × Value) := [("engagement_id", .str engagement.id),
    ("decision_id", .str decisionId), ("input_digest", .str inputDigest),
    ("buyer_consent_id", .str buyer.id), ("seller_consent_id", .str seller.id),
    ("shared_fields_hash", .str sharedFieldsHash), ("shared_fields", .obj sharedFields)]
  let introduction : QualifiedIntroduction := ⟨"intro_" ++ given.uuid "intro", engagement.id,
    decisionId, engagement.sellerOrganizationId, inputDigest, sharedFieldsHash, receipt⟩
  let effect : QualificationEffect := ⟨organizationId, "QUALIFIED_INTRODUCTION",
    "introduction:" ++ engagement.id ++ ":" ++ inputDigest, receipt, introduction.id⟩
  constrain (db.introductions.any (fun i => i.id = introduction.id))
    "qualified_introductions_pkey"
  constrain (db.introductions.any (fun i => i.decisionId = decisionId ∧
    i.sellerOrganizationId = introduction.sellerOrganizationId)) "uq_qualified_introduction_effect"
  constrain (db.effects.any (fun e => e.organizationId = organizationId ∧
    e.effectKind = effect.effectKind ∧ e.semanticKey = effect.semanticKey))
    "uq_qualification_effect"
  let db ← addOutbox {
    organizationId := organizationId
    aggregateType := "QUALIFIED_INTRODUCTION"
    aggregateId := introduction.id
    eventType := "QUALIFIED_INTRODUCTION_CREATED"
    eventKey := "introduction-created:" ++ engagement.id ++ ":" ++ inputDigest
    payload := receipt } { db with
      introductions := db.introductions ++ [introduction]
      effects := db.effects ++ [effect]
      engagements := Table.update (·.id) engagement.id
        (fun e => { e with state := .introduced }) db.engagements }
  return (introduction, db)

def introduce (engagementId decisionId inputDigest : String)
    (sharedFields : List (String × Value)) (given : Given) (db : QualificationDb) :
    Qualified (QualifiedIntroduction × QualificationDb) := do
  let sharedFieldsHash ← contentDigest rt (.obj sharedFields)
  match db.engagements.find? (fun e => e.id = engagementId ∧ e.decisionId = decisionId ∧
      e.inputDigest = inputDigest ∧ e.buyerOrganizationId = organizationId) with
  | none => throw (.recordNotFound "marketplace engagement was not found")
  | some engagement =>
    match db.introductions.find? (fun i => i.engagementId = engagement.id) with
    | some existing =>
      if existing.inputDigest ≠ inputDigest ∨ existing.sharedFieldsHash ≠ sharedFieldsHash then
        throw (.persistenceConflict
          "existing introduction binds another digest or shared field set")
      else return (existing, db)
    | none =>
      if !db.decisions.any (fun d => d.organizationId = organizationId ∧ d.id = decisionId ∧
          d.inputDigest = inputDigest ∧ d.current ∧ d.approvalState = .approved) then
        throw (.persistenceConflict "decision is not current and approved")
      if engagement.expiresAt ≤ given.now then
        throw (.persistenceConflict "engagement has expired")
      match grantedConsent engagement.id inputDigest given.now .buyer db,
          grantedConsent engagement.id inputDigest given.now .seller db with
      | some buyer, some seller =>
        if buyer.actorId = seller.actorId then
          throw (.persistenceConflict "buyer and seller consent require distinct humans")
        if buyer.approvedFieldsHash ≠ sharedFieldsHash ∨
            seller.approvedFieldsHash ≠ sharedFieldsHash then
          throw (.persistenceConflict "buyer and seller must approve the exact shared fields")
        createIntroduction organizationId engagement decisionId inputDigest sharedFields
          sharedFieldsHash buyer seller given db
      | _, _ => throw (.persistenceConflict "current buyer and seller consent are required")

end Repository

end Persistence
