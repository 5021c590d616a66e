-- SUMMARY: When each transaction of the qualification service returns, and what it leaves then.
import SiraSeil.Persistence.QualificationOperations
import SiraSeil.SiraApi.QualificationService

/-!
# The operations of the qualification service

One lemma for each transaction of the service: the checks that it makes, the rows that it
writes and the keys of them that must be free.
-/

namespace SiraApi

open Domain Persistence Raising

section Operations

variable {rt : Runtime} {organizationId : String} {db db' : QualificationDb} {given : Given}

/-! ## Lookups -/

theorem engagementOf_eq_ok {engagementId : String} {e : MarketplaceEngagement}
    (h : engagementOf organizationId engagementId db = .ok e) :
    e ∈ db.engagements ∧ e.id = engagementId ∧
      (e.buyerOrganizationId = organizationId ∨ e.sellerOrganizationId = organizationId) := by
  unfold engagementOf at h
  split at h
  · cases h
  · next hfind =>
    cases h
    have hkeys := List.find?_some hfind
    simp only [decide_eq_true_eq] at hkeys
    exact ⟨List.mem_of_find?_eq_some hfind, hkeys⟩

theorem engagementOf_of_mem {e : MarketplaceEngagement}
    (hkeyed : Table.Keyed (·.id) db.engagements) (he : e ∈ db.engagements)
    (hparty : e.buyerOrganizationId = organizationId ∨ e.sellerOrganizationId = organizationId) :
    engagementOf organizationId e.id db = .ok e := by
  have hfind : db.engagements.find? (fun x => x.id = e.id ∧
      (x.buyerOrganizationId = organizationId ∨ x.sellerOrganizationId = organizationId)) =
      some e := by
    apply hkeyed.find?_eq he
    · simpa using hparty
    · intro x _ hx
      simp only [decide_eq_true_eq] at hx
      exact hx.1
  unfold engagementOf
  rw [hfind]

/-! ## Responses -/

/-- What a seller records. -/
def sellerResponse (organizationId : String) (e : MarketplaceEngagement)
    (actorId response : String) (citedEvidenceIds : List String) (message : Option String)
    (given : Given) : SellerResponse where
  id := "sresponse_" ++ given.uuid "sresponse"
  organizationId := organizationId
  engagementId := e.id
  inputDigest := e.inputDigest
  response := response
  citedEvidenceIds := Sorting.sortedBy id citedEvidenceIds.dedup
  message := message
  actorId := actorId

/-- The keys of a response, and of the seller's projection with it, are free. -/
structure ResponseFree (db : QualificationDb) (r : SellerResponse) : Prop where
  id : ∀ x ∈ db.sellerResponses, x.id ≠ r.id
  kind : r.response ∈ ["FIT", "ANTI_FIT", "NEEDS_INFO"]
  digest : ∀ x ∈ db.sellerResponses, ¬ (x.organizationId = r.organizationId ∧
    x.engagementId = r.engagementId ∧ x.inputDigest = r.inputDigest)
  projection : ∀ x ∈ db.sellerProjections, x.engagementId ≠ r.engagementId

def responseEvent (r : SellerResponse) : OutboxEvent where
  organizationId := r.organizationId
  aggregateType := "MARKETPLACE_ENGAGEMENT"
  aggregateId := r.engagementId
  eventType := "SELLER_RESPONSE_RECORDED"
  eventKey := "seller-response-recorded:" ++ r.id
  payload := [("engagement_id", .str r.engagementId), ("response_id", .str r.id),
    ("input_digest", .str r.inputDigest)]

/-- A response is recorded. -/
def recordResponse (r : SellerResponse) (db : QualificationDb) : QualificationDb :=
  addOutboxOnce (responseEvent r) { setEngagementState r.engagementId .responded db with
    sellerResponses := db.sellerResponses ++ [r]
    sellerProjections := db.sellerProjections ++ [⟨r.engagementId, r.organizationId⟩] }

/-- A seller's call passes the checks of `respond`. -/
structure MayRespond (db : QualificationDb) (organizationId ifMatch : String)
    (citedEvidenceIds : List String) (e : MarketplaceEngagement) : Prop where
  party : e.sellerOrganizationId = organizationId
  digest : verifyMatch ifMatch e.inputDigest = .ok ()
  state : e.state ∈ [.open, .responded]
  cited : checkCited organizationId e.productId citedEvidenceIds.dedup db = .ok ()

theorem respond_eq_ok {engagementId actorId ifMatch response : String}
    {citedEvidenceIds : List String} {message : Option String} {r : SellerResponse} :
    respond organizationId engagementId actorId ifMatch response citedEvidenceIds message given db =
        .ok (r, db') ↔
      ∃ e, engagementOf organizationId engagementId db = .ok e ∧
        MayRespond db organizationId ifMatch citedEvidenceIds e ∧
        r = sellerResponse organizationId e actorId response citedEvidenceIds message given ∧
        ResponseFree db r ∧ db' = recordResponse r db := by
  unfold respond
  rw [bind_eq_ok]
  refine exists_congr (fun e => and_congr_right (fun _ => ?_))
  dsimp only
  rw [unless_throw_eq_ok, check_bind_eq_ok, unless_throw_eq_ok,
    check_bind_eq_ok, check_bind_eq_ok, check_bind_eq_ok,
    check_bind_eq_ok, check_bind_eq_ok, constrain_eq_ok, constrain_eq_ok,
    constrain_eq_ok, constrain_eq_ok, pure_eq_ok, List.any_eq_false, List.any_eq_false,
    List.any_eq_false, Prod.mk.injEq]
  simp only [decide_eq_true_eq, decide_eq_false_iff_not, not_not]
  constructor
  · rintro ⟨hparty, hdigest, hstate, hcited, hid, hkind, hfree, hprojection, rfl, rfl⟩
    exact ⟨⟨hparty, hdigest, hstate, hcited⟩, rfl, ⟨hid, hkind, hfree, hprojection⟩, rfl⟩
  · rintro ⟨⟨hparty, hdigest, hstate, hcited⟩, rfl, ⟨hid, hkind, hfree, hprojection⟩, rfl⟩
    exact ⟨hparty, hdigest, hstate, hcited, hid, hkind, hfree, hprojection, rfl, rfl⟩

/-! ## Consents -/

/-- What a party grants. -/
def grantedOn (party : ConsentParty) (e : MarketplaceEngagement)
    (actorId approvedFieldsHash : String) (given : Given) : MarketplaceConsent where
  id := "mconsent_" ++ given.uuid "mconsent"
  engagementId := e.id
  party := party
  actorId := actorId
  inputDigest := e.inputDigest
  approvedFieldsHash := approvedFieldsHash
  state := .granted
  expiresAt := min e.expiresAt (given.now + 24 * 3600 * 1000000)

/-- The keys of a consent are free. -/
structure ConsentFree (db : QualificationDb) (c : MarketplaceConsent) : Prop where
  id : ∀ x ∈ db.consents, x.id ≠ c.id
  digest : ∀ x ∈ db.consents, ¬ (x.engagementId = c.engagementId ∧ x.party = c.party ∧
    x.inputDigest = c.inputDigest)

/-- The organization of a party. -/
def organizationOf (e : MarketplaceEngagement) :
    ConsentParty → String
  | .buyer => e.buyerOrganizationId
  | .seller => e.sellerOrganizationId

def consentEvent (organizationId : String) (c : MarketplaceConsent) : OutboxEvent :=
  let (partyName, keyName) := match c.party with
    | .buyer => ("BUYER", "buyer")
    | .seller => ("SELLER", "seller")
  { organizationId := organizationId
    aggregateType := "MARKETPLACE_ENGAGEMENT"
    aggregateId := c.engagementId
    eventType := partyName ++ "_CONSENT_GRANTED"
    eventKey := keyName ++ "-consent-granted:" ++ c.engagementId ++ ":" ++ c.inputDigest
    payload := [("engagement_id", .str c.engagementId), ("consent_id", .str c.id),
      ("party", .str partyName), ("input_digest", .str c.inputDigest),
      ("approved_fields_hash", .str c.approvedFieldsHash)] }

/-- A consent is recorded. -/
def recordConsent (organizationId : String) (c : MarketplaceConsent) (db : QualificationDb) :
    QualificationDb :=
  addOutboxOnce (consentEvent organizationId c)
    { setEngagementState c.engagementId .consentPending db with consents := db.consents ++ [c] }

/-- A party's call passes the checks of `consent`. -/
structure MayConsent (organizationId ifMatch : String) (party : ConsentParty) (now : Int)
    (e : MarketplaceEngagement) : Prop where
  party : organizationId = organizationOf e party
  digest : verifyMatch ifMatch e.inputDigest = .ok ()
  live : now < e.expiresAt

theorem consent_eq_ok {party : ConsentParty} {engagementId actorId ifMatch : String}
    {sharedFields : List (String × Value)} {c : MarketplaceConsent} :
    consent rt organizationId party engagementId actorId ifMatch sharedFields given db =
        .ok (c, db') ↔
      ∃ e, engagementOf organizationId engagementId db = .ok e ∧
        MayConsent organizationId ifMatch party given.now e ∧
        ∃ approvedFieldsHash, contentDigest rt (.obj sharedFields) = .ok approvedFieldsHash ∧
          c = grantedOn party e actorId approvedFieldsHash given ∧ ConsentFree db c ∧
          db' = recordConsent organizationId c db := by
  unfold consent
  rw [bind_eq_ok]
  refine exists_congr (fun e => and_congr_right (fun _ => ?_))
  have hexpected : (if party = .buyer then e.buyerOrganizationId else e.sellerOrganizationId) =
      organizationOf e party := by
    cases party with
    | buyer => rfl
    | seller => rfl
  dsimp only
  rw [hexpected, unless_throw_eq_ok, check_bind_eq_ok, unless_throw_eq_ok,
    bind_eq_ok]
  simp only [not_not, not_le]
  constructor
  · rintro ⟨hparty, hdigest, hlive, approvedFieldsHash, hhash, h⟩
    rw [check_bind_eq_ok, check_bind_eq_ok, constrain_eq_ok, constrain_eq_ok,
      List.any_eq_false, List.any_eq_false] at h
    simp only [decide_eq_true_eq] at h
    obtain ⟨hid, hfree, h⟩ := h
    refine ⟨⟨hparty, hdigest, hlive⟩, approvedFieldsHash, hhash, ?_⟩
    cases party with
    | buyer =>
      cases h
      exact ⟨rfl, ⟨hid, hfree⟩, rfl⟩
    | seller =>
      cases h
      exact ⟨rfl, ⟨hid, hfree⟩, rfl⟩
  · rintro ⟨⟨hparty, hdigest, hlive⟩, approvedFieldsHash, hhash, rfl, ⟨hid, hfree⟩, rfl⟩
    refine ⟨hparty, hdigest, hlive, approvedFieldsHash, hhash, ?_⟩
    rw [check_bind_eq_ok, check_bind_eq_ok, constrain_eq_ok, constrain_eq_ok,
      List.any_eq_false, List.any_eq_false]
    simp only [decide_eq_true_eq]
    refine ⟨hid, hfree, ?_⟩
    cases party with
    | buyer => rfl
    | seller => rfl

/-! ## Approvals -/

/-- The engagement that the approval of a decision opens. -/
def engagementFor (organizationId missionId : String) (d : QualificationDecision)
    (bundle : QualificationMissionBundle) (given : Given) : MarketplaceEngagement where
  id := "meng_" ++ given.uuid "meng"
  missionId := missionId
  decisionId := d.id
  buyerOrganizationId := organizationId
  sellerOrganizationId := bundle.sellerOrganizationId
  productId := d.recommendedProductId
  inputDigest := d.inputDigest
  state := .open
  expiresAt := given.now + 7 * 24 * 3600 * 1000000

/-- The keys of an engagement are free, and its parties are two. -/
structure EngagementFree (db : QualificationDb) (e : MarketplaceEngagement) : Prop where
  id : ∀ x ∈ db.engagements, x.id ≠ e.id
  parties : e.buyerOrganizationId ≠ e.sellerOrganizationId
  decision : ∀ x ∈ db.engagements, ¬ (x.decisionId = e.decisionId ∧
    x.sellerOrganizationId = e.sellerOrganizationId)
  projection : ∀ x ∈ db.buyerProjections, x.engagementId ≠ e.id

/-- The engagement is opened for an approved decision. -/
def openEngagement (e : MarketplaceEngagement) (db : QualificationDb) : QualificationDb :=
  { judgeDecision e.decisionId .approved db with
    engagements := db.engagements ++ [e]
    buyerProjections := db.buyerProjections ++ [⟨e.id, e.buyerOrganizationId⟩] }

/-- The dependencies of a decision on product bundles are all active, and there are some. -/
def ProductsActive (db : QualificationDb) (organizationId decisionId : String) : Prop :=
  productDependencies organizationId decisionId db ≠ [] ∧
    ∀ x ∈ productDependencies organizationId decisionId db, x.snapshot.IsActive db

theorem approveDecision_eq_ok {d : QualificationDecision} {mission : QualificationMission}
    {id : String} :
    approveDecision organizationId d mission given db = .ok (id, db') ↔
      ProductsActive db organizationId d.id ∧
        ∃ bundle, (db.bundlesOf organizationId d.attemptId).find? (fun b =>
            b.productId = d.recommendedProductId) = some bundle ∧
          ∃ e, e = engagementFor organizationId mission.id d bundle given ∧ EngagementFree db e ∧
            id = e.id ∧ db' = openEngagement e db := by
  unfold approveDecision ProductsActive
  dsimp only
  rw [unless_throw_eq_ok, unless_throw_eq_ok, and_assoc]
  refine and_congr_right (fun _ => and_congr ?_ ?_)
  · rw [Bool.not_eq_true', Bool.not_eq_false, List.all_eq_true]
    unfold DecisionDependency.holds DependencySnapshot.IsActive
    simp only [List.any_eq_true, decide_eq_true_eq]
  · cases hbundle : (db.bundlesOf organizationId d.attemptId).find? (fun b =>
        b.productId = d.recommendedProductId) with
    | none => simp
    | some bundle =>
      simp only [Option.some.injEq, exists_eq_left', exists_eq_left]
      rw [check_bind_eq_ok, check_bind_eq_ok, check_bind_eq_ok,
        check_bind_eq_ok, constrain_eq_ok, constrain_eq_ok, constrain_eq_ok,
        constrain_eq_ok, pure_eq_ok, List.any_eq_false, List.any_eq_false,
        List.any_eq_false, Prod.mk.injEq]
      simp only [decide_eq_true_eq, decide_eq_false_iff_not]
      constructor
      · rintro ⟨hid, hparties, hdecision, hprojection, rfl, rfl⟩
        exact ⟨⟨hid, hparties, hdecision, hprojection⟩, rfl, rfl⟩
      · rintro ⟨⟨hid, hparties, hdecision, hprojection⟩, rfl, rfl⟩
        exact ⟨hid, hparties, hdecision, hprojection, rfl, rfl⟩

/-- A pending current decision of the tenant is rejected, which ends its mission, or it is
    approved. -/
theorem decideApproval_eq_ok {decisionId actorId ifMatch reason id : String}
    {action : ApprovalAction}
    (h : decideApproval organizationId decisionId actorId ifMatch reason action given db =
      .ok (id, db')) :
    ∃ d ∈ db.decisions, d.organizationId = organizationId ∧ d.id = decisionId ∧
      d.current = true ∧ d.approvalState = .pending ∧
      ∃ mission, db.mission? organizationId d.missionId = some mission ∧
        ∃ judged event, db' = addOutboxOnce event judged ∧
          ((action = .reject ∧ judged =
              setMissionState mission.id .completed (judgeDecision d.id .rejected db)) ∨
            (action = .approve ∧
              approveDecision organizationId d mission given db = .ok (id, judged))) := by
  unfold decideApproval at h
  split at h
  · cases h
  · next d hfind =>
    have hkeys := List.find?_some hfind
    simp only [decide_eq_true_eq] at hkeys
    obtain ⟨_, -, h⟩ := bind_eq_ok.mp h
    obtain ⟨hpending, h⟩ := unless_throw_eq_ok.mp h
    refine ⟨d, List.mem_of_find?_eq_some hfind, hkeys.1, hkeys.2.1, hkeys.2.2, not_not.mp hpending,
      ?_⟩
    split at h
    · cases h
    · next mission hmission =>
      refine ⟨mission, hmission, ?_⟩
      dsimp only at h
      cases action with
      | reject =>
        cases h
        exact ⟨_, _, rfl, .inl ⟨rfl, rfl⟩⟩
      | approve =>
        obtain ⟨⟨resourceId, judged⟩, hjudge, h⟩ := bind_eq_ok.mp h
        cases h
        exact ⟨judged, _, rfl, .inr ⟨rfl, hjudge⟩⟩

/-! ## Missions and introductions -/

theorem createMission_eq_ok {body : MissionBody} {id : String}
    (h : createMission rt organizationId body given db = .ok (id, db')) :
    ∃ mission event, mission.id = id ∧ mission.organizationId = organizationId ∧
      mission.state = .ready ∧ (∀ m ∈ db.missions, m.id ≠ id) ∧
      db' = addOutboxOnce event { db with missions := db.missions ++ [mission] } := by
  unfold createMission at h
  obtain ⟨_, -, h⟩ := bind_eq_ok.mp h
  obtain ⟨_, -, h⟩ := bind_eq_ok.mp h
  obtain ⟨_, -, h⟩ := bind_eq_ok.mp h
  obtain ⟨_, hfree, h⟩ := bind_eq_ok.mp h
  cases h
  rw [constrain_eq_ok, List.any_eq_false] at hfree
  simp only [decide_eq_true_eq] at hfree
  exact ⟨_, _, rfl, rfl, rfl, hfree, rfl⟩

theorem introduce_eq_ok {engagementId ifMatch : String} {sharedFields : List (String × Value)}
    {i : QualifiedIntroduction}
    (h : introduce rt organizationId engagementId ifMatch sharedFields given db = .ok (i, db')) :
    ∃ e introduced, engagementOf organizationId engagementId db = .ok e ∧
      Persistence.introduce rt organizationId e.id e.decisionId e.inputDigest sharedFields given
        db = .ok (i, introduced) ∧
      ∃ mission, introduced.mission? organizationId e.missionId = some mission ∧
        db' = setMissionState mission.id .completed introduced := by
  unfold introduce at h
  obtain ⟨e, hengagement, h⟩ := bind_eq_ok.mp h
  obtain ⟨-, h⟩ := unless_throw_eq_ok.mp h
  obtain ⟨_, -, h⟩ := bind_eq_ok.mp h
  obtain ⟨⟨introduction, introduced⟩, hintroduce, h⟩ := bind_eq_ok.mp h
  dsimp only at h
  split at h
  · cases h
  · next mission hmission =>
    cases h
    exact ⟨e, introduced, hengagement, hintroduce, mission, hmission, rfl⟩

end Operations

end SiraApi
