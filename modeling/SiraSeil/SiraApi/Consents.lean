-- SUMMARY: Consent to the exchange of contacts on an engagement: contacts are stored and shown exactly while the latest accepted calls of both parties consent.
import SiraSeil.Library.Transactions
import SiraSeil.Persistence.WorkflowRepository
import SiraSeil.SiraApi.DecisionService

/-!
# Consent to an introduction

`record_consent` of `services/api/sira_api/service.py`. A grant names the buyer and the seller of an
engagement with their organizations; each of them consents or declines under keys of their own. A
key that was used is answered with the engagement as it is now, not with what was answered then.
-/

namespace SiraApi

open Raising

namespace Engagements

open Domain Persistence PurchaseDb

/-! ## Engagements -/

inductive EngagementStatus
  | notStarted | sellerReviewing | sellerPassed | offerAvailable | buyerConsentPending
  | sellerConsentPending | introductionReady | declined | expired
  deriving DecidableEq, Repr

def EngagementStatus.value : EngagementStatus → String
  | notStarted => "NOT_STARTED"
  | sellerReviewing => "SELLER_REVIEWING"
  | sellerPassed => "SELLER_PASSED"
  | offerAvailable => "OFFER_AVAILABLE"
  | buyerConsentPending => "BUYER_CONSENT_PENDING"
  | sellerConsentPending => "SELLER_CONSENT_PENDING"
  | introductionReady => "INTRODUCTION_READY"
  | declined => "DECLINED"
  | expired => "EXPIRED"

inductive GrantStatus
  | active | revoked | expired
  deriving DecidableEq, Repr

/-- The contacts that an introduction exchanges. -/
structure ContactExchange where
  buyer : String
  seller : String
  deriving DecidableEq, Repr

/-- An engagement, with the constraints of its table. -/
structure Engagement where
  id : String
  organizationId : String
  sellerOrganizationId : String
  expectedBuyerActorId : String
  expectedSellerActorId : String
  grantStatus : GrantStatus
  status : EngagementStatus
  buyerConsented : Bool
  sellerConsented : Bool
  buyerConsentActorId : Option String
  sellerConsentActorId : Option String
  contactExchange : Option ContactExchange
  /-- `ck_engagement_distinct_participants` -/
  distinctParticipants : expectedBuyerActorId ≠ expectedSellerActorId
  /-- `ck_engagement_distinct_organizations` -/
  distinctOrganizations : organizationId ≠ sellerOrganizationId

/-- An engagement as a request for an offer opens it -/
structure Engagement.Opened (e : Engagement) : Prop where
  buyer : e.buyerConsented = false ∧ e.buyerConsentActorId = none
  seller : e.sellerConsented = false ∧ e.sellerConsentActorId = none
  contacts : e.contactExchange = none
  status : e.status = .sellerReviewing

structure ConsentDb extends Workspace where
  engagements : List Engagement := []

/-- `get_engagement`: either organization of an engagement reads it. -/
def ConsentDb.getEngagement (organizationId engagementId : String) (db : ConsentDb) :
    Qualified Engagement :=
  oneOrMissing (db.engagements.filter (fun e => e.id = engagementId ∧
    (e.organizationId = organizationId ∨ e.sellerOrganizationId = organizationId)))

/-! ## The parties -/

def partyOf : Option String → Option ConsentParty
  | some "BUYER" => some .buyer
  | some "SELLER" => some .seller
  | _ => none

namespace Engagement

def expectedActorId (e : Engagement) : ConsentParty → String
  | .buyer => e.expectedBuyerActorId
  | .seller => e.expectedSellerActorId

def expectedOrganizationId (e : Engagement) : ConsentParty → String
  | .buyer => e.organizationId
  | .seller => e.sellerOrganizationId

def consented (e : Engagement) : ConsentParty → Bool
  | .buyer => e.buyerConsented
  | .seller => e.sellerConsented

/-- The contacts are exchanged once both parties consent. -/
def exchanged (e : Engagement) : Engagement :=
  if e.buyerConsented ∧ e.sellerConsented then
    { e with contactExchange := some ⟨e.expectedBuyerActorId, e.expectedSellerActorId⟩ }
  else e

end Engagement

/-! ## Recording a consent -/

/-- `_engagement_view` -/
def engagementView (e : Engagement) : List (String × Value) :=
  [("id", .str e.id), ("status", .str e.status.value), ("buyer_consented", .bool e.buyerConsented),
    ("seller_consented", .bool e.sellerConsented),
    ("contact_details", .opt (fun (contacts : ContactExchange) => .obj
      [("buyer", .str contacts.buyer), ("seller", .str contacts.seller)])
      (if e.buyerConsented ∧ e.sellerConsented then e.contactExchange else none))]

/-- An engagement after a party consented or declined -/
def settle (actorId : String) (party : ConsentParty) (consent : Bool) (e : Engagement) :
    Qualified Engagement :=
  let separation : QualificationError := .api "CONSENT_SEPARATION_OF_PARTIES"
    "One actor cannot provide both buyer and seller consent." 403
  match consent, party with
  | false, .buyer => .ok { e with
      buyerConsented := false
      buyerConsentActorId := none
      status := .declined
      contactExchange := none }
  | false, .seller => .ok { e with
      sellerConsented := false
      sellerConsentActorId := none
      status := .declined
      contactExchange := none }
  | true, .buyer =>
    if e.sellerConsentActorId = some actorId then .error separation
    else .ok (Engagement.exchanged { e with
      buyerConsented := true
      buyerConsentActorId := some actorId
      status := if e.sellerConsented then .introductionReady else .sellerConsentPending })
  | true, .seller =>
    if e.buyerConsentActorId = some actorId then .error separation
    else .ok (Engagement.exchanged { e with
      sellerConsented := true
      sellerConsentActorId := some actorId
      status := if e.buyerConsented then .introductionReady else .buyerConsentPending })

/-- A call of an actor of a tenant, under a key. -/
structure ConsentCall where
  organizationId : String
  actorId : String
  actorParty : Option String
  engagementId : String
  idempotencyKey : String
  consent : Bool
  given : Given

/-- What is hashed of a call; `ConsentCreate` has one scope. -/
def ConsentCall.toValue (t : ConsentCall) : Value :=
  .obj [("engagement_id", .str t.engagementId), ("consent", .bool t.consent),
    ("scope", .str "CONTACT_EXCHANGE")]

def ConsentCall.scope (t : ConsentCall) : IdempotencyScope where
  organizationId := t.organizationId
  actorId := t.actorId
  operation := "engagement_consent.create"
  idempotencyKey := t.idempotencyKey

/-- `record_consent` -/
def recordConsent (rt : Runtime) (t : ConsentCall) (db : ConsentDb) :
    Qualified ((Int × List (String × Value)) × ConsentDb) := do
  let party ← firstOr (.api "VERIFIED_PARTY_REQUIRED"
    "Consent requires a verified buyer or seller identity." 403) (partyOf t.actorParty)
  let requestHash ← contentDigest rt t.toValue
  let (claim, claimed) ← claimIdempotency t.scope requestHash t.given db.toWorkspace
  let e ← notFound "ENGAGEMENT" (db.getEngagement t.organizationId t.engagementId)
  if claim.replay then
    -- A replay shows the engagement as it is now, not what was answered.
    return (((claim.record.responseStatus.filter (· ≠ 0)).getD 200, engagementView e),
      { db with toWorkspace := claimed })
  else
    if e.grantStatus ≠ .active ∨ t.organizationId ≠ e.expectedOrganizationId party ∨
        t.actorId ≠ e.expectedActorId party then
      throw (.api "CONSENT_ACTOR_MISMATCH"
        "The verified actor is not an authorized participant in this engagement." 403)
    let settled ← settle t.actorId party t.consent e
    let completed ← completeIdempotency t.organizationId claim.record 200 (engagementView settled)
      settled.id claimed
    return ((200, engagementView settled), {
      toWorkspace := completed
      engagements := Table.update (·.id) e.id (fun _ => settled) db.engagements })

/-- The tables after a run of consent calls -/
def consentsAfter (rt : Runtime) (db : ConsentDb) (run : List ConsentCall) : ConsentDb :=
  Transactions.run (recordConsent rt) db run

/-! ## What the parties said -/

/-- The key of a call was used, so that the call is a replay. -/
def ConsentCall.replays (t : ConsentCall) (db : ConsentDb) : Bool :=
  (recordOf t.scope db.records).any (fun r => r.state = .completed)

/-- A call is accepted: it is no replay, and it is not refused. -/
def accepts (rt : Runtime) (t : ConsentCall) (db : ConsentDb) : Bool :=
  (recordConsent rt t db).isOk && !t.replays db

/-- A call of a party on an engagement -/
def ConsentCall.isOf (t : ConsentCall) (party : ConsentParty) (engagementId : String) : Bool :=
  partyOf t.actorParty = some party && t.engagementId = engagementId

/-- The latest accepted call of a party on an engagement, in a run -/
def latestAccepted (rt : Runtime) (party : ConsentParty) (engagementId : String) :
    Option ConsentCall → ConsentDb → List ConsentCall → Option ConsentCall
  | latest, _, [] => latest
  | latest, db, t :: run =>
    latestAccepted rt party engagementId
      (if accepts rt t db && t.isOf party engagementId then some t else latest)
      (Transactions.after (recordConsent rt) db t) run

/-- The buyer and the seller of an engagement are different actors, and the latest accepted call of
    each of them, from their organizations, consents. -/
def MutualConsent (rt : Runtime) (db : ConsentDb) (run : List ConsentCall) (e : Engagement) : Prop :=
  (∀ party, ∃ t, latestAccepted rt party e.id none db run = some t ∧ t.consent = true ∧
    t.actorId = e.expectedActorId party ∧ t.organizationId = e.expectedOrganizationId party) ∧
  e.expectedActorId .buyer ≠ e.expectedActorId .seller

/-- A response shows contacts. -/
def discloses (payload : List (String × Value)) : Bool :=
  match payload.lookup "contact_details" with
  | none => false
  | some (.atom .null) => false
  | some _ => true

/-! ## One call -/

section Calls

variable {rt : Runtime} {t : ConsentCall} {db db' : ConsentDb} {e e' : Engagement}
  {party : ConsentParty}

theorem replay_of_claim {requestHash : String} {claim : IdempotencyClaim} {claimed : Workspace}
    (h : claimIdempotency t.scope requestHash t.given db.toWorkspace = .ok (claim, claimed)) :
    claim.replay = t.replays db := by
  unfold claimIdempotency at h
  unfold ConsentCall.replays
  split at h
  · next record hrecord =>
    split at h
    · cases h
    · cases h
      rw [hrecord]
      rfl
  · next hrecord =>
    dsimp only at h
    split at h
    · cases h
    · cases h
      rw [hrecord]
      rfl

/-- What settling an engagement leaves as it was, and what it says of the parties. -/
structure Settled (party : ConsentParty) (consent : Bool) (e e' : Engagement) : Prop where
  id : e'.id = e.id
  actors : e'.expectedActorId = e.expectedActorId
  organizations : e'.expectedOrganizationId = e.expectedOrganizationId
  said : e'.consented party = consent
  other : ∀ p, p ≠ party → e'.consented p = e.consented p

/-- The contacts of an engagement are stored exactly while both parties consent. -/
def Engagement.ContactsMatch (e : Engagement) : Prop :=
  e.contactExchange = if e.buyerConsented ∧ e.sellerConsented then
    some ⟨e.expectedBuyerActorId, e.expectedSellerActorId⟩ else none

theorem settled_exchanged {consent : Bool} (h : Settled party consent e e') :
    Settled party consent e e'.exchanged := by
  have hactors : e'.exchanged.expectedActorId = e'.expectedActorId := by
    unfold Engagement.exchanged
    split <;> rfl
  have horganizations : e'.exchanged.expectedOrganizationId = e'.expectedOrganizationId := by
    unfold Engagement.exchanged
    split <;> rfl
  have hconsented : e'.exchanged.consented = e'.consented := by
    unfold Engagement.exchanged
    split <;> rfl
  have hid : e'.exchanged.id = e'.id := by
    unfold Engagement.exchanged
    split <;> rfl
  exact ⟨hid.trans h.id, hactors.trans h.actors, horganizations.trans h.organizations,
    hconsented ▸ h.said, fun p hp => hconsented ▸ h.other p hp⟩

theorem Engagement.ContactsMatch.none_of_not (h : e.ContactsMatch)
    (hnot : ¬ (e.buyerConsented ∧ e.sellerConsented)) : e.contactExchange = none :=
  h.trans (if_neg hnot)

theorem contactsMatch_exchanged
    (h : ¬ (e.buyerConsented ∧ e.sellerConsented) → e.contactExchange = none) :
    e.exchanged.ContactsMatch := by
  unfold Engagement.exchanged
  split
  · next hboth => exact (if_pos hboth).symm
  · next hnot => exact (h hnot).trans (if_neg hnot).symm

/-- An accepted call settles what its party says, and keeps the contacts to mutual consent. -/
theorem settle_eq_ok {actorId : String} {consent : Bool} (h : settle actorId party consent e = .ok e') :
    Settled party consent e e' ∧ (e.ContactsMatch → e'.ContactsMatch) := by
  unfold settle at h
  dsimp only at h
  cases consent <;> cases party <;> dsimp only at h
  case false.buyer =>
    cases h
    refine ⟨⟨rfl, rfl, rfl, rfl, ?_⟩, fun _ => (if_neg (by simp)).symm⟩
    rintro (_ | _) hp
    · exact absurd rfl hp
    · rfl
  case false.seller =>
    cases h
    refine ⟨⟨rfl, rfl, rfl, rfl, ?_⟩, fun _ => (if_neg (by simp)).symm⟩
    rintro (_ | _) hp
    · rfl
    · exact absurd rfl hp
  case true.buyer =>
    split at h
    · cases h
    · cases h
      refine ⟨settled_exchanged ⟨rfl, rfl, rfl, rfl, ?_⟩, fun hmatch => contactsMatch_exchanged ?_⟩
      · rintro (_ | _) hp
        · exact absurd rfl hp
        · rfl
      · exact fun hnot => hmatch.none_of_not (fun hboth => hnot ⟨rfl, hboth.2⟩)
  case true.seller =>
    split at h
    · cases h
    · cases h
      refine ⟨settled_exchanged ⟨rfl, rfl, rfl, rfl, ?_⟩, fun hmatch => contactsMatch_exchanged ?_⟩
      · rintro (_ | _) hp
        · rfl
        · exact absurd rfl hp
      · exact fun hnot => hmatch.none_of_not (fun hboth => hnot ⟨hboth.1, rfl⟩)

/-- A replay shows the engagement of its call; any other call settles it for its party. -/
theorem recordConsent_eq_ok {status : Int} {payload : List (String × Value)}
    (h : recordConsent rt t db = .ok ((status, payload), db')) :
    ∃ party e, partyOf t.actorParty = some party ∧ e ∈ db.engagements ∧ e.id = t.engagementId ∧
      (t.replays db = true ∧ payload = engagementView e ∧ db'.engagements = db.engagements ∨
        t.replays db = false ∧ t.actorId = e.expectedActorId party ∧
          t.organizationId = e.expectedOrganizationId party ∧ ∃ e',
            settle t.actorId party t.consent e = .ok e' ∧ payload = engagementView e' ∧
              db'.engagements = Table.update (·.id) e.id (fun _ => e') db.engagements) := by
  unfold recordConsent at h
  obtain ⟨party, hparty, h⟩ := bind_eq_ok.mp h
  obtain ⟨requestHash, -, h⟩ := bind_eq_ok.mp h
  obtain ⟨⟨claim, claimed⟩, hclaim, h⟩ := bind_eq_ok.mp h
  obtain ⟨e, he, h⟩ := bind_eq_ok.mp h
  have hrows := mem_of_oneOrMissing (notFound_eq_ok he)
  have hmem : e ∈ db.engagements.filter (fun e => e.id = t.engagementId ∧
      (e.organizationId = t.organizationId ∨ e.sellerOrganizationId = t.organizationId)) :=
    hrows ▸ List.mem_singleton_self e
  obtain ⟨hmem, hid⟩ := List.mem_filter.mp hmem
  refine ⟨party, e, firstOr_eq_ok hparty, hmem, (of_decide_eq_true hid).1, ?_⟩
  rw [← replay_of_claim hclaim]
  dsimp only at h
  split at h
  · next hreplay =>
    cases h
    exact .inl ⟨hreplay, rfl, rfl⟩
  · next hreplay =>
    rw [unless_throw_eq_ok, not_or, not_or] at h
    obtain ⟨⟨-, horganization, hactor⟩, h⟩ := h
    obtain ⟨e', hsettled, h⟩ := bind_eq_ok.mp h
    obtain ⟨completed, -, h⟩ := bind_eq_ok.mp h
    cases h
    exact .inr ⟨Bool.eq_false_of_not_eq_true hreplay, not_not.mp hactor, not_not.mp horganization, e',
      hsettled, rfl, rfl⟩

theorem discloses_engagementView (h : e.ContactsMatch) :
    discloses (engagementView e) = true ↔ e.contactExchange ≠ none := by
  have hlookup : (engagementView e).lookup "contact_details" = some (.opt
      (fun (contacts : ContactExchange) => .obj
        [("buyer", .str contacts.buyer), ("seller", .str contacts.seller)])
      (if e.buyerConsented ∧ e.sellerConsented then e.contactExchange else none)) := by
    unfold engagementView
    rfl
  unfold Engagement.ContactsMatch at h
  unfold discloses
  rw [hlookup, h]
  by_cases hboth : e.buyerConsented ∧ e.sellerConsented
  · rw [if_pos hboth, if_pos hboth]
    refine ⟨fun _ => ?_, fun _ => rfl⟩
    rintro ⟨⟩
  · rw [if_neg hboth, if_neg hboth]
    refine ⟨?_, fun hnone => absurd rfl hnone⟩
    rintro ⟨⟩

end Calls

/-! ## Runs -/

section Runs

variable {rt : Runtime} {db : ConsentDb} {run : List ConsentCall} {e : Engagement}
  {party : ConsentParty}

theorem latestAccepted_concat (latest : Option ConsentCall) (engagementId : String) (t : ConsentCall) :
    latestAccepted rt party engagementId latest db (run ++ [t]) =
      if accepts rt t (consentsAfter rt db run) && t.isOf party engagementId then some t
      else latestAccepted rt party engagementId latest db run := by
  induction run generalizing latest db with
  | nil => rfl
  | cons first run ih =>
    rw [List.cons_append, latestAccepted, ih]
    rfl

/-- An engagement says what its parties said last, and stores contacts only under mutual consent. -/
structure Told (rt : Runtime) (db : ConsentDb) (run : List ConsentCall) (e : Engagement) : Prop where
  said : ∀ p, e.consented p = (latestAccepted rt p e.id none db run).any (·.consent)
  own : ∀ p t, latestAccepted rt p e.id none db run = some t →
    t.actorId = e.expectedActorId p ∧ t.organizationId = e.expectedOrganizationId p
  contacts : e.ContactsMatch

/-- Engagements as they were opened, under ids that are keys. -/
structure Fresh (db : ConsentDb) : Prop where
  ids : Table.Keyed (fun (e : Engagement) => e.id) db.engagements
  opened : ∀ e ∈ db.engagements, e.Opened

theorem Fresh.told (h : Fresh db) (he : e ∈ db.engagements) : Told rt db [] e := by
  obtain ⟨hbuyer, hseller, hcontacts, -⟩ := h.opened e he
  refine ⟨?_, nofun, ?_⟩
  · rintro (_ | _)
    · exact hbuyer.1
    · exact hseller.1
  · unfold Engagement.ContactsMatch
    rw [hcontacts, hbuyer.1]
    rfl

theorem Told.skip (h : Told rt db run e) {t : ConsentCall}
    (hnot : ∀ p, (accepts rt t (consentsAfter rt db run) && t.isOf p e.id) = false) :
    Told rt db (run ++ [t]) e := by
  have hsame : ∀ p, latestAccepted rt p e.id none db (run ++ [t]) =
      latestAccepted rt p e.id none db run := by
    intro p
    rw [latestAccepted_concat, hnot p]
    rfl
  exact ⟨fun p => hsame p ▸ h.said p, fun p => hsame p ▸ h.own p, h.contacts⟩

theorem Told.settle (h : Told rt db run e) {t : ConsentCall} {e' : Engagement}
    (hparty : partyOf t.actorParty = some party) (hid : e.id = t.engagementId)
    (haccepts : accepts rt t (consentsAfter rt db run) = true)
    (hactor : t.actorId = e.expectedActorId party)
    (horganization : t.organizationId = e.expectedOrganizationId party)
    (hsettled : Engagements.settle t.actorId party t.consent e = .ok e') :
    Told rt db (run ++ [t]) e' := by
  obtain ⟨hsettled, hcontacts⟩ := settle_eq_ok hsettled
  have hlast : latestAccepted rt party e'.id none db (run ++ [t]) = some t := by
    rw [latestAccepted_concat, haccepts, ConsentCall.isOf, hparty, hsettled.id, hid]
    simp
  have hother : ∀ p, p ≠ party → latestAccepted rt p e'.id none db (run ++ [t]) =
      latestAccepted rt p e.id none db run := by
    intro p hp
    rw [latestAccepted_concat, ConsentCall.isOf, hparty, hsettled.id]
    simp [Ne.symm hp]
  refine ⟨fun p => ?_, fun p last hp => ?_, hcontacts h.contacts⟩
  · by_cases hp : p = party
    · rw [hp, hlast, hsettled.said]
      rfl
    · rw [hother p hp, hsettled.other p hp, h.said p]
  · rw [hsettled.actors, hsettled.organizations]
    by_cases hown : p = party
    · rw [hown, hlast] at hp
      cases hp
      exact hown ▸ ⟨hactor, horganization⟩
    · exact h.own p last (hother p hown ▸ hp)

theorem told_consentsAfter (rt : Runtime) (hfresh : Fresh db) (run : List ConsentCall) :
    Table.Keyed (fun (e : Engagement) => e.id) (consentsAfter rt db run).engagements ∧
      ∀ e ∈ (consentsAfter rt db run).engagements, Told rt db run e := by
  induction run using List.reverseRecOn with
  | nil => exact ⟨hfresh.ids, fun e he => hfresh.told he⟩
  | append_singleton run t ih =>
    obtain ⟨hids, htold⟩ := ih
    have hconcat : consentsAfter rt db (run ++ [t]) =
        Transactions.after (recordConsent rt) (consentsAfter rt db run) t :=
      Transactions.run_concat db run t
    rw [hconcat]
    rcases Transactions.after_cases (f := recordConsent rt) (consentsAfter rt db run) t with
      ⟨⟨status, payload⟩, db', hdone, heq⟩ | ⟨error, hraises, heq⟩
    · rw [heq]
      obtain ⟨party, e, hparty, he, hid, ⟨hreplays, -, hsame⟩ |
        ⟨hnew, hactor, horganization, e', hsettled, -, hupdated⟩⟩ := recordConsent_eq_ok hdone
      · rw [hsame]
        refine ⟨hids, fun row hrow => (htold row hrow).skip (fun p => ?_)⟩
        rw [accepts, hreplays]
        simp
      · rw [hupdated]
        have haccepts : accepts rt t (consentsAfter rt db run) = true := by
          rw [accepts, hdone, hnew]
          rfl
        have hkey := (settle_eq_ok hsettled).1.id
        refine ⟨?_, fun row hrow => ?_⟩
        · exact hids.replace hkey
        · rcases Table.mem_update.mp hrow with ⟨-, -, -, rfl⟩ | ⟨hrow, hne⟩
          · exact (htold e he).settle hparty hid haccepts hactor horganization hsettled
          · refine (htold row hrow).skip (fun p => ?_)
            have hother : ¬ t.engagementId = row.id := fun hsame => hne (hsame.symm.trans hid.symm)
            rw [ConsentCall.isOf, decide_eq_false hother]
            simp
    · rw [heq]
      refine ⟨hids, fun row hrow => (htold row hrow).skip (fun p => ?_)⟩
      rw [accepts, hraises]
      rfl

theorem Told.contacts_iff (h : Told rt db run e) :
    e.contactExchange ≠ none ↔ MutualConsent rt db run e := by
  have hboth : e.contactExchange ≠ none ↔ ∀ p, e.consented p = true := by
    have hcontacts := h.contacts
    unfold Engagement.ContactsMatch at hcontacts
    rw [hcontacts]
    split
    · next hboth => exact ⟨fun _ p => by cases p <;> [exact hboth.1; exact hboth.2], fun _ => nofun⟩
    · next hnot => exact ⟨fun hnone => absurd rfl hnone, fun hall => absurd ⟨hall .buyer, hall .seller⟩ hnot⟩
  rw [hboth]
  constructor
  · intro hall
    refine ⟨fun p => ?_, e.distinctParticipants⟩
    have hsaid := hall p
    rw [h.said p, Option.any_eq_true] at hsaid
    obtain ⟨t, ht, hconsent⟩ := hsaid
    exact ⟨t, ht, hconsent, h.own p t ht⟩
  · rintro ⟨hmutual, -⟩ p
    obtain ⟨t, ht, hconsent, -⟩ := hmutual p
    rw [h.said p, ht]
    exact hconsent

theorem shown_of_recordConsent (hfresh : Fresh db) {t : ConsentCall} {status : Int}
    {payload : List (String × Value)} {db' : ConsentDb}
    (h : recordConsent rt t (consentsAfter rt db run) = .ok ((status, payload), db'))
    (he : e ∈ db'.engagements) (hid : e.id = t.engagementId) :
    payload = engagementView e ∧ Told rt db (run ++ [t]) e := by
  have hafter : consentsAfter rt db (run ++ [t]) = db' :=
    (Transactions.run_concat db run t).trans (Transactions.after_of_ok h)
  obtain ⟨hids, htold⟩ := told_consentsAfter rt hfresh (run ++ [t])
  rw [hafter] at hids htold
  refine ⟨?_, htold e he⟩
  obtain ⟨party, row, -, hrow, hrowId, ⟨-, hview, hsame⟩ | ⟨-, -, -, e', hsettled, hview, hupdated⟩⟩ :=
    recordConsent_eq_ok h
  · rw [hview, hids.eq he (hsame ▸ hrow) (hid.trans hrowId.symm)]
  · have hkey := (settle_eq_ok hsettled).1.id
    have hmem : e' ∈ db'.engagements := hupdated ▸ Table.mem_update.mpr (.inl ⟨row, hrow, rfl, rfl⟩)
    rw [hview, hids.eq he hmem (hid.trans (hrowId.symm.trans hkey.symm))]

/-- The last word of a party after a call of it is that call, or one that was accepted since. -/
theorem latestAccepted_since {before later : List ConsentCall} {engagementId : String}
    {t last : ConsentCall} (haccepts : accepts rt t (consentsAfter rt db before) = true)
    (hof : t.isOf party engagementId = true)
    (h : latestAccepted rt party engagementId none db (before ++ t :: later) = some last) :
    last = t ∨ ∃ mid rest, later = mid ++ last :: rest ∧
      accepts rt last (consentsAfter rt db (before ++ t :: mid)) = true ∧
        last.isOf party engagementId = true := by
  induction later using List.reverseRecOn with
  | nil =>
    rw [latestAccepted_concat, haccepts, hof] at h
    exact .inl (Option.some.inj h).symm
  | append_singleton later u ih =>
    rw [← List.cons_append, ← List.append_assoc, latestAccepted_concat] at h
    split at h
    · next hu =>
      rw [Bool.and_eq_true] at hu
      cases h
      exact .inr ⟨later, [], rfl, hu⟩
    · rcases ih h with hsame | ⟨mid, rest, rfl, hlast⟩
      · exact .inl hsame
      · exact .inr ⟨mid, rest ++ [u], by rw [List.append_assoc, List.cons_append], hlast⟩

end Runs

/-- What holds of contacts after a run, and of every response to the call that follows. -/
structure DisclosedByConsent (rt : Runtime) (db : ConsentDb) (run : List ConsentCall) : Prop where
  stored : ∀ e ∈ (consentsAfter rt db run).engagements,
    (e.contactExchange ≠ none ↔ MutualConsent rt db run e) ∧
      ∀ contacts, e.contactExchange = some contacts →
        contacts = ⟨e.expectedBuyerActorId, e.expectedSellerActorId⟩
  shown : ∀ t status payload db',
    recordConsent rt t (consentsAfter rt db run) = .ok ((status, payload), db') →
      ∀ e ∈ db'.engagements, e.id = t.engagementId →
        (discloses payload = true ↔ MutualConsent rt db (run ++ [t]) e)
  /-- Since it declined, a party has consented again before contacts are shown. -/
  declined : ∀ before decline later party, run = before ++ decline :: later →
    accepts rt decline (consentsAfter rt db before) = true → decline.consent = false →
      partyOf decline.actorParty = some party → ∀ t status payload db',
        recordConsent rt t (consentsAfter rt db run) = .ok ((status, payload), db') →
          t.engagementId = decline.engagementId → discloses payload = true →
            ∃ mid again rest, later ++ [t] = mid ++ again :: rest ∧
              accepts rt again (consentsAfter rt db (before ++ decline :: mid)) = true ∧
                again.isOf party decline.engagementId = true ∧ again.consent = true

/-- In every run of consent calls, contacts are stored and shown exactly under mutual consent. -/
theorem contacts_disclosed_by_consent (rt : Runtime) {db : ConsentDb} (hfresh : Fresh db)
    (run : List ConsentCall) : DisclosedByConsent rt db run := by
  obtain ⟨hids, htold⟩ := told_consentsAfter rt hfresh run
  refine ⟨fun e he => ⟨(htold e he).contacts_iff, fun contacts hcontacts => ?stored⟩, ?shown, ?declined⟩
  case stored =>
    have hmatch := (htold e he).contacts
    unfold Engagement.ContactsMatch at hmatch
    rw [hcontacts] at hmatch
    split at hmatch
    · exact Option.some.inj hmatch
    · cases hmatch
  case shown =>
    intro t status payload db' hdone e he hid
    obtain ⟨rfl, htold⟩ := shown_of_recordConsent hfresh hdone he hid
    rw [discloses_engagementView htold.contacts, htold.contacts_iff]
  case declined =>
    rintro before decline later party rfl haccepts hdecline hparty t status payload db' hdone hsame hshown
    -- The engagement of the response is under mutual consent, so that its party consented last.
    obtain ⟨e, he, hid⟩ : ∃ e ∈ db'.engagements, e.id = t.engagementId := by
      obtain ⟨own, row, -, hrow, hrowId, ⟨-, -, heq⟩ | ⟨-, -, -, e', hsettled, -, hupdated⟩⟩ :=
        recordConsent_eq_ok hdone
      · exact ⟨row, heq ▸ hrow, hrowId⟩
      · exact ⟨e', hupdated ▸ Table.mem_update.mpr (.inl ⟨row, hrow, rfl, rfl⟩),
          (settle_eq_ok hsettled).1.id.trans hrowId⟩
    obtain ⟨rfl, htold⟩ := shown_of_recordConsent hfresh hdone he hid
    rw [discloses_engagementView htold.contacts, htold.contacts_iff] at hshown
    obtain ⟨again, hagain, hconsents, -⟩ := hshown.1 party
    rw [hid, hsame, List.append_assoc, List.cons_append] at hagain
    have hof : decline.isOf party decline.engagementId = true := by
      rw [ConsentCall.isOf, hparty]
      simp
    rcases latestAccepted_since haccepts hof hagain with rfl | ⟨mid, rest, hlater, hlast, hown⟩
    · rw [hdecline] at hconsents
      cases hconsents
    · exact ⟨mid, again, rest, hlater, hlast, hown, hconsents⟩

/-! ## An introduction -/

namespace Sample

def engagement : Engagement where
  id := "eng_1"
  organizationId := "org_buyer"
  sellerOrganizationId := "org_seller"
  expectedBuyerActorId := "ann"
  expectedSellerActorId := "sue"
  grantStatus := .active
  status := .sellerReviewing
  buyerConsented := false
  sellerConsented := false
  buyerConsentActorId := none
  sellerConsentActorId := none
  contactExchange := none
  distinctParticipants := by decide
  distinctOrganizations := by decide

def opened : ConsentDb where
  tables := { organizations := ["org_buyer", "org_seller"] }
  engagements := [engagement]

theorem fresh_opened : Fresh opened where
  ids := List.nodup_singleton _
  opened := fun _ he => by
    rw [List.mem_singleton.mp he]
    exact ⟨⟨rfl, rfl⟩, ⟨rfl, rfl⟩, rfl, rfl⟩

/-- A call of the buyer. The id that it draws is its key. -/
def buyer (key : String) (consent : Bool) : ConsentCall :=
  ⟨"org_buyer", "ann", some "BUYER", "eng_1", key, consent, ⟨0, fun _ => key⟩⟩

def seller (key : String) (consent : Bool) : ConsentCall :=
  ⟨"org_seller", "sue", some "SELLER", "eng_1", key, consent, ⟨0, fun _ => key⟩⟩

/-- Both parties consent, and the buyer declines. -/
def withdrawn : List ConsentCall :=
  [buyer "k1" true, seller "k2" true, buyer "k3" false]

end Sample

open Sample in
theorem contacts_disclosed_by_consent_sample : DisclosedByConsent .ascii opened withdrawn :=
  contacts_disclosed_by_consent .ascii fresh_opened withdrawn

open Sample in
/-- After the buyer declined, a consent of the buyer alone shows the contacts: what the seller said
    before the decline still stands. -/
theorem buyer_alone_discloses_again :
    Fresh opened ∧
    accepts .ascii (buyer "k3" false) (consentsAfter .ascii opened (withdrawn.take 2)) = true ∧
    (recordConsent .ascii (buyer "k4" true) (consentsAfter .ascii opened withdrawn)).toOption.any
      (fun r => discloses r.1.2) = true ∧
    latestAccepted .ascii .seller "eng_1" none (consentsAfter .ascii opened (withdrawn.take 2))
      [buyer "k3" false, buyer "k4" true] = none :=
  ⟨fresh_opened, by decide +kernel, by decide +kernel, by decide +kernel⟩

end Engagements

end SiraApi
