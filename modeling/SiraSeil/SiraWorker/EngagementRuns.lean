-- SUMMARY: The changes that transactions make to engagements, responses, consents and introductions, and what every run keeps of them.
import SiraSeil.Domain.Digests
import SiraSeil.SiraWorker.MissionStates

/-!
# Engagements

An approved decision opens an engagement between its buyer and a seller. Both write to it, and
the buyer's tenant may close it. A change is what one transaction does to the engagements and
to all that belongs to them.
-/

namespace SiraWorker

open Domain Persistence SiraApi

/-! ## Changes -/

/-- Engagements that were not introduced or expired may have been closed. -/
def Closes (es es' : List MarketplaceEngagement) : Prop :=
  ∃ close : MarketplaceEngagement → MarketplaceEngagement, es' = es.map close ∧
    ∀ e, close e = e ∨
      (e.state ∉ [.introduced, .expired] ∧ close e = { e with state := .invalidated })

theorem Closes.refl (es : List MarketplaceEngagement) : Closes es es :=
  ⟨id, (List.map_id es).symm, fun _ => .inl rfl⟩

theorem Closes.trans {es es' es'' : List MarketplaceEngagement} (h : Closes es es')
    (h' : Closes es' es'') : Closes es es'' := by
  obtain ⟨close, rfl, hclose⟩ := h
  obtain ⟨close', rfl, hclose'⟩ := h'
  refine ⟨fun e => close' (close e), List.map_map, fun e => ?_⟩
  dsimp only
  rcases hclose e with heq | ⟨hopen, heq⟩
  · rw [heq]
    exact hclose' e
  · rw [heq]
    rcases hclose' { e with state := .invalidated } with heq' | ⟨-, heq'⟩
    · exact .inr ⟨hopen, heq'⟩
    · exact .inr ⟨hopen, heq'⟩

/-- The state of an engagement in a list is set. -/
def stateSet (engagementId : String) (state : EngagementState)
    (es : List MarketplaceEngagement) : List MarketplaceEngagement :=
  Table.update (·.id) engagementId (fun e => { e with state }) es

/-- The calls in which a party answers, or agrees to, an engagement. -/
def Transaction.negotiates : Transaction → Bool
  | .respond .. | .consent .. => true
  | _ => false

/-- What a transaction does to the engagements and what belongs to them. -/
inductive MarketChange (rt : Runtime) (t : Submitted) (db : QualificationDb) : Market → Prop
  | closes {es : List MarketplaceEngagement} (hother : t.transaction.negotiates = false)
      (hcloses : Closes db.engagements es) :
      MarketChange rt t db { marketOf db with engagements := es }
  | opens {e : MarketplaceEngagement} (hother : t.transaction.negotiates = false)
      (hfree : EngagementFree db e) (hstate : e.state = .open) :
      MarketChange rt t db { marketOf db with
        engagements := db.engagements ++ [e]
        buyerProjections := db.buyerProjections ++ [⟨e.id, e.buyerOrganizationId⟩] }
  | responds {e : MarketplaceEngagement} {r : SellerResponse} {actorId ifMatch response : String}
      {citedEvidenceIds : List String} {message : Option String} (he : e ∈ db.engagements)
      (htransaction : t.transaction =
        .respond e.id actorId ifMatch response citedEvidenceIds message)
      (hmay : MayRespond db t.organizationId ifMatch citedEvidenceIds e)
      (hr : r = sellerResponse t.organizationId e actorId response citedEvidenceIds message t.given)
      (hfree : ResponseFree db r) :
      MarketChange rt t db { marketOf db with
        engagements := stateSet r.engagementId .responded db.engagements
        sellerResponses := db.sellerResponses ++ [r]
        sellerProjections := db.sellerProjections ++ [⟨r.engagementId, r.organizationId⟩] }
  | consents {e : MarketplaceEngagement} {c : MarketplaceConsent} {party : ConsentParty}
      {actorId ifMatch approvedFieldsHash : String} {sharedFields : List (String × Value)}
      (he : e ∈ db.engagements)
      (htransaction : t.transaction = .consent party e.id actorId ifMatch sharedFields)
      (hmay : MayConsent t.organizationId ifMatch party t.given.now e)
      (hc : c = grantedOn party e actorId approvedFieldsHash t.given) (hfree : ConsentFree db c) :
      MarketChange rt t db { marketOf db with
        engagements := stateSet c.engagementId .consentPending db.engagements
        consents := db.consents ++ [c] }
  | introduces {e : MarketplaceEngagement} {sharedFields : List (String × Value)}
      {sharedFieldsHash : String} {buyer seller : MarketplaceConsent} {i : QualifiedIntroduction}
      {ifMatch : String} (he : e ∈ db.engagements)
      (htransaction : t.transaction = .introduce e.id ifMatch sharedFields)
      (hhash : contentDigest rt (.obj sharedFields) = .ok sharedFieldsHash)
      (hmay : MayIntroduce db t.organizationId e sharedFieldsHash t.given.now buyer seller)
      (hi : i = introductionOf e e.inputDigest sharedFieldsHash sharedFields buyer seller t.given) :
      MarketChange rt t db { marketOf db with
        introductions := db.introductions ++ [i]
        effects := db.effects ++ [introductionEffect t.organizationId i]
        engagements := stateSet i.engagementId .introduced db.engagements }

section Transactions

variable {rt : Runtime} {organizationId : String} {db db' : QualificationDb} {given : Given}

theorem marketChange_of_eq {t : Submitted} (hother : t.transaction.negotiates = false)
    (h : marketOf db' = marketOf db) : MarketChange rt t db (marketOf db') := by
  rw [h]
  exact .closes hother (Closes.refl db.engagements)

theorem closes_retireDecision (organizationId : String) (d : QualificationDecision)
    (db : QualificationDb) :
    marketOf (retireDecision organizationId d db) =
        { marketOf db with engagements := (retireDecision organizationId d db).engagements } ∧
      Closes db.engagements (retireDecision organizationId d db).engagements := by
  refine ⟨rfl, _, rfl, fun e => ?_⟩
  split
  · next hcloses => exact .inr ⟨hcloses.2.2, rfl⟩
  · exact .inl rfl

theorem closes_of_invalidateDecision {productId : String}
    {row : QualificationDecision × DecisionDependency} {result result' : BundleInvalidationResult}
    (h : invalidateDecision organizationId productId given row (result, db) = .ok (result', db')) :
    ∃ es, marketOf db' = { marketOf db with engagements := es } ∧ Closes db.engagements es := by
  obtain ⟨hretired, hcloses⟩ := closes_retireDecision organizationId row.1 db
  rcases invalidateDecision_eq_ok.mp h with ⟨-, -, rfl⟩ |
    ⟨-, ⟨-, rfl, -⟩ | ⟨active, replacement, -, hreopen, -⟩⟩
  · exact ⟨db'.engagements, rfl, Closes.refl _⟩
  · exact ⟨_, hretired, hcloses⟩
  · rcases reopenMission_eq_ok.mp hreopen with ⟨-, -, rfl⟩ | ⟨a, mission, hopen, b, replaced,
      hreplace, houtbox, -⟩
    · exact ⟨_, hretired, hcloses⟩
    · obtain ⟨-, horg, -⟩ := QualificationDb.attempt?_eq_some (mem_of_openMission hopen).1
      have hmarket : marketOf db' = marketOf replaced := (apart_of_addOutbox houtbox).market
      refine ⟨_, ?_, hcloses⟩
      rw [hmarket, (apart_of_replacementFor horg hreplace).market]
      exact hretired

theorem closes_of_invalidate {productId : String} {result : BundleInvalidationResult}
    (h : invalidateDecisionsForActiveBundle organizationId productId given db =
      .ok (result, db')) :
    ∃ es, marketOf db' = { marketOf db with engagements := es } ∧ Closes db.engagements es := by
  refine Raising.foldlM_related
    (R := fun (done done' : BundleInvalidationResult × QualificationDb) =>
      ∃ es, marketOf done'.2 = { marketOf done.2 with engagements := es } ∧
        Closes done.2.engagements es) ?_ ?_ ?_ h
  · exact fun done => ⟨done.2.engagements, rfl, Closes.refl _⟩
  · rintro x y z ⟨es, hy, hcloses⟩ ⟨es', hz, hcloses'⟩
    have hes : y.2.engagements = es := congrArg Market.engagements hy
    rw [hes] at hcloses'
    exact ⟨es', by rw [hz, hy], hcloses.trans hcloses'⟩
  · exact fun _ _ _ _ hround => closes_of_invalidateDecision hround

theorem marketChange_of_qualify {t : Submitted} {o : Outcome}
    (h : qualify rt t db = .ok (o, db')) : MarketChange rt t db (marketOf db') := by
  obtain ⟨organizationId, transaction, given⟩ := t
  unfold qualify at h
  cases transaction
  case createMission =>
    obtain ⟨_, h, -⟩ := outcome_eq_ok.mp h
    exact marketChange_of_eq rfl (apart_of_createMission h).market
  case storeBundle =>
    obtain ⟨_, h, -⟩ := outcome_eq_ok.mp h
    obtain ⟨bundles, members, rfl⟩ := tables_of_storeBundle h
    exact marketChange_of_eq rfl rfl
  case activateBundle =>
    obtain ⟨_, h, -⟩ := outcome_eq_ok.mp h
    obtain ⟨bundles, pointers, events, rfl⟩ := tables_of_activateBundle h
    exact marketChange_of_eq rfl rfl
  case prepareAttempt =>
    obtain ⟨_, h, -⟩ := outcome_eq_ok.mp h
    exact marketChange_of_eq rfl (apart_of_prepareAttempt h).market
  case claimAttempt =>
    obtain ⟨_, h, -⟩ := outcome_eq_ok.mp h
    exact marketChange_of_eq rfl (apart_of_claimAttempt h).market
  case snapshotAttempt =>
    obtain ⟨_, h, -⟩ := outcome_eq_ok.mp h
    exact marketChange_of_eq rfl (apart_of_snapshotAttempt h).market
  case checkpointAttempt =>
    obtain ⟨_, h, -⟩ := outcome_eq_ok.mp h
    exact marketChange_of_eq rfl (apart_of_checkpointAttempt h).market
  case finalizeAttempt =>
    obtain ⟨_, h, -⟩ := outcome_eq_ok.mp h
    exact marketChange_of_eq rfl (apart_of_finalizeAttempt h).market
  case claimAndSnapshot =>
    obtain ⟨_, h, -⟩ := outcome_eq_ok.mp h
    exact marketChange_of_eq rfl (apart_of_claimAndSnapshot h).market
  case finalizeEvaluation =>
    obtain ⟨_, h, -⟩ := outcome_eq_ok.mp h
    exact marketChange_of_eq rfl (apart_of_finalizeEvaluation h).market
  case invalidate =>
    obtain ⟨_, h, -⟩ := outcome_eq_ok.mp h
    obtain ⟨es, hmarket, hcloses⟩ := closes_of_invalidate h
    rw [hmarket]
    exact .closes rfl hcloses
  case decideApproval =>
    obtain ⟨_, h, -⟩ := outcome_eq_ok.mp h
    obtain ⟨d, -, -, -, -, -, mission, -, judged, event, rfl, hjudged⟩ :=
      SiraApi.decideApproval_eq_ok h
    rw [(apart_of_addOutboxOnce event judged).market]
    rcases hjudged with ⟨-, rfl⟩ | ⟨-, happrove⟩
    · exact marketChange_of_eq rfl rfl
    · obtain ⟨-, bundle, -, e, he, hfree, -, rfl⟩ := SiraApi.approveDecision_eq_ok.mp happrove
      exact .opens rfl hfree (by rw [he]; rfl)
  case respond =>
    obtain ⟨r, h, -⟩ := outcome_eq_ok.mp h
    obtain ⟨e, hengagement, hmay, hr, hfree, rfl⟩ := SiraApi.respond_eq_ok.mp h
    rw [recordResponse, (apart_of_addOutboxOnce _ _).market]
    obtain ⟨he, rfl, -⟩ := engagementOf_eq_ok hengagement
    exact .responds he rfl hmay hr hfree
  case consent =>
    obtain ⟨c, h, -⟩ := outcome_eq_ok.mp h
    obtain ⟨e, hengagement, hmay, hash, -, hc, hfree, rfl⟩ := SiraApi.consent_eq_ok.mp h
    rw [recordConsent, (apart_of_addOutboxOnce _ _).market]
    obtain ⟨he, rfl, -⟩ := engagementOf_eq_ok hengagement
    exact .consents he rfl hmay hc hfree
  case introduce =>
    obtain ⟨i, h, -⟩ := outcome_eq_ok.mp h
    obtain ⟨e, introduced, hengagement, hintroduce, mission, -, rfl⟩ := SiraApi.introduce_eq_ok h
    obtain ⟨-, hid, -⟩ := engagementOf_eq_ok hengagement
    obtain ⟨hash, hhash, e', he', hid', -, -, -, ⟨-, -, -, -, rfl⟩ |
      ⟨buyer, seller, hmay, hi, -, hadd⟩⟩ := Persistence.introduce_eq_ok hintroduce
    · exact marketChange_of_eq rfl rfl
    · have hmarket := (apart_of_addOutbox hadd).market
      show MarketChange rt _ db (marketOf introduced)
      rw [hmarket]
      exact .introduces he' (by rw [hid', hid]) hhash hmay hi
  case recordReceipt =>
    obtain ⟨_, h, -⟩ := outcome_eq_ok.mp h
    obtain ⟨receipts, rfl⟩ := recordReceipt_eq_ok h
    exact marketChange_of_eq rfl rfl

theorem introduces_of_marketChange {t : Submitted} {m : Market} {i : QualifiedIntroduction}
    (h : MarketChange rt t db m) (hi : i ∈ m.introductions) (hnew : i ∉ db.introductions) :
    ∃ e ∈ db.engagements, ∃ ifMatch sharedFields sharedFieldsHash buyer seller,
      t.transaction = .introduce e.id ifMatch sharedFields ∧
      contentDigest rt (.obj sharedFields) = .ok sharedFieldsHash ∧
      MayIntroduce db t.organizationId e sharedFieldsHash t.given.now buyer seller ∧
      i = introductionOf e e.inputDigest sharedFieldsHash sharedFields buyer seller t.given := by
  cases h with
  | closes => exact absurd hi hnew
  | opens => exact absurd hi hnew
  | responds => exact absurd hi hnew
  | consents => exact absurd hi hnew
  | introduces he htransaction hhash hmay hj =>
    rcases List.mem_append.mp hi with hi | hi
    · exact absurd hi hnew
    · rw [List.mem_singleton.mp hi]
      exact ⟨_, he, _, _, _, _, _, htransaction, hhash, hmay, hj⟩

theorem introduces_of_tablesAfter {t : Submitted} {ts : List Submitted}
    {i : QualifiedIntroduction} (hi : i ∈ (tablesAfter rt (ts ++ [t])).introductions)
    (hnew : i ∉ (tablesAfter rt ts).introductions) :
    ∃ e ∈ (tablesAfter rt ts).engagements, ∃ ifMatch sharedFields sharedFieldsHash buyer seller,
      t.transaction = .introduce e.id ifMatch sharedFields ∧
      contentDigest rt (.obj sharedFields) = .ok sharedFieldsHash ∧
      MayIntroduce (tablesAfter rt ts) t.organizationId e sharedFieldsHash t.given.now buyer seller ∧
      i = introductionOf e e.inputDigest sharedFieldsHash sharedFields buyer seller t.given := by
  cases hturn : qualify rt t (tablesAfter rt ts) with
  | error e =>
    rw [tablesAfter_of_error rt hturn] at hi
    exact absurd hi hnew
  | ok r =>
    obtain ⟨o, next⟩ := r
    rw [tablesAfter_of_ok rt hturn] at hi
    exact introduces_of_marketChange (marketChange_of_qualify hturn) hi hnew

end Transactions

/-! ## What every run keeps -/

/-- What an engagement was opened with. -/
def engagementOrigin (e : MarketplaceEngagement) : MarketplaceEngagement :=
  { e with state := .open }

/-- The same engagements, with other states. -/
def SameOrigins (es es' : List MarketplaceEngagement) : Prop :=
  es'.map engagementOrigin = es.map engagementOrigin

variable {es es' : List MarketplaceEngagement}

theorem Closes.sameOrigins (h : Closes es es') : SameOrigins es es' := by
  obtain ⟨close, rfl, hclose⟩ := h
  unfold SameOrigins
  rw [List.map_map]
  refine List.map_congr_left (fun e _ => ?_)
  show engagementOrigin (close e) = engagementOrigin e
  rcases hclose e with heq | ⟨-, heq⟩
  · rw [heq]
  · rw [heq]
    rfl

theorem sameOrigins_stateSet (engagementId : String) (state : EngagementState)
    (es : List MarketplaceEngagement) : SameOrigins es (stateSet engagementId state es) :=
  Table.map_update (fun _ => rfl)

theorem SameOrigins.keyed (h : SameOrigins es es')
    (hkeyed : Table.Keyed (·.id) es) : Table.Keyed (·.id) es' := by
  have hids : es'.map (·.id) = es.map (·.id) := by
    have hview := congrArg (List.map (·.id)) h
    rw [List.map_map, List.map_map] at hview
    exact hview
  unfold Table.Keyed
  rw [hids]
  exact hkeyed

theorem SameOrigins.exists_mem (h : SameOrigins es es') {e : MarketplaceEngagement} (he : e ∈ es) :
    ∃ e' ∈ es', engagementOrigin e' = engagementOrigin e := by
  have hmem : engagementOrigin e ∈ es'.map engagementOrigin := by
    rw [h]
    exact List.mem_map_of_mem he
  exact List.mem_map.mp hmem

theorem eq_of_engagementOrigin {e e' : MarketplaceEngagement}
    (h : engagementOrigin e' = engagementOrigin e) : e' = { e with state := e'.state } :=
  calc e' = { engagementOrigin e' with state := e'.state } := rfl
    _ = { engagementOrigin e with state := e'.state } := by rw [h]

/-- The engagement whose introduction an effect is, as its receipt names it. -/
def effectEngagement (x : QualificationEffect) : Option String :=
  match x.payload.lookup "engagement_id" with
  | some (.str engagementId) => some engagementId
  | _ => none

/-- Responses, consents and introductions are those of engagements, and an engagement has one
    introduction and one effect at most. -/
structure SoundMarket (m : Market) : Prop where
  engagements : Table.Keyed (·.id) m.engagements
  responses : ∀ r ∈ m.sellerResponses, ∃ e ∈ m.engagements, r.engagementId = e.id ∧
    r.organizationId = e.sellerOrganizationId ∧ r.inputDigest = e.inputDigest
  projections : ∀ p ∈ m.sellerProjections, ∃ r ∈ m.sellerResponses,
    r.engagementId = p.engagementId
  consents : ∀ c ∈ m.consents, ∃ e ∈ m.engagements, c.engagementId = e.id ∧
    c.inputDigest = e.inputDigest
  introductions : Table.Keyed (·.engagementId) m.introductions
  effects : m.effects.map effectEngagement = m.introductions.map (fun i => some i.engagementId)

section Sound

variable {rt : Runtime} {db : QualificationDb} {t : Submitted}

theorem SoundMarket.withStates {m : Market} {es : List MarketplaceEngagement}
    (h : SoundMarket m) (hsame : SameOrigins m.engagements es) :
    SoundMarket { m with engagements := es } where
  engagements := hsame.keyed h.engagements
  responses := by
    intro r hr
    obtain ⟨e, he, hid, hseller, hdigest⟩ := h.responses r hr
    obtain ⟨e', he', horigin⟩ := hsame.exists_mem he
    rw [eq_of_engagementOrigin horigin] at he'
    exact ⟨_, he', hid, hseller, hdigest⟩
  projections := h.projections
  consents := by
    intro c hc
    obtain ⟨e, he, hid, hdigest⟩ := h.consents c hc
    obtain ⟨e', he', horigin⟩ := hsame.exists_mem he
    rw [eq_of_engagementOrigin horigin] at he'
    exact ⟨_, he', hid, hdigest⟩
  introductions := h.introductions
  effects := h.effects

variable {e : MarketplaceEngagement}

theorem SoundMarket.opens (h : SoundMarket (marketOf db))
    (hfree : EngagementFree db e) : SoundMarket { marketOf db with
      engagements := db.engagements ++ [e]
      buyerProjections := db.buyerProjections ++ [⟨e.id, e.buyerOrganizationId⟩] } where
  engagements := h.engagements.append hfree.id
  responses := by
    intro r hr
    obtain ⟨x, hx, hof⟩ := h.responses r hr
    exact ⟨x, List.mem_append_left _ hx, hof⟩
  projections := h.projections
  consents := by
    intro c hc
    obtain ⟨x, hx, hof⟩ := h.consents c hc
    exact ⟨x, List.mem_append_left _ hx, hof⟩
  introductions := h.introductions
  effects := h.effects

theorem SoundMarket.responds {r : SellerResponse} (h : SoundMarket (marketOf db))
    (he : e ∈ db.engagements) (hseller : r.organizationId = e.sellerOrganizationId)
    (hof : r.engagementId = e.id)
    (hdigest : r.inputDigest = e.inputDigest) : SoundMarket { marketOf db with
      sellerResponses := db.sellerResponses ++ [r]
      sellerProjections := db.sellerProjections ++ [⟨r.engagementId, r.organizationId⟩] } where
  engagements := h.engagements
  responses := by
    intro x hx
    rcases List.mem_append.mp hx with hx | hx
    · exact h.responses x hx
    · rw [List.mem_singleton.mp hx]
      exact ⟨e, he, hof, hseller, hdigest⟩
  projections := by
    intro p hp
    rcases List.mem_append.mp hp with hp | hp
    · obtain ⟨x, hx, hof⟩ := h.projections p hp
      exact ⟨x, List.mem_append_left _ hx, hof⟩
    · rw [List.mem_singleton.mp hp]
      exact ⟨r, List.mem_append_right _ (List.mem_singleton_self r), rfl⟩
  consents := h.consents
  introductions := h.introductions
  effects := h.effects

theorem SoundMarket.consented {c : MarketplaceConsent} (h : SoundMarket (marketOf db))
    (he : e ∈ db.engagements) (hof : c.engagementId = e.id)
    (hdigest : c.inputDigest = e.inputDigest) :
    SoundMarket { marketOf db with consents := db.consents ++ [c] } where
  engagements := h.engagements
  responses := h.responses
  projections := h.projections
  consents := by
    intro x hx
    rcases List.mem_append.mp hx with hx | hx
    · exact h.consents x hx
    · rw [List.mem_singleton.mp hx]
      exact ⟨e, he, hof, hdigest⟩
  introductions := h.introductions
  effects := h.effects

theorem SoundMarket.introduces {i : QualifiedIntroduction} {organizationId : String}
    (h : SoundMarket (marketOf db)) (hfirst : ∀ x ∈ db.introductions, x.engagementId ≠ e.id)
    (hof : i.engagementId = e.id)
    (hreceipt : effectEngagement (introductionEffect organizationId i) = some e.id) :
    SoundMarket { marketOf db with
      introductions := db.introductions ++ [i]
      effects := db.effects ++ [introductionEffect organizationId i] } where
  engagements := h.engagements
  responses := h.responses
  projections := h.projections
  consents := h.consents
  introductions := by
    refine h.introductions.append (fun x hx => ?_)
    rw [hof]
    exact hfirst x hx
  effects := by
    have heffects : db.effects.map effectEngagement =
        db.introductions.map (fun x => some x.engagementId) := h.effects
    show (db.effects ++ [introductionEffect organizationId i]).map effectEngagement =
      (db.introductions ++ [i]).map (fun x => some x.engagementId)
    rw [List.map_append, List.map_append, heffects, List.map_singleton, List.map_singleton,
      hreceipt, hof]

theorem SoundMarket.change {m : Market} (h : SoundMarket (marketOf db))
    (hchange : MarketChange rt t db m) : SoundMarket m := by
  cases hchange with
  | closes _ hcloses => exact h.withStates hcloses.sameOrigins
  | opens _ hfree => exact h.opens hfree
  | responds he _ hmay hr =>
    rw [hr]
    exact (h.responds he hmay.party.symm rfl rfl).withStates (sameOrigins_stateSet _ _ _)
  | consents he _ _ hc =>
    rw [hc]
    exact (h.consented he rfl rfl).withStates (sameOrigins_stateSet _ _ _)
  | introduces he _ hhash hmay hi =>
    refine (h.introduces hmay.first ?_ ?_).withStates (sameOrigins_stateSet _ _ _)
    · rw [hi]
      rfl
    · rw [hi]
      rfl

end Sound

theorem soundMarket_tablesAfter (rt : Runtime) (ts : List Submitted) :
    SoundMarket (marketOf (tablesAfter rt ts)) :=
  Transactions.run_induction (I := fun (db : QualificationDb) => SoundMarket (marketOf db))
    (fun _ _ _ _ hsound h => hsound.change (marketChange_of_qualify h))
    ⟨Table.keyed_nil, fun _ hr => absurd hr List.not_mem_nil,
      fun _ hp => absurd hp List.not_mem_nil, fun _ hc => absurd hc List.not_mem_nil,
      Table.keyed_nil, rfl⟩ ts

/-! ## An engagement of the market -/

namespace Sample

/-- What the buyer's decision over the first bundle was made from, and what it is. -/
def inputDigest : String :=
  "sha256:60e813d4ded70b58582590c7e27ca708cd9e749abf9407413e1a08ab28d99e59"

def decisionDigest : String :=
  "sha256:05791a67be33e7af5950996c39ca31601a74f825927a7fee158ef5526fa65a5f"

def decisionId : String :=
  "qdec_" ++ (attemptId (missionId 0) [] ++ "1")

/-- The attempt of the buyer is about to be finalized over the first bundle. -/
def evaluating : List Submitted :=
  published ++ mission "buyer" 0 ++ (evaluated "buyer" (missionId 0) 1 [] first).take 2

/-- The decision and its approval. -/
def approving : List Submitted :=
  (evaluated "buyer" (missionId 0) 1 [] first).drop 2 ++ [
    ⟨"buyer", .decideApproval decisionId "ann" decisionDigest "fits" .approve, given 2⟩]

/-- The consents of both parties to share nothing. -/
def consenting : List Submitted := [
  ⟨"buyer", .consent .buyer "meng_meng2" "ann" inputDigest [], given 3⟩,
  ⟨"seller", .consent .seller "meng_meng2" "sue" inputDigest [], given 4⟩]

/-- The buyer asks for the introduction. -/
def introduction : Submitted :=
  ⟨"buyer", .introduce "meng_meng2" inputDigest [], given 6⟩

def approved : List Submitted :=
  evaluating ++ approving

/-- The bundle is replaced, and the buyer's decision over it is retired. -/
def invalidated : List Submitted :=
  approved ++ activated 5 second ++ [⟨"buyer", .invalidate "crm", given 6⟩]

/-- Both parties consent, and then the bundle is replaced. -/
def superseded : List Submitted :=
  approved ++ consenting ++ activated 5 second

def engagement : MarketplaceEngagement where
  id := "meng_meng2"
  missionId := missionId 0
  decisionId := decisionId
  buyerOrganizationId := "buyer"
  sellerOrganizationId := "seller"
  productId := "crm"
  inputDigest := inputDigest
  state := .open
  expiresAt := 604800000002

theorem engagements_of_runs :
    ((tablesAfter .ascii approved).engagements = [engagement] ∧
      (tablesAfter .ascii approved).sellerResponses.length = 0 ∧
      (tablesAfter .ascii approved).sellerProjections.length = 0 ∧
      (tablesAfter .ascii approved).consents.length = 0) ∧
    ((tablesAfter .ascii invalidated).engagements = [{ engagement with state := .invalidated }] ∧
      (tablesAfter .ascii invalidated).consents.length = 0) ∧
    (tablesAfter .ascii (superseded ++ [introduction])).introductions.any (fun i =>
      (SiraApi.productDependencies "buyer" i.decisionId (tablesAfter .ascii superseded)).any
        (fun x => ¬ x.snapshot.IsActive (tablesAfter .ascii superseded))) = true ∧
    (tablesAfter .ascii superseded).introductions.length = 0 ∧
    (tablesAfter .ascii (approved ++ consenting ++ [introduction])).introductions.length = 1 ∧
    (tablesAfter .ascii (approved ++ consenting)).introductions.length = 0 ∧
    (tablesAfter .ascii evaluating).decisions.length = 0 := by
  rw [Runtime.ascii_eq]
  decide +kernel

end Sample

end SiraWorker
