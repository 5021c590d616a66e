-- SUMMARY: A closed or expired engagement takes no more responses and consents in runs in which no call reopens it, and a call that passes its checks returns when it is its party's first.
import SiraSeil.SiraWorker.EngagementRuns

/-!
# Closed engagements

`respond` reads the state of an engagement and not its expiry, `consent` its expiry and not its
state. Neither asks whether its caller has answered already, where the tables keep one response
of an engagement and one consent of each party.
-/

namespace SiraWorker

open Domain Persistence SiraApi

/-! ## What belongs to an engagement -/

/-- An engagement whose negotiation is over. -/
def Closed (e : MarketplaceEngagement) : Prop :=
  e.state ∈ [.invalidated, .introduced, .expired]

/-- An engagement with all that its parties added to it. -/
structure EngagementFile where
  engagements : List MarketplaceEngagement
  responses : List SellerResponse
  consents : List MarketplaceConsent

def fileOf (engagementId : String) (m : Market) : EngagementFile where
  engagements := m.engagements.filter (fun e => e.id = engagementId)
  responses := m.sellerResponses.filter (fun r => r.engagementId = engagementId)
  consents := m.consents.filter (fun c => c.engagementId = engagementId)

theorem mem_consents_fileOf {engagementId : String} {db : QualificationDb}
    {c : MarketplaceConsent} : c ∈ (fileOf engagementId (marketOf db)).consents ↔
      c ∈ db.consents ∧ c.engagementId = engagementId := by
  simp [fileOf, marketOf]

theorem mem_of_fileOf_eq {m m' : Market} {e : MarketplaceEngagement}
    (h : fileOf e.id m' = fileOf e.id m) (he : e ∈ m.engagements) : e ∈ m'.engagements := by
  have hmem : e ∈ (fileOf e.id m').engagements := by
    rw [h]
    exact List.mem_filter.mpr ⟨he, decide_eq_true rfl⟩
  exact (List.mem_filter.mp hmem).1

theorem filter_stateSet_of_ne {engagementId other : String} (hne : other ≠ engagementId)
    (state : EngagementState) (es : List MarketplaceEngagement) :
    (stateSet other state es).filter (fun e => e.id = engagementId) =
      es.filter (fun e => e.id = engagementId) := by
  apply Table.filter_update_of_not
  · exact fun _ => rfl
  · intro e _ hid
    rw [hid]
    exact decide_eq_false hne

namespace Sample

/-- The buyer consents after the invalidation. -/
def agreed : Submitted :=
  ⟨"buyer", .consent .buyer "meng_meng2" "ann" inputDigest [], given 7⟩

/-- The seller answers. -/
def answered : Submitted :=
  ⟨"seller", .respond "meng_meng2" "sue" inputDigest "FIT" [] none, given 7⟩

theorem verifyMatch_inputDigest : verifyMatch inputDigest inputDigest = .ok () := by
  decide +kernel

/-- The digest of no shared fields. -/
def nothingDigest : String :=
  "sha256:44136fa355b3678a1146ad16f7e8649e94fb4fc21fe77e8310c060f61caaff8a"

theorem contentDigest_nothing : contentDigest .ascii (.obj []) = .ok nothingDigest := by
  decide +kernel

end Sample

/-! ## Calls that reopen -/

/-- A call that gets past its checks though its engagement is closed: a first response after the
    engagement expired, or a first consent of a party to an engagement that was invalidated or
    introduced. -/
inductive Renegotiates (t : Submitted) (db : QualificationDb) : Prop
  | responds {e : MarketplaceEngagement} {actorId ifMatch response : String}
      {citedEvidenceIds : List String} {message : Option String} (he : e ∈ db.engagements)
      (htransaction : t.transaction =
        .respond e.id actorId ifMatch response citedEvidenceIds message)
      (hmay : MayRespond db t.organizationId ifMatch citedEvidenceIds e)
      (hexpired : e.expiresAt ≤ t.given.now)
      (hfirst : ∀ r ∈ db.sellerResponses, r.engagementId ≠ e.id)
  | consents {e : MarketplaceEngagement} {party : ConsentParty} {actorId ifMatch : String}
      {sharedFields : List (String × Value)} (he : e ∈ db.engagements)
      (htransaction : t.transaction = .consent party e.id actorId ifMatch sharedFields)
      (hmay : MayConsent t.organizationId ifMatch party t.given.now e) (hclosed : Closed e)
      (hfirst : ∀ c ∈ db.consents, ¬ (c.engagementId = e.id ∧ c.party = party))

section Steps

variable {rt : Runtime} {t : Submitted} {db : QualificationDb} {m : Market}

variable {e : MarketplaceEngagement}

theorem first_of_responseFree {r : SellerResponse} (h : ResponseFree db r)
    (hsound : SoundMarket (marketOf db)) (he : e ∈ db.engagements) (hof : r.engagementId = e.id)
    (hseller : r.organizationId = e.sellerOrganizationId)
    (hdigest : r.inputDigest = e.inputDigest) : ∀ x ∈ db.sellerResponses, x.engagementId ≠ e.id := by
  intro x hx hid
  obtain ⟨e', he', hid', hseller', hdigest'⟩ := hsound.responses x hx
  obtain rfl : e' = e := hsound.engagements.eq he' he (hid'.symm.trans hid)
  exact h.digest x hx ⟨hseller'.trans hseller.symm, hid.trans hof.symm, hdigest'.trans hdigest.symm⟩

theorem first_of_consentFree {c : MarketplaceConsent} (h : ConsentFree db c)
    (hsound : SoundMarket (marketOf db)) (he : e ∈ db.engagements) (hof : c.engagementId = e.id)
    (hdigest : c.inputDigest = e.inputDigest) :
    ∀ x ∈ db.consents, ¬ (x.engagementId = e.id ∧ x.party = c.party) := by
  rintro x hx ⟨hid, hparty⟩
  obtain ⟨e', he', hid', hdigest'⟩ := hsound.consents x hx
  obtain rfl : e' = e := hsound.engagements.eq he' he (hid'.symm.trans hid)
  exact h.digest x hx ⟨hid.trans hof.symm, hparty, hdigest'.trans hdigest.symm⟩

theorem consentFree_of_eq_nil (c : MarketplaceConsent) (h : db.consents = []) :
    ConsentFree db c := by
  constructor
  · rw [h]
    exact fun _ hx => absurd hx List.not_mem_nil
  · rw [h]
    exact fun _ hx => absurd hx List.not_mem_nil

theorem responseFree_of_eq_nil {r : SellerResponse} (hkind : r.response ∈ ["FIT", "ANTI_FIT",
    "NEEDS_INFO"]) (h : db.sellerResponses = []) (hprojections : db.sellerProjections = []) :
    ResponseFree db r := by
  refine ⟨?_, hkind, ?_, ?_⟩
  · rw [h]
    exact fun _ hx => absurd hx List.not_mem_nil
  · rw [h]
    exact fun _ hx => absurd hx List.not_mem_nil
  · rw [hprojections]
    exact fun _ hx => absurd hx List.not_mem_nil

theorem engagementOf_of_consent {party : ConsentParty} {organizationId ifMatch : String} {now : Int}
    (hsound : SoundMarket (marketOf db)) (he : e ∈ db.engagements)
    (hmay : MayConsent organizationId ifMatch party now e) :
    engagementOf organizationId e.id db = .ok e := by
  apply engagementOf_of_mem hsound.engagements he
  cases party with
  | buyer => exact .inl hmay.party.symm
  | seller => exact .inr hmay.party.symm

/-- A call leaves the file of a closed or expired engagement alone, unless it reopens one. -/
theorem fileOf_of_marketChange (hsound : SoundMarket (marketOf db)) (h : MarketChange rt t db m)
    (hguard : ¬ Renegotiates t db) (hcall : t.transaction.negotiates = true)
    (he : e ∈ db.engagements) (hover : Closed e ∨ e.expiresAt ≤ t.given.now) :
    fileOf e.id m = fileOf e.id (marketOf db) := by
  cases h with
  | closes hother =>
    rw [hother] at hcall
    cases hcall
  | opens hother =>
    rw [hother] at hcall
    cases hcall
  | introduces _ htransaction =>
    rw [htransaction] at hcall
    cases hcall
  | @responds x r _ _ _ _ _ hx htransaction hmay hr hfree =>
    by_cases hid : x.id = e.id
    · -- The response is to this engagement: its state lets it through, so the expiry stops it.
      obtain rfl : x = e := hsound.engagements.eq hx he hid
      rcases hover with hclosed | hexpired
      · have hopen := hmay.state
        unfold Closed at hclosed
        cases hstate : x.state <;> simp [hstate] at hopen hclosed
      · refine absurd (Renegotiates.responds hx htransaction hmay hexpired ?_) hguard
        apply first_of_responseFree hfree hsound hx
        · rw [hr]
          rfl
        · rw [hr]
          exact hmay.party.symm
        · rw [hr]
          rfl
    · have hof : r.engagementId ≠ e.id := by
        rw [hr]
        exact hid
      simp only [fileOf, EngagementFile.mk.injEq]
      exact ⟨filter_stateSet_of_ne hof .responded db.engagements,
        Table.filter_concat_of_not (decide_eq_false hof), trivial⟩
  | @consents x c _ _ _ _ _ hx htransaction hmay hc hfree =>
    by_cases hid : x.id = e.id
    · -- The consent is to this engagement: it has not expired, so its state stops it.
      obtain rfl : x = e := hsound.engagements.eq hx he hid
      rcases hover with hclosed | hexpired
      · refine absurd (Renegotiates.consents hx htransaction hmay hclosed ?_) hguard
        have hfirst := first_of_consentFree hfree hsound hx
        rw [hc] at hfirst
        exact hfirst rfl rfl
      · exact absurd hmay.live (not_lt.mpr hexpired)
    · have hof : c.engagementId ≠ e.id := by
        rw [hc]
        exact hid
      simp only [fileOf, EngagementFile.mk.injEq]
      exact ⟨filter_stateSet_of_ne hof .consentPending db.engagements, trivial,
        Table.filter_concat_of_not (decide_eq_false hof)⟩

theorem closed_of_marketChange (hsound : SoundMarket (marketOf db)) (h : MarketChange rt t db m)
    (hguard : ¬ Renegotiates t db) (he : e ∈ db.engagements)
    (hclosed : Closed e) : ∃ e' ∈ m.engagements, e'.id = e.id ∧ Closed e' := by
  by_cases hcall : t.transaction.negotiates = true
  · have hfile := fileOf_of_marketChange hsound h hguard hcall he (.inl hclosed)
    exact ⟨e, mem_of_fileOf_eq hfile he, rfl, hclosed⟩
  · cases h with
    | closes _ hcloses =>
      obtain ⟨close, rfl, hclose⟩ := hcloses
      refine ⟨close e, List.mem_map_of_mem he, ?_⟩
      rcases hclose e with heq | ⟨-, heq⟩
      · rw [heq]
        exact ⟨rfl, hclosed⟩
      · rw [heq]
        exact ⟨rfl, List.mem_cons_self⟩
    | opens => exact ⟨e, List.mem_append_left _ he, rfl, hclosed⟩
    | responds _ htransaction =>
      rw [htransaction] at hcall
      exact absurd rfl hcall
    | consents _ htransaction =>
      rw [htransaction] at hcall
      exact absurd rfl hcall
    | @introduces x _ _ _ _ i =>
      by_cases hid : e.id = i.engagementId
      · refine ⟨{ e with state := .introduced }, ?_, rfl, by simp [Closed]⟩
        exact Table.mem_update.mpr (.inl ⟨e, he, hid, rfl⟩)
      · exact ⟨e, Table.mem_update.mpr (.inr ⟨he, hid⟩), rfl, hclosed⟩

theorem id_of_engagementOrigin {e' : MarketplaceEngagement}
    (h : engagementOrigin e' = engagementOrigin e) : e'.id = e.id := by
  rw [eq_of_engagementOrigin h]

theorem expiresAt_of_engagementOrigin {e' : MarketplaceEngagement}
    (h : engagementOrigin e' = engagementOrigin e) : e'.expiresAt = e.expiresAt := by
  rw [eq_of_engagementOrigin h]

theorem origin_of_marketChange (h : MarketChange rt t db m)
    (he : e ∈ db.engagements) : ∃ e' ∈ m.engagements, engagementOrigin e' = engagementOrigin e := by
  cases h with
  | closes _ hcloses => exact hcloses.sameOrigins.exists_mem he
  | opens => exact ⟨e, List.mem_append_left _ he, rfl⟩
  | responds => exact (sameOrigins_stateSet _ _ _).exists_mem he
  | consents => exact (sameOrigins_stateSet _ _ _).exists_mem he
  | introduces => exact (sameOrigins_stateSet _ _ _).exists_mem he

end Steps

/-! ## Runs -/

section Runs

variable {rt : Runtime}

theorem marketChange_of_tablesAfter (rt : Runtime) (ts : List Submitted) (t : Submitted) :
    tablesAfter rt (ts ++ [t]) = tablesAfter rt ts ∨
      MarketChange rt t (tablesAfter rt ts) (marketOf (tablesAfter rt (ts ++ [t]))) := by
  cases hturn : qualify rt t (tablesAfter rt ts) with
  | error e => exact .inl (tablesAfter_of_error rt hturn)
  | ok r =>
    obtain ⟨o, next⟩ := r
    rw [tablesAfter_of_ok rt hturn]
    exact .inr (marketChange_of_qualify hturn)

/-- No call of a run reopens an engagement. -/
def NoReopening (rt : Runtime) (ts : List Submitted) : Prop :=
  ∀ before t later, ts = before ++ t :: later → ¬ Renegotiates t (tablesAfter rt before)

variable {ts : List Submitted} {e : MarketplaceEngagement} {ifMatch organizationId : String}
  {given : Given}

theorem NoReopening.of_append {later : List Submitted} (h : NoReopening rt (ts ++ later)) :
    NoReopening rt ts := by
  intro before t rest hts
  apply h before t (rest ++ later)
  rw [hts, List.append_assoc, List.cons_append]

theorem kept_of_noReopening {before middle : List Submitted}
    (hguard : NoReopening rt (before ++ middle)) (he : e ∈ (tablesAfter rt before).engagements) :
    ∃ e' ∈ (tablesAfter rt (before ++ middle)).engagements,
      engagementOrigin e' = engagementOrigin e ∧ (Closed e → Closed e') := by
  induction middle using List.reverseRecOn with
  | nil =>
    rw [List.append_nil]
    exact ⟨e, he, rfl, id⟩
  | append_singleton middle t ih =>
    rw [← List.append_assoc] at hguard ⊢
    obtain ⟨x, hx, horigin, hkept⟩ := ih hguard.of_append
    rcases marketChange_of_tablesAfter rt (before ++ middle) t with heq | hchange
    · rw [heq]
      exact ⟨x, hx, horigin, hkept⟩
    · have hsound := soundMarket_tablesAfter rt (before ++ middle)
      obtain ⟨y, hy, hyorigin⟩ := origin_of_marketChange hchange hx
      refine ⟨y, hy, hyorigin.trans horigin, fun hclosed => ?_⟩
      -- The closed row of the id is the row of the origin, for ids are distinct.
      obtain ⟨z, hz, hid, hzclosed⟩ := closed_of_marketChange hsound hchange
        (hguard _ t [] rfl) hx (hkept hclosed)
      have hyid : y.id = x.id := id_of_engagementOrigin hyorigin
      have hyz : y = z := (hsound.change hchange).engagements.eq hy hz (hyid.trans hid.symm)
      rw [hyz]
      exact hzclosed

theorem market_of_recordResponse (r : SellerResponse) (db : QualificationDb) :
    marketOf (recordResponse r db) = { marketOf db with
      engagements := stateSet r.engagementId .responded db.engagements
      sellerResponses := db.sellerResponses ++ [r]
      sellerProjections := db.sellerProjections ++ [⟨r.engagementId, r.organizationId⟩] } := by
  rw [recordResponse, (apart_of_addOutboxOnce _ _).market]
  rfl

theorem market_of_recordConsent (organizationId : String) (c : MarketplaceConsent)
    (db : QualificationDb) : marketOf (recordConsent organizationId c db) = { marketOf db with
      engagements := stateSet c.engagementId .consentPending db.engagements
      consents := db.consents ++ [c] } := by
  rw [recordConsent, (apart_of_addOutboxOnce _ _).market]
  rfl

theorem qualify_of_consent {engagementId actorId : String} {party : ConsentParty}
    {sharedFields : List (String × Value)} {c : MarketplaceConsent} {db db' : QualificationDb}
    (h : consent rt organizationId party engagementId actorId ifMatch sharedFields given db =
      .ok (c, db')) :
    qualify rt ⟨organizationId, .consent party engagementId actorId ifMatch sharedFields, given⟩
      db = .ok (.resource c.id, db') := by
  unfold qualify
  exact outcome_eq_ok.mpr ⟨c, h, rfl⟩

theorem qualify_of_respond {engagementId actorId response : String} {citedEvidenceIds : List String}
    {message : Option String} {r : SellerResponse} {db db' : QualificationDb}
    (h : respond organizationId engagementId actorId ifMatch response citedEvidenceIds message given
      db = .ok (r, db')) :
    qualify rt ⟨organizationId, .respond engagementId actorId ifMatch response citedEvidenceIds
      message, given⟩ db = .ok (.resource r.id, db') := by
  unfold qualify
  exact outcome_eq_ok.mpr ⟨r, h, rfl⟩

theorem mem_consents_of_mayConsent {party : ConsentParty} {approvedFieldsHash : String}
    {sharedFields : List (String × Value)} (he : e ∈ (tablesAfter rt ts).engagements)
    (actorId : String) (hmay : MayConsent organizationId ifMatch party given.now e)
    (hhash : contentDigest rt (.obj sharedFields) = .ok approvedFieldsHash)
    (hfree : ConsentFree (tablesAfter rt ts) (grantedOn party e actorId approvedFieldsHash given)) :
    grantedOn party e actorId approvedFieldsHash given ∈
      (tablesAfter rt (ts ++ [⟨organizationId, .consent party e.id actorId ifMatch sharedFields,
        given⟩])).consents := by
  have hfound := engagementOf_of_consent (soundMarket_tablesAfter rt ts) he hmay
  have hconsent := consent_eq_ok.mpr ⟨e, hfound, hmay, approvedFieldsHash, hhash, rfl, hfree, rfl⟩
  have hconsents := congrArg Market.consents (market_of_recordConsent organizationId
    (grantedOn party e actorId approvedFieldsHash given) (tablesAfter rt ts))
  rw [tablesAfter_of_ok rt (qualify_of_consent hconsent)]
  show _ ∈ (marketOf (recordConsent _ _ _)).consents
  rw [hconsents]
  exact List.mem_append_right _ List.mem_cons_self

theorem engagementOf_tablesAfter (he : e ∈ (tablesAfter rt ts).engagements)
    (hparty : e.buyerOrganizationId = organizationId ∨ e.sellerOrganizationId = organizationId) :
    engagementOf organizationId e.id (tablesAfter rt ts) = .ok e :=
  engagementOf_of_mem (soundMarket_tablesAfter rt ts).engagements he hparty

/-- A response that passes the checks, with its keys free, is recorded, and its engagement is
    then responded. -/
theorem mem_responses_of_mayRespond {response : String} {citedEvidenceIds : List String}
    (he : e ∈ (tablesAfter rt ts).engagements) (actorId : String) (message : Option String)
    (hmay : MayRespond (tablesAfter rt ts) organizationId ifMatch citedEvidenceIds e)
    (hfree : ResponseFree (tablesAfter rt ts)
      (sellerResponse organizationId e actorId response citedEvidenceIds message given)) :
    sellerResponse organizationId e actorId response citedEvidenceIds message given ∈
        (tablesAfter rt (ts ++ [⟨organizationId, .respond e.id actorId ifMatch response
          citedEvidenceIds message, given⟩])).sellerResponses ∧
      { e with state := .responded } ∈ (tablesAfter rt (ts ++ [⟨organizationId, .respond e.id
        actorId ifMatch response citedEvidenceIds message, given⟩])).engagements := by
  have hfound := engagementOf_tablesAfter he (.inr hmay.party)
  have hrespond := respond_eq_ok.mpr ⟨e, hfound, hmay, rfl, hfree, rfl⟩
  have hmarket := market_of_recordResponse
    (sellerResponse organizationId e actorId response citedEvidenceIds message given)
    (tablesAfter rt ts)
  rw [tablesAfter_of_ok rt (qualify_of_respond hrespond)]
  constructor
  · show _ ∈ (marketOf (recordResponse _ _)).sellerResponses
    rw [hmarket]
    exact List.mem_append_right _ List.mem_cons_self
  · show _ ∈ (marketOf (recordResponse _ _)).engagements
    rw [hmarket]
    exact Table.mem_update.mpr (.inl ⟨e, he, rfl, rfl⟩)

/-- In a run in which no call reopens an engagement, every call leaves a closed or expired
    engagement alone, with its responses and its consents. -/
theorem closed_engagements_stay_closed (rt : Runtime) (ts : List Submitted)
    (hguard : NoReopening rt ts) :
    ∀ before middle t later, ts = before ++ middle ++ t :: later →
      t.transaction.negotiates = true → ∀ e ∈ (tablesAfter rt before).engagements,
        Closed e ∨ e.expiresAt ≤ t.given.now →
          fileOf e.id (marketOf (tablesAfter rt (before ++ middle ++ [t]))) =
            fileOf e.id (marketOf (tablesAfter rt (before ++ middle))) := by
  intro before middle t later hts hcall e he hover
  have hstep := hguard (before ++ middle) t later hts
  rw [hts] at hguard
  obtain ⟨x, hx, horigin, hkept⟩ := kept_of_noReopening hguard.of_append he
  have hid : x.id = e.id := id_of_engagementOrigin horigin
  have hexpires : x.expiresAt = e.expiresAt := expiresAt_of_engagementOrigin horigin
  rcases marketChange_of_tablesAfter rt (before ++ middle) t with heq | hchange
  · rw [heq]
  · rw [← hid]
    apply fileOf_of_marketChange (soundMarket_tablesAfter rt _) hchange hstep hcall hx
    rw [hexpires]
    exact hover.imp_left hkept

open Sample

/-- A consent to an invalidated engagement is recorded. -/
theorem invalidated_engagement_reopens :
    { engagement with state := .invalidated } ∈ (tablesAfter .ascii invalidated).engagements ∧
      fileOf "meng_meng2" (marketOf (tablesAfter .ascii (invalidated ++ [agreed]))) ≠
        fileOf "meng_meng2" (marketOf (tablesAfter .ascii invalidated)) := by
  obtain ⟨-, ⟨hengagements, hconsents⟩, -⟩ := engagements_of_runs
  have hnone := List.eq_nil_of_length_eq_zero hconsents
  have he : { engagement with state := .invalidated } ∈
      (tablesAfter .ascii invalidated).engagements := by
    rw [hengagements]
    exact List.mem_singleton_self _
  have hmay : MayConsent "buyer" inputDigest .buyer (given 7).now
      { engagement with state := .invalidated } := ⟨rfl, verifyMatch_inputDigest, by decide⟩
  have hadded : grantedOn .buyer { engagement with state := .invalidated } "ann" nothingDigest
      (given 7) ∈ (tablesAfter .ascii (invalidated ++ [agreed])).consents :=
    mem_consents_of_mayConsent he "ann" hmay contentDigest_nothing (consentFree_of_eq_nil _ hnone)
  constructor
  · exact he
  · intro hfile
    have hmem := mem_consents_fileOf.mpr ⟨hadded, (rfl : _ = "meng_meng2")⟩
    rw [hfile] at hmem
    have hold := (mem_consents_fileOf.mp hmem).1
    rw [hnone] at hold
    exact absurd hold List.not_mem_nil

/-- An answer to an invalidated engagement leaves it alone. -/
theorem closed_engagements_stay_closed_sample :
    fileOf "meng_meng2" (marketOf (tablesAfter .ascii (invalidated ++ [answered]))) =
      fileOf "meng_meng2" (marketOf (tablesAfter .ascii invalidated)) := by
  obtain ⟨-, ⟨hengagements, -⟩, -⟩ := engagements_of_runs
  have he : { engagement with state := .invalidated } ∈
      (tablesAfter .ascii invalidated).engagements := by
    rw [hengagements]
    exact List.mem_singleton_self _
  have hno : ∀ x ∈ invalidated, x.transaction.negotiates = false := by decide
  have hguard : NoReopening .ascii (invalidated ++ [answered]) := by
    intro before t later hts hrenegotiates
    have hlast := Transactions.eq_of_last
      (p := fun (x : Submitted) => x.transaction.negotiates) hno hts
    cases hrenegotiates with
    | responds hx htransaction hmay =>
      obtain ⟨rfl, -⟩ := hlast (by rw [htransaction]; rfl)
      rw [hengagements] at hx
      have hopen := hmay.state
      rw [List.mem_singleton.mp hx] at hopen
      revert hopen
      decide
    | consents _ htransaction =>
      obtain ⟨-, rfl⟩ := hlast (by rw [htransaction]; rfl)
      cases htransaction
  have hkept := closed_engagements_stay_closed .ascii (invalidated ++ [answered]) hguard
    invalidated [] answered [] (by rw [List.append_nil]) rfl _ he (.inl List.mem_cons_self)
  rw [List.append_nil] at hkept
  exact hkept

/-! ## Calls that pass their checks -/

/-- A seller's first response is recorded when it passes the checks, and no other is. A party's
    first consent is, and no other. -/
theorem guarded_calls_return_iff (rt : Runtime) (ts : List Submitted) (organizationId : String)
    (given : Given) {e : MarketplaceEngagement} (he : e ∈ (tablesAfter rt ts).engagements) :
    (∀ actorId ifMatch response citedEvidenceIds message,
      MayRespond (tablesAfter rt ts) organizationId ifMatch citedEvidenceIds e →
      response ∈ ["FIT", "ANTI_FIT", "NEEDS_INFO"] →
      (∀ r ∈ (tablesAfter rt ts).sellerResponses, r.id ≠ "sresponse_" ++ given.uuid "sresponse") →
      ((∃ r db', respond organizationId e.id actorId ifMatch response citedEvidenceIds message given
          (tablesAfter rt ts) = .ok (r, db')) ↔
        ∀ r ∈ (tablesAfter rt ts).sellerResponses, r.engagementId ≠ e.id)) ∧
    (∀ party actorId ifMatch sharedFields approvedFieldsHash,
      MayConsent organizationId ifMatch party given.now e →
      contentDigest rt (.obj sharedFields) = .ok approvedFieldsHash →
      (∀ c ∈ (tablesAfter rt ts).consents, c.id ≠ "mconsent_" ++ given.uuid "mconsent") →
      ((∃ c db', consent rt organizationId party e.id actorId ifMatch sharedFields given
          (tablesAfter rt ts) = .ok (c, db')) ↔
        ∀ c ∈ (tablesAfter rt ts).consents, ¬ (c.engagementId = e.id ∧ c.party = party))) := by
  have hsound := soundMarket_tablesAfter rt ts
  constructor
  · intro actorId ifMatch response citedEvidenceIds message hmay hkind hfresh
    have hfound := engagementOf_of_mem hsound.engagements he (.inr hmay.party)
    constructor
    · rintro ⟨r, db', h⟩
      obtain ⟨x, hx, -, hr, hfree, -⟩ := respond_eq_ok.mp h
      obtain rfl : e = x := Except.ok.inj (hfound.symm.trans hx)
      rw [hr] at hfree
      exact first_of_responseFree hfree hsound he rfl hmay.party.symm rfl
    · intro hfirst
      refine ⟨_, _, respond_eq_ok.mpr ⟨e, hfound, hmay, rfl, ⟨hfresh, hkind, ?_, ?_⟩, rfl⟩⟩
      · exact fun r hr hkeys => hfirst r hr hkeys.2.1
      · intro p hp hof
        obtain ⟨r, hr, hrof⟩ := hsound.projections p hp
        exact hfirst r hr (hrof.trans hof)
  · intro party actorId ifMatch sharedFields approvedFieldsHash hmay hhash hfresh
    have hfound := engagementOf_of_consent hsound he hmay
    constructor
    · rintro ⟨c, db', h⟩
      obtain ⟨x, hx, -, _, -, hc, hfree, -⟩ := consent_eq_ok.mp h
      obtain rfl : e = x := Except.ok.inj (hfound.symm.trans hx)
      rw [hc] at hfree
      exact first_of_consentFree hfree hsound he rfl rfl
    · intro hfirst
      refine ⟨_, _, consent_eq_ok.mpr ⟨e, hfound, hmay, approvedFieldsHash, hhash, rfl,
        ⟨hfresh, ?_⟩, rfl⟩⟩
      exact fun c hc hkeys => hfirst c hc ⟨hkeys.1, hkeys.2.1⟩

end Runs

open Sample

/-- The seller may not revise its response, though the checks let it. -/
theorem second_response_raises :
    ∃ e ∈ (tablesAfter .ascii (Sample.approved ++ [answered])).engagements,
      MayRespond (tablesAfter .ascii (Sample.approved ++ [answered])) "seller" inputDigest [] e ∧
        e.state = .responded ∧
        ∀ r db', respond "seller" e.id "sue" inputDigest "ANTI_FIT" [] none (given 8)
          (tablesAfter .ascii (Sample.approved ++ [answered])) ≠ .ok (r, db') := by
  obtain ⟨⟨hengagements, hresponses, hprojections, -⟩, -⟩ := engagements_of_runs
  have he : engagement ∈ (tablesAfter .ascii Sample.approved).engagements := by
    rw [hengagements]
    exact List.mem_singleton_self _
  have hmay : MayRespond (tablesAfter .ascii Sample.approved) "seller" inputDigest [] engagement :=
    ⟨rfl, verifyMatch_inputDigest, by decide, rfl⟩
  have hfree := responseFree_of_eq_nil
    (r := sellerResponse "seller" engagement "sue" "FIT" [] none (given 7)) (by decide)
    (List.eq_nil_of_length_eq_zero hresponses) (List.eq_nil_of_length_eq_zero hprojections)
  obtain ⟨hfirst, hresponded⟩ := mem_responses_of_mayRespond he "sue" none hmay hfree
  refine ⟨_, hresponded, ⟨rfl, verifyMatch_inputDigest, by decide, rfl⟩, rfl, fun r db' h => ?_⟩
  obtain ⟨x, hx, -, hr, hfree', -⟩ := respond_eq_ok.mp h
  have hfound := engagementOf_tablesAfter hresponded (.inr (show _ = "seller" from rfl))
  obtain rfl := Except.ok.inj (hfound.symm.trans hx)
  rw [hr] at hfree'
  exact hfree'.digest _ hfirst ⟨rfl, rfl, rfl⟩

theorem guarded_calls_return_iff_sample :
    (∃ r db', respond "seller" "meng_meng2" "sue" inputDigest "FIT" [] none (given 7)
      (tablesAfter .ascii Sample.approved) = .ok (r, db')) ∧
    ∃ c db', consent .ascii "buyer" .buyer "meng_meng2" "ann" inputDigest [] (given 7)
      (tablesAfter .ascii Sample.approved) = .ok (c, db') := by
  obtain ⟨⟨hengagements, hresponses, -, hconsents⟩, -⟩ := engagements_of_runs
  have hunanswered := List.eq_nil_of_length_eq_zero hresponses
  have hunconsented := List.eq_nil_of_length_eq_zero hconsents
  have he : engagement ∈ (tablesAfter .ascii Sample.approved).engagements := by
    rw [hengagements]
    exact List.mem_singleton_self _
  constructor
  · have hcall := (guarded_calls_return_iff .ascii Sample.approved "seller" (given 7) he).1 "sue"
      inputDigest "FIT" [] none ⟨rfl, verifyMatch_inputDigest, by decide, rfl⟩ (by decide)
    rw [hunanswered] at hcall
    exact (hcall fun _ h => absurd h List.not_mem_nil).mpr fun _ h => absurd h List.not_mem_nil
  · have hcall := (guarded_calls_return_iff .ascii Sample.approved "buyer" (given 7) he).2 .buyer "ann"
      inputDigest [] _ ⟨rfl, verifyMatch_inputDigest, by decide⟩ contentDigest_nothing
    rw [hunconsented] at hcall
    exact (hcall fun _ h => absurd h List.not_mem_nil).mpr fun _ h => absurd h List.not_mem_nil

end SiraWorker
