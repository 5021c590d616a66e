-- SUMMARY: An engagement is introduced once, on consents that match, and on bundles that are still active as long as invalidations keep up with activations.
import SiraSeil.SiraWorker.BundleInvalidation
import SiraSeil.SiraWorker.EngagementRuns

/-!
# Introductions

An introduction discloses what both parties agreed to share. Activations, approvals, consents,
invalidations and introductions of any tenants come in any order.
-/

namespace SiraWorker

open Domain Persistence

/-! ## Consents -/

/-- A consent that a party granted to an engagement and that has not expired. -/
structure Grants (now : Int) (party : ConsentParty) (e : MarketplaceEngagement)
    (c : MarketplaceConsent) : Prop where
  engagement : c.engagementId = e.id
  digest : c.inputDigest = e.inputDigest
  party : c.party = party
  state : c.state = .granted
  live : now < c.expiresAt

/-- An introduction rests on its current and approved decision, on its engagement, which has not
    expired, and on consents of both parties to the fields in its receipt. -/
structure Consented (rt : Runtime) (organizationId : String) (now : Int) (db : QualificationDb)
    (i : QualifiedIntroduction) : Prop where
  decision : ∃ d ∈ db.decisions, d.organizationId = organizationId ∧ d.id = i.decisionId ∧
    d.inputDigest = i.inputDigest ∧ d.current = true ∧ d.approvalState = .approved
  consents : ∃ e ∈ db.engagements, e.id = i.engagementId ∧ e.decisionId = i.decisionId ∧
    e.inputDigest = i.inputDigest ∧ now < e.expiresAt ∧
    ∃ buyer ∈ db.consents, Grants now .buyer e buyer ∧
      ∃ seller ∈ db.consents, Grants now .seller e seller ∧ buyer.actorId ≠ seller.actorId ∧
        ∃ sharedFields, i.receipt.lookup "shared_fields" = some (.obj sharedFields) ∧
          contentDigest rt (.obj sharedFields) = .ok buyer.approvedFieldsHash ∧
          contentDigest rt (.obj sharedFields) = .ok seller.approvedFieldsHash

theorem grants_of_grantedConsent {db : QualificationDb} {now : Int} {party : ConsentParty}
    {e : MarketplaceEngagement} {c : MarketplaceConsent}
    (h : grantedConsent e.id e.inputDigest now party db = some c) :
    c ∈ db.consents ∧ Grants now party e c := by
  obtain ⟨hc, hid, hdigest, hstate, hlive, hparty⟩ := grantedConsent_eq_some h
  exact ⟨hc, hid, hdigest, hparty, hstate, hlive⟩

/-- After any transactions an engagement has one introduction at most, and one effect. What the
    next transaction introduces rests on matching consents of two people. -/
theorem introduced_once_with_consents (rt : Runtime) (ts : List Submitted) :
    (Table.Keyed (·.engagementId) (tablesAfter rt ts).introductions ∧
      Table.Keyed effectEngagement (tablesAfter rt ts).effects) ∧
      ∀ t, ∀ i ∈ (tablesAfter rt (ts ++ [t])).introductions, i ∈ (tablesAfter rt ts).introductions ∨
        Consented rt t.organizationId t.given.now (tablesAfter rt ts) i := by
  have hsound := soundMarket_tablesAfter rt ts
  refine ⟨⟨hsound.introductions, ?_⟩, fun t i hi => ?_⟩
  · have heffects : (tablesAfter rt ts).effects.map effectEngagement =
        ((tablesAfter rt ts).introductions.map (·.engagementId)).map some := by
      rw [List.map_map]
      exact hsound.effects
    unfold Table.Keyed
    rw [heffects]
    exact hsound.introductions.map (Option.some_injective String)
  · by_cases hnew : i ∈ (tablesAfter rt ts).introductions
    · exact .inl hnew
    · right
      obtain ⟨e, he, ifMatch, sharedFields, sharedFieldsHash, buyer, seller, -, hhash, hmay, rfl⟩ :=
        introduces_of_tablesAfter hi hnew
      obtain ⟨hbuyer, hbuyerGrants⟩ := grants_of_grantedConsent hmay.byBuyer
      obtain ⟨hseller, hsellerGrants⟩ := grants_of_grantedConsent hmay.bySeller
      refine ⟨hmay.decision, e, he, rfl, rfl, rfl, hmay.live, buyer, hbuyer, hbuyerGrants, seller,
        hseller, hsellerGrants, hmay.actors, sharedFields, rfl, ?_, ?_⟩
      · rw [hmay.buyerFields]
        exact hhash
      · rw [hmay.sellerFields]
        exact hhash

/-! ## Decisions over active bundles -/

/-- A decision, while it is current, depends on the active bundle of a product only. -/
def OnActive (organizationId decisionId productId : String) (db : QualificationDb) : Prop :=
  ∀ d ∈ db.decisions, d.organizationId = organizationId → d.id = decisionId → d.current = true →
    ∀ x ∈ SiraApi.productDependencies organizationId decisionId db,
      x.snapshot.identifier = productId → x.snapshot.IsActive db

/-- No decision becomes current, and what decisions recorded stays the same. -/
structure Idle (db db' : QualificationDb) : Prop where
  decisions : ∀ d ∈ db'.decisions, d.current = true →
    ∃ d₀ ∈ db.decisions, d₀.id = d.id ∧ d₀.organizationId = d.organizationId ∧ d₀.current = true
  dependencies : db'.decisionDependencies = db.decisionDependencies

theorem Idle.of_eq {db db' : QualificationDb} (hdecisions : db'.decisions = db.decisions)
    (hdependencies : db'.decisionDependencies = db.decisionDependencies) : Idle db db' where
  decisions := by
    intro d hd hcurrent
    rw [hdecisions] at hd
    exact ⟨d, hd, rfl, rfl, hcurrent⟩
  dependencies := hdependencies

theorem Idle.of_kernel {db db' : QualificationDb} (h : db'.kernel = db.kernel) : Idle db db' :=
  .of_eq (congrArg Kernel.decisions h) (congrArg Kernel.decisionDependencies h)

theorem Idle.onActive {organizationId decisionId productId : String} {db db' : QualificationDb}
    (h : Idle db db') (hbefore : OnActive organizationId decisionId productId db)
    (hkept : ∀ p ∈ db.activeBundles, p.productId = productId → p ∈ db'.activeBundles) :
    OnActive organizationId decisionId productId db' := by
  intro d hd horg hid hcurrent x hx hproduct
  obtain ⟨d₀, hd₀, hid₀, horg₀, hcurrent₀⟩ := h.decisions d hd hcurrent
  unfold SiraApi.productDependencies at hx
  rw [h.dependencies] at hx
  obtain ⟨p, hp, hkeys⟩ := hbefore d₀ hd₀ (horg₀.trans horg) (hid₀.trans hid) hcurrent₀ x hx hproduct
  exact ⟨p, hkept p hp (hkeys.2.1.trans hproduct), hkeys⟩

section Transactions

variable {rt : Runtime} {organizationId : String} {db db' : QualificationDb} {given : Given}

theorem idle_of_prepareAttempt {missionId id : String} {candidates : List VectorCandidate}
    (h : prepareAttempt organizationId missionId candidates given db = .ok (id, db')) :
    Idle db db' := by
  obtain ⟨mission, -, a, chosen, hchoose, pinned, hpin, hannounce, -⟩ :=
    prepareAttempt_eq_ok.mp h
  obtain ⟨events, hevents⟩ :=
    announceAttempt_eq_ok organizationId mission.id a.id (runningMission mission.id pinned)
  rw [hannounce] at hevents
  cases hevents
  rcases chooseAttempt_eq_ok.mp hchoose with ⟨-, rfl⟩ | ⟨-, -, -, rfl⟩
  · rcases pinCandidates_eq_ok.mp hpin with ⟨-, rfl⟩ | ⟨-, -, rfl⟩
    · exact .of_eq rfl rfl
    · exact .of_eq rfl rfl
  · rcases pinCandidates_eq_ok.mp hpin with ⟨-, rfl⟩ | ⟨-, -, rfl⟩
    · exact .of_eq rfl rfl
    · exact .of_eq rfl rfl

theorem idle_of_snapshotAttempt {lease : AttemptLease} {ds : List DependencySnapshot}
    (h : snapshotAttempt rt organizationId lease given db = .ok (ds, db')) : Idle db db' := by
  obtain ⟨a, digest, -, -, -, ⟨-, -, rfl⟩ | ⟨-, -, -, rfl⟩⟩ := snapshotAttempt_eq_ok.mp h
  · exact .of_eq rfl rfl
  · exact .of_eq rfl rfl

theorem idle_of_invalidate {productId : String} {result : BundleInvalidationResult}
    (h : invalidateDecisionsForActiveBundle organizationId productId given db =
      .ok (result, db')) : Idle db db' := by
  obtain ⟨hretires, -⟩ := retires_of_rounds h
  exact ⟨fun d hd hcurrent => ⟨d, hretires.decisions d hd hcurrent, rfl, rfl, hcurrent⟩,
    hretires.dependencies⟩

theorem idle_of_judgeDecision (decisionId : String) (approvalState : ApprovalState)
    (db : QualificationDb) : Idle db (SiraApi.judgeDecision decisionId approvalState db) where
  decisions := by
    intro d hd hcurrent
    rcases Table.mem_update.mp hd with ⟨d₀, hd₀, -, rfl⟩ | ⟨hd, -⟩
    · exact ⟨d₀, hd₀, rfl, rfl, hcurrent⟩
    · exact ⟨d, hd, rfl, rfl, hcurrent⟩
  dependencies := rfl

theorem idle_of_decideApproval {decisionId actorId ifMatch reason id : String}
    {action : SiraApi.ApprovalAction}
    (h : SiraApi.decideApproval organizationId decisionId actorId ifMatch reason action given db =
      .ok (id, db')) : Idle db db' := by
  obtain ⟨d, -, -, -, -, -, mission, -, judged, event, rfl, hjudged⟩ :=
    SiraApi.decideApproval_eq_ok h
  have hadded := kernel_of_addOutboxOnce event judged
  have hidle : Idle db judged := by
    rcases hjudged with ⟨-, rfl⟩ | ⟨-, happrove⟩
    · have hjudge := idle_of_judgeDecision d.id .rejected db
      exact ⟨hjudge.decisions, hjudge.dependencies⟩
    · obtain ⟨-, bundle, -, e, -, -, -, rfl⟩ := SiraApi.approveDecision_eq_ok.mp happrove
      have hjudge := idle_of_judgeDecision e.decisionId .approved db
      exact ⟨hjudge.decisions, hjudge.dependencies⟩
  have hdecisions : (SiraApi.addOutboxOnce event judged).decisions = judged.decisions :=
    congrArg Kernel.decisions hadded
  have hdependencies : (SiraApi.addOutboxOnce event judged).decisionDependencies =
      judged.decisionDependencies := congrArg Kernel.decisionDependencies hadded
  refine ⟨fun d hd hcurrent => hidle.decisions d ?_ hcurrent, hdependencies.trans hidle.dependencies⟩
  rw [← hdecisions]
  exact hd

/-- A finalization leaves the current decisions as they are, or adds one over bundles that are
    all active. -/
theorem onActive_of_finalizeAttempt {lease : AttemptLease} {recommendedProductId : String}
    {payload : List (String × Value)} {citedDependencyIds : List String}
    {result : FinalizationResult} {buyer decisionId productId : String}
    (hsound : db.kernel.Sound rt)
    (h : finalizeAttempt rt organizationId lease recommendedProductId payload citedDependencyIds
      given db = .ok (result, db')) (hbefore : OnActive buyer decisionId productId db) :
    OnActive buyer decisionId productId db' := by
  obtain ⟨a, hfenced, hcases⟩ := finalizeAttempt_eq_ok.mp h
  obtain ⟨-, horg, -⟩ := mem_of_fencedAttempt hfenced
  rcases hcases with ⟨-, hstale⟩ | ⟨hactive, -, -, inputDigest, -, hcompleted⟩
  · obtain ⟨b, replaced, hreplace, houtbox, -⟩ := (finalizeStale_eq_ok horg).mp hstale
    obtain ⟨-, rfl⟩ := addOutbox_eq_ok.mp houtbox
    rcases (replacementFor_eq_ok horg).mp hreplace with ⟨-, rfl⟩ | ⟨-, -, -, -, rfl⟩
    · exact hbefore
    · exact hbefore
  · obtain ⟨decisionDigest, -, d, hd, decided, hdecide, houtbox, -⟩ :=
      (finalizeCompleted_eq_ok horg).mp hcompleted
    have hdorg : d.organizationId = organizationId := by
      rw [hd]
      exact horg
    obtain ⟨hfree, rfl⟩ := (addDecision_eq_ok hdorg).mp hdecide
    obtain ⟨-, rfl⟩ := addOutbox_eq_ok.mp houtbox
    rw [changedProductBundles_eq_nil] at hactive
    intro e he heorg heid hcurrent x hx hproduct
    obtain ⟨hx, hkeys⟩ := List.mem_filter.mp hx
    simp only [decide_eq_true_eq] at hkeys
    rcases List.mem_append.mp hx with hx | hx
    · -- A row that was there belongs to a decision that was there.
      obtain ⟨e₀, he₀, -, hxid⟩ := hsound.recorded x hx
      have hold : e ∈ db.decisions := by
        rcases List.mem_append.mp he with he | he
        · exact he
        · refine absurd ?_ (hfree.id e₀ he₀)
          rw [← hxid, hkeys.2.1, ← heid, List.mem_singleton.mp he]
      refine hbefore e hold heorg heid hcurrent x ?_ hproduct
      exact List.mem_filter.mpr ⟨hx, by simpa using hkeys⟩
    · obtain ⟨y, hy, rfl⟩ := List.mem_map.mp hx
      exact hactive y hy hkeys.2.2

/-- A transaction that keeps the pointer of a product keeps a decision on its active bundle. -/
theorem onActive_of_qualify {t : Submitted} {o : Outcome} {buyer decisionId productId : String}
    (hsound : db.kernel.Sound rt) (h : qualify rt t db = .ok (o, db'))
    (hkept : ∀ p ∈ db.activeBundles, p.productId = productId → p ∈ db'.activeBundles)
    (hbefore : OnActive buyer decisionId productId db) : OnActive buyer decisionId productId db' := by
  have hidle : Idle db db' → OnActive buyer decisionId productId db' :=
    fun hidle => hidle.onActive hbefore hkept
  obtain ⟨organizationId, transaction, given⟩ := t
  unfold qualify at h
  cases transaction
  case createMission =>
    obtain ⟨_, h, -⟩ := outcome_eq_ok.mp h
    exact hidle (.of_kernel (kernel_of_createMission h))
  case storeBundle =>
    obtain ⟨_, h, -⟩ := outcome_eq_ok.mp h
    exact hidle (.of_kernel (kernel_of_storeBundle h))
  case activateBundle =>
    obtain ⟨_, h, -⟩ := outcome_eq_ok.mp h
    exact hidle (.of_kernel (kernel_of_activateBundle h))
  case prepareAttempt =>
    obtain ⟨_, h, -⟩ := outcome_eq_ok.mp h
    exact hidle (idle_of_prepareAttempt h)
  case claimAttempt =>
    obtain ⟨_, h, -⟩ := outcome_eq_ok.mp h
    obtain ⟨-, a, -, -, -, -, -, rfl⟩ := claimAttempt_eq_ok.mp h
    exact hidle (.of_eq rfl rfl)
  case snapshotAttempt =>
    obtain ⟨_, h, -⟩ := outcome_eq_ok.mp h
    exact hidle (idle_of_snapshotAttempt h)
  case checkpointAttempt =>
    obtain ⟨_, h, -⟩ := outcome_eq_ok.mp h
    obtain ⟨a, -, -, -, -, rfl⟩ := checkpointAttempt_eq_ok.mp h
    exact hidle (.of_eq rfl rfl)
  case finalizeAttempt =>
    obtain ⟨_, h, -⟩ := outcome_eq_ok.mp h
    exact onActive_of_finalizeAttempt hsound h hbefore
  case claimAndSnapshot =>
    obtain ⟨_, h, -⟩ := outcome_eq_ok.mp h
    obtain ⟨claimed, hclaim, ds, hsnapshot⟩ := claimAndSnapshot_eq_ok.mp h
    have hsnapshotted := idle_of_snapshotAttempt hsnapshot
    obtain ⟨-, a, -, -, -, -, -, rfl⟩ := claimAttempt_eq_ok.mp hclaim
    exact hidle ⟨hsnapshotted.decisions, hsnapshotted.dependencies⟩
  case finalizeEvaluation =>
    obtain ⟨_, h, -⟩ := outcome_eq_ok.mp h
    obtain ⟨finalized, hfinalize, ⟨-, -, -, rfl⟩ | ⟨-, -, -, a, -, mission, -, rfl⟩⟩ :=
      finalizeEvaluation_eq_ok.mp h
    · exact onActive_of_finalizeAttempt hsound hfinalize hbefore
    · have hfinalized := onActive_of_finalizeAttempt hsound hfinalize hbefore
      exact hfinalized
  case invalidate =>
    obtain ⟨_, h, -⟩ := outcome_eq_ok.mp h
    exact hidle (idle_of_invalidate h)
  case decideApproval =>
    obtain ⟨_, h, -⟩ := outcome_eq_ok.mp h
    exact hidle (idle_of_decideApproval h)
  case respond =>
    obtain ⟨_, h, -⟩ := outcome_eq_ok.mp h
    exact hidle (.of_kernel (kernel_of_respond h))
  case consent =>
    obtain ⟨_, h, -⟩ := outcome_eq_ok.mp h
    exact hidle (.of_kernel (kernel_of_consent h))
  case introduce =>
    obtain ⟨_, h, -⟩ := outcome_eq_ok.mp h
    exact hidle (.of_kernel (kernel_of_serviceIntroduce h))
  case recordReceipt =>
    obtain ⟨_, h, -⟩ := outcome_eq_ok.mp h
    exact hidle (.of_kernel (kernel_of_recordReceipt h))

end Transactions

/-! ## Invalidations that keep up -/

/-- Since a decision was made, the pointer of a product has not moved, or the product has been
    invalidated in the tenant after it last moved. -/
inductive Settled (rt : Runtime) (organizationId decisionId productId : String) :
    List Submitted → Prop
  | undecided {ts : List Submitted} (h : ∀ d ∈ (tablesAfter rt ts).decisions, d.id ≠ decisionId) :
      Settled rt organizationId decisionId productId ts
  | invalidated {ts : List Submitted} {given : Given} {result : BundleInvalidationResult}
      {next : QualificationDb} (h : invalidateDecisionsForActiveBundle organizationId productId given
        (tablesAfter rt ts) = .ok (result, next)) :
      Settled rt organizationId decisionId productId
        (ts ++ [⟨organizationId, .invalidate productId, given⟩])
  | kept {ts : List Submitted} {t : Submitted}
      (h : Settled rt organizationId decisionId productId ts)
      (hkept : ∀ p ∈ (tablesAfter rt ts).activeBundles, p.productId = productId →
        p ∈ (tablesAfter rt (ts ++ [t])).activeBundles) :
      Settled rt organizationId decisionId productId (ts ++ [t])

theorem Settled.onActive {rt : Runtime} {organizationId decisionId productId : String}
    {ts : List Submitted} (h : Settled rt organizationId decisionId productId ts) :
    OnActive organizationId decisionId productId (tablesAfter rt ts) := by
  induction h with
  | undecided h => exact fun d hd _ hid => absurd hid (h d hd)
  | @invalidated ts given result next h =>
    have hturn : qualify rt ⟨organizationId, .invalidate productId, given⟩ (tablesAfter rt ts) =
        .ok (.invalidated result, next) := outcome_eq_ok.mpr ⟨result, h, rfl⟩
    rw [tablesAfter_of_ok rt hturn]
    intro d hd horg hid hcurrent x hx hproduct
    obtain ⟨hx, hkeys⟩ := List.mem_filter.mp hx
    simp only [decide_eq_true_eq] at hkeys
    exact noStale_of_invalidate h d hd horg hcurrent x hx (hkeys.1.trans horg.symm)
      (hkeys.2.1.trans hid.symm) hkeys.2.2 hproduct
  | @kept ts t _ hkept ih =>
    cases hturn : qualify rt t (tablesAfter rt ts) with
    | error e =>
      rw [tablesAfter_of_error rt hturn]
      exact ih
    | ok r =>
      obtain ⟨o, next⟩ := r
      rw [tablesAfter_of_ok rt hturn] at hkept ⊢
      exact onActive_of_qualify (sound_tablesAfter rt ts) hturn hkept ih

/-- Every introduction of a run finds the products of its decision settled. -/
def KeepsUp (rt : Runtime) (ts : List Submitted) : Prop :=
  ∀ before t later, ts = before ++ t :: later →
    ∀ engagementId ifMatch sharedFields, t.transaction = .introduce engagementId ifMatch sharedFields →
      ∀ e ∈ (tablesAfter rt before).engagements, e.id = engagementId →
        ∀ x ∈ SiraApi.productDependencies t.organizationId e.decisionId (tablesAfter rt before),
          Settled rt t.organizationId e.decisionId x.snapshot.identifier before

/-- Where invalidations keep up with activations, what is introduced rests on bundles that are all
    still active, with the digests that its decision recorded. -/
theorem introduced_on_active_bundles (rt : Runtime) (ts : List Submitted) (hkeeps : KeepsUp rt ts) :
    ∀ before t later, ts = before ++ t :: later →
      ∀ i ∈ (tablesAfter rt (before ++ [t])).introductions,
        i ∉ (tablesAfter rt before).introductions →
          ∀ x ∈ SiraApi.productDependencies t.organizationId i.decisionId (tablesAfter rt before),
            x.snapshot.IsActive (tablesAfter rt before) := by
  intro before t later hts i hi hnew x hx
  obtain ⟨e, he, ifMatch, sharedFields, sharedFieldsHash, buyer, seller, htransaction, -, hmay, rfl⟩ :=
    introduces_of_tablesAfter hi hnew
  obtain ⟨d, hd, horg, hid, -, hcurrent, -⟩ := hmay.decision
  have hsettled := hkeeps before t later hts e.id ifMatch sharedFields htransaction e he rfl x hx
  exact hsettled.onActive d hd horg hid hcurrent x hx rfl

open Sample

/-- An introduction between an activation and its invalidation rests on a bundle that is not
    active any more. -/
theorem introduced_on_superseded_bundle :
    ∃ i ∈ (tablesAfter .ascii (superseded ++ [introduction])).introductions,
      i ∉ (tablesAfter .ascii superseded).introductions ∧
        ∃ x ∈ SiraApi.productDependencies "buyer" i.decisionId (tablesAfter .ascii superseded),
          ¬ x.snapshot.IsActive (tablesAfter .ascii superseded) := by
  obtain ⟨-, -, hintroduced, hnone, -⟩ := engagements_of_runs
  obtain ⟨i, hi, hany⟩ := List.any_eq_true.mp hintroduced
  obtain ⟨x, hx, hinactive⟩ := List.any_eq_true.mp hany
  refine ⟨i, hi, ?_, x, hx, of_decide_eq_true hinactive⟩
  rw [List.eq_nil_of_length_eq_zero hnone]
  exact List.not_mem_nil

theorem Settled.append {rt : Runtime} {organizationId decisionId productId : String}
    {ts later : List Submitted} (h : Settled rt organizationId decisionId productId ts)
    (hlater : ∀ t ∈ later, t.transaction.publishes = false) :
    Settled rt organizationId decisionId productId (ts ++ later) := by
  induction later generalizing ts with
  | nil => simpa using h
  | cons t later ih =>
    rw [List.append_cons]
    refine ih (h.kept (fun p hp _ => ?_)) (fun x hx => hlater x (List.mem_cons_of_mem t hx))
    cases hturn : qualify rt t (tablesAfter rt ts) with
    | error e =>
      rw [tablesAfter_of_error rt hturn]
      exact hp
    | ok r =>
      obtain ⟨o, next⟩ := r
      have hpointers : next.activeBundles = (tablesAfter rt ts).activeBundles :=
        congrArg Catalog.pointers (catalog_of_qualify (hlater t List.mem_cons_self) hturn)
      rw [tablesAfter_of_ok rt hturn, hpointers]
      exact hp

/-- The transactions that introduce. -/
def Transaction.introduces : Transaction → Bool
  | .introduce .. => true
  | _ => false

theorem introduced_on_active_bundles_sample :
    ∃ i ∈ (tablesAfter .ascii (Sample.approved ++ consenting ++ [introduction])).introductions,
      ∀ x ∈ SiraApi.productDependencies "buyer" i.decisionId
          (tablesAfter .ascii (Sample.approved ++ consenting)),
        x.snapshot.IsActive (tablesAfter .ascii (Sample.approved ++ consenting)) := by
  obtain ⟨-, -, -, -, hone, hbefore, hundecided⟩ := engagements_of_runs
  have hno : ∀ x ∈ Sample.approved ++ consenting, x.transaction.introduces = false := by decide
  have hkeeps : KeepsUp .ascii (Sample.approved ++ consenting ++ [introduction]) := by
    intro before t later hts engagementId ifMatch sharedFields ht e _ _ x _
    obtain ⟨rfl, rfl⟩ := Transactions.eq_of_last
      (p := fun x => x.transaction.introduces) hno hts (by rw [ht]; rfl)
    have hbegins : Settled .ascii introduction.organizationId e.decisionId x.snapshot.identifier
        evaluating := by
      apply Settled.undecided
      rw [List.eq_nil_of_length_eq_zero hundecided]
      exact fun d hd => absurd hd List.not_mem_nil
    have hagreed := hbegins.append (show ∀ t ∈ approving ++ consenting, _ from by decide)
    rw [← List.append_assoc] at hagreed
    exact hagreed
  obtain ⟨i, hi⟩ := List.exists_mem_of_length_pos (Nat.lt_of_lt_of_eq Nat.one_pos hone.symm)
  refine ⟨i, hi, introduced_on_active_bundles .ascii _ hkeeps _ introduction [] rfl i hi ?_⟩
  rw [List.eq_nil_of_length_eq_zero hbefore]
  exact List.not_mem_nil

end SiraWorker
