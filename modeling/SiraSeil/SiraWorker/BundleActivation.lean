-- SUMMARY: The areas of the tables that each transaction leaves alone, and that after every run each product has one active bundle, the one that its pointer has.
import SiraSeil.Persistence.ActiveBundles
import SiraSeil.SiraApi.ServiceOperations
import SiraSeil.SiraWorker.QualificationRuns

/-!
# Bundle activation

Sellers publish and activate bundles while buyers, sellers and workers go on with everything
else. What the others do leaves the catalog alone, so that the pointers, the states and the
digests of bundles agree after every run.
-/

namespace SiraWorker

open Domain Persistence Raising

/-! ## Areas of the tables -/

/-- The tables of engagements. -/
structure Market where
  engagements : List MarketplaceEngagement
  buyerProjections : List EngagementProjection
  sellerProjections : List EngagementProjection
  sellerResponses : List SellerResponse
  consents : List MarketplaceConsent
  introductions : List QualifiedIntroduction
  effects : List QualificationEffect

/-- The engagements with all that belongs to them. -/
def marketOf (db : QualificationDb) : Market :=
  ⟨db.engagements, db.buyerProjections, db.sellerProjections, db.sellerResponses, db.consents,
    db.introductions, db.effects⟩

/-- The catalog and the engagements are the same. -/
structure Apart (db db' : QualificationDb) : Prop where
  catalog : db'.catalog = db.catalog
  market : marketOf db' = marketOf db

theorem Apart.refl (db : QualificationDb) : Apart db db :=
  ⟨rfl, rfl⟩

theorem Apart.trans {db db' db'' : QualificationDb} (h : Apart db db') (h' : Apart db' db'') :
    Apart db db'' :=
  ⟨h'.catalog.trans h.catalog, h'.market.trans h.market⟩

section Areas

variable {rt : Runtime} {organizationId : String} {db db' : QualificationDb} {given : Given}

theorem apart_of_addOutbox {event : OutboxEvent} (h : addOutbox event db = .ok db') :
    Apart db db' := by
  obtain ⟨-, rfl⟩ := addOutbox_eq_ok.mp h
  exact ⟨rfl, rfl⟩

theorem apart_of_addOutboxOnce (event : OutboxEvent) (db : QualificationDb) :
    Apart db (SiraApi.addOutboxOnce event db) := by
  unfold SiraApi.addOutboxOnce
  split
  · exact Apart.refl db
  · exact ⟨rfl, rfl⟩

variable {lease : AttemptLease} {id productId : String} {u : Unit}

theorem apart_of_claimAttempt {attemptId leaseOwner : String} {leaseSeconds : Int}
    (h : claimAttempt organizationId attemptId leaseOwner leaseSeconds given db =
      .ok (lease, db')) : Apart db db' := by
  obtain ⟨-, a, -, -, -, -, -, rfl⟩ := claimAttempt_eq_ok.mp h
  exact ⟨rfl, rfl⟩

theorem apart_of_checkpointAttempt {sequence : Nat} {kind : String}
    {payload : List (String × Value)} {checkpoint : AttemptCheckpoint}
    (h : checkpointAttempt organizationId lease sequence kind payload given db =
      .ok (checkpoint, db')) : Apart db db' := by
  obtain ⟨a, -, -, -, -, rfl⟩ := checkpointAttempt_eq_ok.mp h
  exact ⟨rfl, rfl⟩

theorem apart_of_snapshotAttempt {ds : List DependencySnapshot}
    (h : snapshotAttempt rt organizationId lease given db = .ok (ds, db')) : Apart db db' := by
  obtain ⟨a, digest, -, -, -, ⟨-, -, rfl⟩ | ⟨-, -, -, rfl⟩⟩ := snapshotAttempt_eq_ok.mp h
  · exact Apart.refl db'
  · exact ⟨rfl, rfl⟩

theorem apart_of_replacementFor {a b : QualificationAttempt}
    (horg : a.organizationId = organizationId)
    (h : replacementFor organizationId a given db = .ok (b, db')) : Apart db db' := by
  rcases (replacementFor_eq_ok horg).mp h with ⟨-, rfl⟩ | ⟨-, -, -, -, rfl⟩
  · exact Apart.refl db'
  · exact ⟨rfl, rfl⟩

theorem apart_of_finalizeAttempt {recommendedProductId : String} {payload : List (String × Value)}
    {citedDependencyIds : List String} {result : FinalizationResult}
    (h : finalizeAttempt rt organizationId lease recommendedProductId payload citedDependencyIds
      given db = .ok (result, db')) : Apart db db' := by
  obtain ⟨a, hfenced, hcases⟩ := finalizeAttempt_eq_ok.mp h
  obtain ⟨-, horg, -⟩ := mem_of_fencedAttempt hfenced
  rcases hcases with ⟨-, hstale⟩ | ⟨-, -, -, inputDigest, -, hcompleted⟩
  · obtain ⟨b, replaced, hreplace, houtbox, -⟩ := (finalizeStale_eq_ok horg).mp hstale
    have hreplaced := (apart_of_replacementFor horg hreplace).trans (apart_of_addOutbox houtbox)
    exact ⟨hreplaced.catalog, hreplaced.market⟩
  · obtain ⟨decisionDigest, -, d, hd, decided, hdecide, houtbox, -⟩ :=
      (finalizeCompleted_eq_ok horg).mp hcompleted
    have hdorg : d.organizationId = organizationId := by
      rw [hd]
      exact horg
    obtain ⟨-, rfl⟩ := (addDecision_eq_ok hdorg).mp hdecide
    have hadded := apart_of_addOutbox houtbox
    exact ⟨hadded.catalog, hadded.market⟩

theorem apart_of_prepareAttempt {missionId : String} {candidates : List VectorCandidate}
    (h : prepareAttempt organizationId missionId candidates given db = .ok (id, db')) :
    Apart db db' := by
  obtain ⟨mission, -, a, chosen, hchoose, pinned, hpin, hannounce, -⟩ :=
    prepareAttempt_eq_ok.mp h
  have hchosen : Apart db chosen := by
    rcases chooseAttempt_eq_ok.mp hchoose with ⟨-, rfl⟩ | ⟨-, -, -, rfl⟩
    · exact Apart.refl chosen
    · exact ⟨rfl, rfl⟩
  have hpinned : Apart chosen pinned := by
    rcases pinCandidates_eq_ok.mp hpin with ⟨-, rfl⟩ | ⟨-, -, rfl⟩
    · exact Apart.refl pinned
    · exact ⟨rfl, rfl⟩
  obtain ⟨events, hevents⟩ :=
    announceAttempt_eq_ok organizationId mission.id a.id (runningMission mission.id pinned)
  rw [hannounce] at hevents
  cases hevents
  exact (hchosen.trans hpinned).trans ⟨rfl, rfl⟩

theorem apart_of_claimAndSnapshot {leaseOwner attemptId : String}
    (h : claimAndSnapshot organizationId rt leaseOwner attemptId given db = .ok (lease, db')) :
    Apart db db' := by
  obtain ⟨claimed, hclaim, ds, hsnapshot⟩ := claimAndSnapshot_eq_ok.mp h
  exact (apart_of_claimAttempt hclaim).trans (apart_of_snapshotAttempt hsnapshot)

theorem apart_of_finalizeEvaluation {decision : QualificationAgentDecision}
    {result : FinalizationResult}
    (h : finalizeEvaluation organizationId rt lease decision given db = .ok (result, db')) :
    Apart db db' := by
  obtain ⟨finalized, hfinalize, ⟨-, -, -, rfl⟩ | ⟨-, -, -, a, -, mission, -, rfl⟩⟩ :=
    finalizeEvaluation_eq_ok.mp h
  · exact apart_of_finalizeAttempt hfinalize
  · exact (apart_of_finalizeAttempt hfinalize).trans ⟨rfl, rfl⟩

theorem apart_of_createMission {body : SiraApi.MissionBody}
    (h : SiraApi.createMission rt organizationId body given db = .ok (id, db')) : Apart db db' := by
  obtain ⟨mission, event, -, -, -, -, rfl⟩ := SiraApi.createMission_eq_ok h
  have hadded := apart_of_addOutboxOnce event { db with missions := db.missions ++ [mission] }
  exact ⟨hadded.catalog, hadded.market⟩

theorem recordReceipt_eq_ok {envelope : QualificationEnvelope} {resultRef : String}
    (h : recordReceipt envelope resultRef db = .ok (u, db')) :
    ∃ receipts, db' = { db with receipts := db.receipts ++ receipts } := by
  unfold recordReceipt at h
  split at h
  · split at h
    · cases h
    · cases h
      exact ⟨[], by rw [List.append_nil]⟩
  · obtain ⟨_, -, h⟩ := bind_eq_ok.mp h
    cases h
    exact ⟨_, rfl⟩

/-! ### The catalog -/

theorem catalog_of_invalidateDecision {row : QualificationDecision × DecisionDependency}
    {result result' : BundleInvalidationResult}
    (h : invalidateDecision organizationId productId given row (result, db) = .ok (result', db')) :
    db'.catalog = db.catalog := by
  rcases invalidateDecision_eq_ok.mp h with ⟨-, -, rfl⟩ |
    ⟨-, ⟨-, rfl, -⟩ | ⟨active, replacement, -, hreopen, -⟩⟩
  · rfl
  · rfl
  · rcases reopenMission_eq_ok.mp hreopen with ⟨-, -, rfl⟩ | ⟨a, mission, hopen, b, replaced,
      hreplace, houtbox, -⟩
    · rfl
    · obtain ⟨-, horg, -⟩ := QualificationDb.attempt?_eq_some (mem_of_openMission hopen).1
      exact (apart_of_addOutbox houtbox).catalog.trans
        (apart_of_replacementFor horg hreplace).catalog

theorem catalog_of_invalidate {result : BundleInvalidationResult}
    (h : invalidateDecisionsForActiveBundle organizationId productId given db =
      .ok (result, db')) : db'.catalog = db.catalog := by
  refine foldlM_related
    (R := fun (done done' : BundleInvalidationResult × QualificationDb) =>
      done'.2.catalog = done.2.catalog) ?_ ?_ ?_ h
  · exact fun _ => rfl
  · exact fun _ _ _ hfirst hlater => hlater.trans hfirst
  · exact fun _ _ _ _ hround => catalog_of_invalidateDecision hround

theorem catalog_of_decideApproval {decisionId actorId ifMatch reason : String}
    {action : SiraApi.ApprovalAction}
    (h : SiraApi.decideApproval organizationId decisionId actorId ifMatch reason action given db =
      .ok (id, db')) : db'.catalog = db.catalog := by
  obtain ⟨d, -, -, -, -, -, mission, -, judged, event, rfl, hjudged⟩ :=
    SiraApi.decideApproval_eq_ok h
  rw [(apart_of_addOutboxOnce event judged).catalog]
  rcases hjudged with ⟨-, rfl⟩ | ⟨-, happrove⟩
  · rfl
  · obtain ⟨-, bundle, -, e, -, -, -, rfl⟩ := SiraApi.approveDecision_eq_ok.mp happrove
    rfl

theorem catalog_of_introduce {engagementId ifMatch : String}
    {sharedFields : List (String × Value)} {i : QualifiedIntroduction}
    (h : SiraApi.introduce rt organizationId engagementId ifMatch sharedFields given db =
      .ok (i, db')) : db'.catalog = db.catalog := by
  obtain ⟨e, introduced, -, hintroduce, mission, -, rfl⟩ := SiraApi.introduce_eq_ok h
  obtain ⟨hash, -, e', -, -, -, -, -, ⟨-, -, -, -, rfl⟩ | ⟨buyer, seller, -, -, -, hadd⟩⟩ :=
    Persistence.introduce_eq_ok hintroduce
  · rfl
  · exact (apart_of_addOutbox hadd).catalog

theorem tables_of_storeBundle {bundleId digest : String}
    {members : List (MemberKind × String × String)}
    (h : storeBundle organizationId bundleId productId digest members db = .ok (u, db')) :
    ∃ bundles members, db' = { db with
      bundles := bundles
      members := members } := by
  unfold storeBundle at h
  obtain ⟨_, -, h⟩ := bind_eq_ok.mp h
  obtain ⟨_, -, h⟩ := bind_eq_ok.mp h
  cases h
  exact ⟨_, _, rfl⟩

theorem change_of_storeBundle {bundleId digest : String}
    {members : List (MemberKind × String × String)}
    (h : storeBundle organizationId bundleId productId digest members db = .ok (u, db')) :
    Catalog.Change rt db.catalog db'.catalog := by
  unfold storeBundle at h
  obtain ⟨_, hfree, h⟩ := bind_eq_ok.mp h
  obtain ⟨_, -, h⟩ := bind_eq_ok.mp h
  cases h
  rw [constrain_eq_ok, List.any_eq_false] at hfree
  simp only [decide_eq_true_eq] at hfree
  refine Catalog.Change.stores (b := ⟨bundleId, organizationId, productId, digest, .ready⟩) hfree
    nofun (fun m hm => ?_)
  obtain ⟨x, -, rfl⟩ := List.mem_map.mp hm
  rfl

/-- What sellers do to the catalog. -/
def Transaction.publishes : Transaction → Bool
  | .storeBundle .. => true
  | .activateBundle .. => true
  | _ => false

theorem catalog_of_qualify {t : Submitted} {o : Outcome} (ht : t.transaction.publishes = false)
    (h : qualify rt t db = .ok (o, db')) : db'.catalog = db.catalog := by
  obtain ⟨organizationId, transaction, given⟩ := t
  unfold qualify at h
  cases transaction
  case createMission =>
    obtain ⟨_, h, -⟩ := outcome_eq_ok.mp h
    exact (apart_of_createMission h).catalog
  case storeBundle => cases ht
  case activateBundle => cases ht
  case prepareAttempt =>
    obtain ⟨_, h, -⟩ := outcome_eq_ok.mp h
    exact (apart_of_prepareAttempt h).catalog
  case claimAttempt =>
    obtain ⟨_, h, -⟩ := outcome_eq_ok.mp h
    exact (apart_of_claimAttempt h).catalog
  case snapshotAttempt =>
    obtain ⟨_, h, -⟩ := outcome_eq_ok.mp h
    exact (apart_of_snapshotAttempt h).catalog
  case checkpointAttempt =>
    obtain ⟨_, h, -⟩ := outcome_eq_ok.mp h
    exact (apart_of_checkpointAttempt h).catalog
  case finalizeAttempt =>
    obtain ⟨_, h, -⟩ := outcome_eq_ok.mp h
    exact (apart_of_finalizeAttempt h).catalog
  case claimAndSnapshot =>
    obtain ⟨_, h, -⟩ := outcome_eq_ok.mp h
    exact (apart_of_claimAndSnapshot h).catalog
  case finalizeEvaluation =>
    obtain ⟨_, h, -⟩ := outcome_eq_ok.mp h
    exact (apart_of_finalizeEvaluation h).catalog
  case invalidate =>
    obtain ⟨_, h, -⟩ := outcome_eq_ok.mp h
    exact catalog_of_invalidate h
  case decideApproval =>
    obtain ⟨_, h, -⟩ := outcome_eq_ok.mp h
    exact catalog_of_decideApproval h
  case respond =>
    obtain ⟨_, h, -⟩ := outcome_eq_ok.mp h
    obtain ⟨e, -, -, -, -, rfl⟩ := SiraApi.respond_eq_ok.mp h
    exact (apart_of_addOutboxOnce _ _).catalog
  case consent =>
    obtain ⟨_, h, -⟩ := outcome_eq_ok.mp h
    obtain ⟨e, -, -, hash, -, -, -, rfl⟩ := SiraApi.consent_eq_ok.mp h
    exact (apart_of_addOutboxOnce _ _).catalog
  case introduce =>
    obtain ⟨_, h, -⟩ := outcome_eq_ok.mp h
    exact catalog_of_introduce h
  case recordReceipt =>
    obtain ⟨_, h, -⟩ := outcome_eq_ok.mp h
    obtain ⟨receipts, rfl⟩ := recordReceipt_eq_ok h
    rfl

theorem change_of_qualify {t : Submitted} {o : Outcome} (hsound : db.catalog.Sound rt)
    (h : qualify rt t db = .ok (o, db')) : Catalog.Change rt db.catalog db'.catalog := by
  cases ht : t.transaction.publishes with
  | false =>
    rw [catalog_of_qualify ht h]
    exact .stays
  | true =>
    obtain ⟨organizationId, transaction, given⟩ := t
    unfold qualify at h
    cases transaction
    case storeBundle =>
      obtain ⟨_, h, -⟩ := outcome_eq_ok.mp h
      exact change_of_storeBundle h
    case activateBundle =>
      obtain ⟨_, h, -⟩ := outcome_eq_ok.mp h
      exact change_of_activateBundle hsound h
    all_goals cases ht

end Areas

/-! ## Runs -/

/-- The product of a pointer has one active bundle, which is the one that the pointer has, and
    the digest of both is that of its members in their order. -/
def OneActive (rt : Runtime) (db : QualificationDb) (p : ActiveProductBundle) : Prop :=
  ∃ b, db.bundles.filter (fun x => x.productId = p.productId ∧ x.state = .active) = [b] ∧
    p.Targets b ∧
    membershipDigest rt (db.membersOf b.organizationId b.id) = .ok p.bundleDigest

section Runs

variable (rt : Runtime)

theorem catalog_tablesAfter (ts : List Submitted) : (tablesAfter rt ts).catalog.Sound rt :=
  Transactions.run_induction (I := fun (db : QualificationDb) => db.catalog.Sound rt)
    (fun _ _ _ _ hsound h => hsound.change (change_of_qualify hsound h)) Catalog.sound_empty ts

theorem catalog_advances (ts later : List Submitted) :
    Catalog.Advances (tablesAfter rt ts).catalog (tablesAfter rt (ts ++ later)).catalog := by
  unfold tablesAfter
  rw [Transactions.run_append]
  apply Transactions.run_related (I := fun (db : QualificationDb) => db.catalog.Sound rt)
    (R := fun (db db' : QualificationDb) => Catalog.Advances db.catalog db'.catalog)
  · exact fun _ => Catalog.Advances.refl _
  · exact fun _ _ _ => Catalog.Advances.trans
  · exact fun _ _ _ _ hsound h => ⟨hsound.change (change_of_qualify hsound h),
      hsound.advances (change_of_qualify hsound h)⟩
  · exact catalog_tablesAfter rt ts

theorem oneActive_of_sound {db : QualificationDb} (hsound : db.catalog.Sound rt)
    {p : ActiveProductBundle} (hp : p ∈ db.activeBundles) : OneActive rt db p := by
  obtain ⟨b, hb, htarget, hactive⟩ := hsound.target p hp
  refine ⟨b, ?_, htarget, ?_⟩
  · apply hsound.bundles.filter_eq_singleton hb
    · simp [htarget.2.2.1, hactive]
    · intro x hx hselected
      simp only [decide_eq_true_eq] at hselected
      obtain ⟨q, hq, hqtarget⟩ := hsound.pointed x hx hselected.2
      -- Two pointers of one product are one pointer.
      obtain rfl := hsound.pointers.eq hq hp (hqtarget.2.2.1.symm.trans hselected.1)
      exact hsound.eq_of_targets hx hb hqtarget htarget
  · have hdigest := hsound.digests b hb hactive
    rw [htarget.2.2.2] at hdigest
    exact hdigest

/-- After any transactions each pointer has the one active bundle of its product. What comes
    later moves it only in a new generation and never back to what was superseded, and a
    transaction that raises changes nothing. -/
theorem one_active_bundle (ts : List Submitted) :
    (∀ p ∈ (tablesAfter rt ts).activeBundles, OneActive rt (tablesAfter rt ts) p) ∧
      (∀ later, Catalog.Advances (tablesAfter rt ts).catalog
        (tablesAfter rt (ts ++ later)).catalog) ∧
      ∀ t e, qualify rt t (tablesAfter rt ts) = .error e →
        tablesAfter rt (ts ++ [t]) = tablesAfter rt ts :=
  ⟨fun _ hp => oneActive_of_sound rt (catalog_tablesAfter rt ts) hp,
    fun later => catalog_advances rt ts later, fun _ _ h => tablesAfter_of_error rt h⟩

end Runs

end SiraWorker
