-- SUMMARY: Runs of all transactions of qualification, by workers, sellers and buyers in any order, and that the kernel is sound in every state they reach.
import SiraSeil.Library.Transactions
import SiraSeil.SiraApi.QualificationService
import SiraSeil.SiraWorker.WorkerOperations

/-!
# Runs of qualification

A transaction is submitted to a tenant, with the database time and the identifiers that it
draws. Serializable transactions run one after the other: a run is a list of them, whoever
submitted each, and a crash of a process is the absence of those that it would still have
submitted.
-/

namespace SiraWorker

open Domain Persistence Raising

/-! ## Publishing -/

/-- A publisher stores a bundle with its members, in their order, before it is activated. -/
def storeBundle (organizationId bundleId productId digest : String)
    (members : List (MemberKind × String × String)) (db : QualificationDb) :
    Qualified (Unit × QualificationDb) := do
  constrain (db.bundles.any (fun b => b.id = bundleId)) "qualification_product_bundles_pkey"
  constrain (!decide (members.map (fun m => (m.1, m.2.1))).Nodup) "uq_qualification_bundle_member"
  return ((), { db with
    bundles := db.bundles ++ [⟨bundleId, organizationId, productId, digest, .ready⟩]
    members := db.members ++ members.zipIdx.map (fun m =>
      ⟨organizationId, bundleId, m.2, m.1.1, m.1.2.1, m.1.2.2⟩) })

/-! ## Transactions -/

inductive Transaction
  | createMission (body : SiraApi.MissionBody)
  | storeBundle (bundleId productId digest : String)
      (members : List (MemberKind × String × String))
  | activateBundle (bundleId actorId expectedDigest : String)
  | prepareAttempt (missionId : String) (candidates : List VectorCandidate)
  | claimAttempt (attemptId leaseOwner : String) (leaseSeconds : Int)
  | snapshotAttempt (lease : AttemptLease)
  | checkpointAttempt (lease : AttemptLease) (sequence : Nat) (kind : String)
      (payload : List (String × Value))
  | finalizeAttempt (lease : AttemptLease) (recommendedProductId : String)
      (payload : List (String × Value)) (citedDependencyIds : List String)
  | claimAndSnapshot (leaseOwner attemptId : String)
  | finalizeEvaluation (lease : AttemptLease) (decision : QualificationAgentDecision)
  | invalidate (productId : String)
  | decideApproval (decisionId actorId ifMatch reason : String) (action : SiraApi.ApprovalAction)
  | respond (engagementId actorId ifMatch response : String) (citedEvidenceIds : List String)
      (message : Option String)
  | consent (party : ConsentParty) (engagementId actorId ifMatch : String)
      (sharedFields : List (String × Value))
  | introduce (engagementId ifMatch : String) (sharedFields : List (String × Value))
  | recordReceipt (envelope : QualificationEnvelope) (resultRef : String)

/-- What a transaction returns. -/
inductive Outcome
  | done
  | attempt (attemptId : String)
  | lease (lease : AttemptLease)
  | dependencies (dependencies : List DependencySnapshot)
  | checkpoint (checkpoint : AttemptCheckpoint)
  | finalized (result : FinalizationResult)
  | invalidated (result : BundleInvalidationResult)
  | resource (id : String)

/-- A transaction in a tenant, with what it is given. -/
structure Submitted where
  organizationId : String
  transaction : Transaction
  given : Given

/-- A result under an outcome. -/
def outcome {α : Type} (f : α → Outcome) (result : Qualified (α × QualificationDb)) :
    Qualified (Outcome × QualificationDb) :=
  result.map (fun r => (f r.1, r.2))

theorem outcome_eq_ok {α : Type} {f : α → Outcome} {result : Qualified (α × QualificationDb)}
    {o : Outcome} {db : QualificationDb} :
    outcome f result = .ok (o, db) ↔ ∃ a, result = .ok (a, db) ∧ f a = o := by
  cases result with
  | error e => simp [outcome, Except.map]
  | ok r =>
    obtain ⟨a, db'⟩ := r
    simp only [outcome, Except.map, Except.ok.injEq, Prod.mk.injEq]
    constructor
    · rintro ⟨rfl, rfl⟩
      exact ⟨a, ⟨rfl, rfl⟩, rfl⟩
    · rintro ⟨b, ⟨rfl, rfl⟩, rfl⟩
      exact ⟨rfl, rfl⟩

/-- A transaction of qualification. -/
def qualify (rt : Runtime) (t : Submitted) (db : QualificationDb) :
    Qualified (Outcome × QualificationDb) :=
  let organizationId := t.organizationId
  let given := t.given
  match t.transaction with
  | .createMission body =>
    outcome .resource (SiraApi.createMission rt organizationId body given db)
  | .storeBundle bundleId productId digest members =>
    outcome (fun _ => .done) (storeBundle organizationId bundleId productId digest members db)
  | .activateBundle bundleId actorId expectedDigest =>
    outcome (fun b => .resource b.id)
      (Persistence.activateBundle rt organizationId bundleId actorId expectedDigest db)
  | .prepareAttempt missionId candidates =>
    outcome .attempt (prepareAttempt organizationId missionId candidates given db)
  | .claimAttempt attemptId leaseOwner leaseSeconds =>
    outcome .lease (Persistence.claimAttempt organizationId attemptId leaseOwner leaseSeconds given
      db)
  | .snapshotAttempt lease =>
    outcome .dependencies (Persistence.snapshotAttempt rt organizationId lease given db)
  | .checkpointAttempt lease sequence kind payload =>
    outcome .checkpoint
      (Persistence.checkpointAttempt organizationId lease sequence kind payload given db)
  | .finalizeAttempt lease recommendedProductId payload citedDependencyIds =>
    outcome .finalized (Persistence.finalizeAttempt rt organizationId lease recommendedProductId
      payload citedDependencyIds given db)
  | .claimAndSnapshot leaseOwner attemptId =>
    outcome .lease (claimAndSnapshot organizationId rt leaseOwner attemptId given db)
  | .finalizeEvaluation lease decision =>
    outcome .finalized (finalizeEvaluation organizationId rt lease decision given db)
  | .invalidate productId =>
    outcome .invalidated (invalidateDecisionsForActiveBundle organizationId productId given db)
  | .decideApproval decisionId actorId ifMatch reason action =>
    outcome .resource
      (SiraApi.decideApproval organizationId decisionId actorId ifMatch reason action given db)
  | .respond engagementId actorId ifMatch response citedEvidenceIds message =>
    outcome (fun r => .resource r.id) (SiraApi.respond organizationId engagementId actorId ifMatch
      response citedEvidenceIds message given db)
  | .consent party engagementId actorId ifMatch sharedFields =>
    outcome (fun c => .resource c.id) (SiraApi.consent rt organizationId party engagementId actorId
      ifMatch sharedFields given db)
  | .introduce engagementId ifMatch sharedFields =>
    outcome (fun i => .resource i.id)
      (SiraApi.introduce rt organizationId engagementId ifMatch sharedFields given db)
  | .recordReceipt envelope resultRef =>
    outcome (fun _ => .done) (recordReceipt envelope resultRef db)

/-! ## Transactions as moves -/

section Moves

variable {rt : Runtime} {organizationId : String} {db db' : QualificationDb} {given : Given}

variable {actorId decisionId engagementId id ifMatch : String}
  {sharedFields : List (String × Value)} {i : QualifiedIntroduction}

/-- The first attempt of a mission is the only row of the kernel that a preparation adds. -/
theorem moves_of_prepareAttempt {missionId : String} {candidates : List VectorCandidate}
    (h : prepareAttempt organizationId missionId candidates given db = .ok (id, db')) :
    Kernel.Moves rt db.kernel db'.kernel := by
  obtain ⟨mission, -, a, chosen, hchoose, pinned, hpin, hannounce, -⟩ :=
    prepareAttempt_eq_ok.mp h
  have hchosen : Kernel.Moves rt db.kernel chosen.kernel := by
    rcases chooseAttempt_eq_ok.mp hchoose with ⟨-, rfl⟩ | ⟨-, hfresh, rfl, rfl⟩
    · exact .refl
    · refine .single (.begins (k := db.kernel) (a := firstAttempt organizationId missionId given)
        hfresh rfl rfl rfl rfl (.inl ⟨rfl, rfl⟩) (fun _ _ _ hsome => ?_))
      simp [firstAttempt] at hsome
  have hpinned : pinned.kernel = chosen.kernel := by
    rcases pinCandidates_eq_ok.mp hpin with ⟨-, rfl⟩ | ⟨-, -, rfl⟩
    · rfl
    · rfl
  have hannounced : db'.kernel = pinned.kernel := by
    obtain ⟨events, hevents⟩ :=
      announceAttempt_eq_ok organizationId mission.id a.id (runningMission mission.id pinned)
    rw [hannounce] at hevents
    cases hevents
    rfl
  rw [hannounced, hpinned]
  exact hchosen

theorem moves_of_claimAndSnapshot {leaseOwner attemptId : String} {lease : AttemptLease}
    (h : claimAndSnapshot organizationId rt leaseOwner attemptId given db = .ok (lease, db')) :
    Kernel.Moves rt db.kernel db'.kernel := by
  obtain ⟨claimed, hclaim, ds, hsnapshot⟩ := claimAndSnapshot_eq_ok.mp h
  exact (moves_of_claimAttempt hclaim).trans (moves_of_snapshotAttempt hsnapshot)

theorem moves_of_finalizeEvaluation {lease : AttemptLease}
    {decision : QualificationAgentDecision} {result : FinalizationResult}
    (hsound : db.kernel.Sound rt)
    (h : finalizeEvaluation organizationId rt lease decision given db = .ok (result, db')) :
    Kernel.Moves rt db.kernel db'.kernel := by
  obtain ⟨finalized, hfinalize, hended⟩ := finalizeEvaluation_eq_ok.mp h
  have hmoves := moves_of_finalizeAttempt hsound hfinalize
  rcases hended with ⟨-, -, -, rfl⟩ | ⟨-, -, -, a, -, mission, -, rfl⟩
  · exact hmoves
  · exact hmoves

theorem kernel_of_addOutboxOnce (event : OutboxEvent) (db : QualificationDb) :
    (SiraApi.addOutboxOnce event db).kernel = db.kernel := by
  unfold SiraApi.addOutboxOnce
  split
  · rfl
  · rfl

theorem kernel_of_createMission {body : SiraApi.MissionBody}
    (h : SiraApi.createMission rt organizationId body given db = .ok (id, db')) :
    db'.kernel = db.kernel := by
  unfold SiraApi.createMission at h
  obtain ⟨_, -, h⟩ := bind_eq_ok.mp h
  obtain ⟨_, -, h⟩ := bind_eq_ok.mp h
  obtain ⟨_, -, h⟩ := bind_eq_ok.mp h
  obtain ⟨_, -, h⟩ := bind_eq_ok.mp h
  cases h
  exact kernel_of_addOutboxOnce _ _

theorem kernel_of_storeBundle {bundleId productId digest : String}
    {members : List (MemberKind × String × String)} {u : Unit}
    (h : storeBundle organizationId bundleId productId digest members db = .ok (u, db')) :
    db'.kernel = db.kernel := by
  unfold storeBundle at h
  obtain ⟨_, -, h⟩ := bind_eq_ok.mp h
  obtain ⟨_, -, h⟩ := bind_eq_ok.mp h
  cases h
  rfl

theorem kernel_of_pointTo {bundle : ProductBundle}
    (h : pointTo organizationId bundle db = .ok db') : db'.kernel = db.kernel := by
  unfold pointTo at h
  split at h
  · obtain ⟨_, -, h⟩ := bind_eq_ok.mp h
    cases h
    rfl
  · split at h
    · cases h
      rfl
    · cases h
      rfl

theorem kernel_of_activateBundle {bundleId expectedDigest : String} {b : ProductBundle}
    (h : Persistence.activateBundle rt organizationId bundleId actorId expectedDigest db =
      .ok (b, db')) : db'.kernel = db.kernel := by
  unfold Persistence.activateBundle at h
  split at h
  · cases h
  · obtain ⟨-, h⟩ := unless_throw_eq_ok.mp h
    obtain ⟨-, h⟩ := unless_throw_eq_ok.mp h
    obtain ⟨computedDigest, -, h⟩ := bind_eq_ok.mp h
    obtain ⟨-, h⟩ := unless_throw_eq_ok.mp h
    obtain ⟨pointed, hpoint, h⟩ := bind_eq_ok.mp h
    obtain ⟨added, hadd, h⟩ := bind_eq_ok.mp h
    cases h
    have hpointed := kernel_of_pointTo hpoint
    rw [kernel_of_addOutbox hadd]
    exact hpointed

theorem moves_of_judgeDecision (decisionId : String) (approvalState : ApprovalState) :
    Kernel.Moves rt db.kernel (SiraApi.judgeDecision decisionId approvalState db).kernel :=
  .single (.marks (k := db.kernel) (fun _ => rfl) (fun _ => id))

theorem moves_of_approveDecision {decision : QualificationDecision} {mission : QualificationMission}
    (h : SiraApi.approveDecision organizationId decision mission given db = .ok (id, db')) :
    Kernel.Moves rt db.kernel db'.kernel := by
  unfold SiraApi.approveDecision at h
  obtain ⟨-, h⟩ := unless_throw_eq_ok.mp h
  obtain ⟨-, h⟩ := unless_throw_eq_ok.mp h
  split at h
  · cases h
  · obtain ⟨_, -, h⟩ := bind_eq_ok.mp h
    obtain ⟨_, -, h⟩ := bind_eq_ok.mp h
    obtain ⟨_, -, h⟩ := bind_eq_ok.mp h
    obtain ⟨_, -, h⟩ := bind_eq_ok.mp h
    cases h
    exact moves_of_judgeDecision decision.id .approved

theorem moves_of_decideApproval {reason : String} {action : SiraApi.ApprovalAction}
    (h : SiraApi.decideApproval organizationId decisionId actorId ifMatch reason action given db =
      .ok (id, db')) : Kernel.Moves rt db.kernel db'.kernel := by
  unfold SiraApi.decideApproval at h
  split at h
  · cases h
  · next decision hdecision =>
    obtain ⟨_, -, h⟩ := bind_eq_ok.mp h
    obtain ⟨-, h⟩ := unless_throw_eq_ok.mp h
    split at h
    · cases h
    · next mission hmission =>
      dsimp only at h
      cases action with
      | reject =>
        cases h
        rw [kernel_of_addOutboxOnce]
        exact moves_of_judgeDecision decision.id .rejected
      | approve =>
        obtain ⟨⟨resourceId, judged⟩, hjudge, h⟩ := bind_eq_ok.mp h
        cases h
        rw [kernel_of_addOutboxOnce]
        exact moves_of_approveDecision hjudge

theorem kernel_of_respond {response : String} {citedEvidenceIds : List String}
    {message : Option String} {r : SellerResponse}
    (h : SiraApi.respond organizationId engagementId actorId ifMatch response citedEvidenceIds
      message given db = .ok (r, db')) : db'.kernel = db.kernel := by
  unfold SiraApi.respond at h
  obtain ⟨engagement, -, h⟩ := bind_eq_ok.mp h
  obtain ⟨-, h⟩ := unless_throw_eq_ok.mp h
  obtain ⟨_, -, h⟩ := bind_eq_ok.mp h
  obtain ⟨-, h⟩ := unless_throw_eq_ok.mp h
  obtain ⟨_, -, h⟩ := bind_eq_ok.mp h
  obtain ⟨_, -, h⟩ := bind_eq_ok.mp h
  obtain ⟨_, -, h⟩ := bind_eq_ok.mp h
  obtain ⟨_, -, h⟩ := bind_eq_ok.mp h
  obtain ⟨_, -, h⟩ := bind_eq_ok.mp h
  cases h
  exact kernel_of_addOutboxOnce _ _

theorem kernel_of_consent {party : ConsentParty} {c : MarketplaceConsent}
    (h : SiraApi.consent rt organizationId party engagementId actorId ifMatch sharedFields given
      db = .ok (c, db')) : db'.kernel = db.kernel := by
  unfold SiraApi.consent at h
  obtain ⟨engagement, -, h⟩ := bind_eq_ok.mp h
  obtain ⟨-, h⟩ := unless_throw_eq_ok.mp h
  obtain ⟨_, -, h⟩ := bind_eq_ok.mp h
  obtain ⟨-, h⟩ := unless_throw_eq_ok.mp h
  obtain ⟨_, -, h⟩ := bind_eq_ok.mp h
  obtain ⟨_, -, h⟩ := bind_eq_ok.mp h
  obtain ⟨_, -, h⟩ := bind_eq_ok.mp h
  cases h
  exact kernel_of_addOutboxOnce _ _

theorem kernel_of_createIntroduction {engagement : MarketplaceEngagement}
    {inputDigest sharedFieldsHash : String} {buyer seller : MarketplaceConsent}
    (h : createIntroduction organizationId engagement decisionId inputDigest sharedFields
      sharedFieldsHash buyer seller given db = .ok (i, db')) : db'.kernel = db.kernel := by
  unfold createIntroduction at h
  obtain ⟨_, -, h⟩ := bind_eq_ok.mp h
  obtain ⟨_, -, h⟩ := bind_eq_ok.mp h
  obtain ⟨_, -, h⟩ := bind_eq_ok.mp h
  obtain ⟨added, hadd, h⟩ := bind_eq_ok.mp h
  cases h
  rw [kernel_of_addOutbox hadd]
  rfl

theorem kernel_of_introduce {inputDigest : String}
    (h : Persistence.introduce rt organizationId engagementId decisionId inputDigest sharedFields
      given db = .ok (i, db')) : db'.kernel = db.kernel := by
  unfold Persistence.introduce at h
  obtain ⟨sharedFieldsHash, -, h⟩ := bind_eq_ok.mp h
  split at h
  · cases h
  · split at h
    · -- The introduction is there already.
      split at h
      · cases h
      · cases h
        rfl
    · obtain ⟨-, h⟩ := unless_throw_eq_ok.mp h
      obtain ⟨-, h⟩ := unless_throw_eq_ok.mp h
      split at h
      · obtain ⟨-, h⟩ := unless_throw_eq_ok.mp h
        obtain ⟨-, h⟩ := unless_throw_eq_ok.mp h
        exact kernel_of_createIntroduction h
      · cases h

theorem kernel_of_serviceIntroduce
    (h : SiraApi.introduce rt organizationId engagementId ifMatch sharedFields given db =
      .ok (i, db')) : db'.kernel = db.kernel := by
  unfold SiraApi.introduce at h
  obtain ⟨engagement, -, h⟩ := bind_eq_ok.mp h
  obtain ⟨-, h⟩ := unless_throw_eq_ok.mp h
  obtain ⟨_, -, h⟩ := bind_eq_ok.mp h
  obtain ⟨⟨introduction, introduced⟩, hintroduce, h⟩ := bind_eq_ok.mp h
  dsimp only at h
  split at h
  · cases h
  · have hintroduced := kernel_of_introduce hintroduce
    cases h
    exact hintroduced

theorem kernel_of_recordReceipt {envelope : QualificationEnvelope} {resultRef : String} {u : Unit}
    (h : recordReceipt envelope resultRef db = .ok (u, db')) : db'.kernel = db.kernel := by
  unfold recordReceipt at h
  split at h
  · split at h
    · cases h
    · cases h
      rfl
  · obtain ⟨_, -, h⟩ := bind_eq_ok.mp h
    cases h
    rfl

theorem moves_of_qualify {t : Submitted} {o : Outcome} (hsound : db.kernel.Sound rt)
    (h : qualify rt t db = .ok (o, db')) : Kernel.Moves rt db.kernel db'.kernel := by
  obtain ⟨organizationId, transaction, given⟩ := t
  unfold qualify at h
  cases transaction
  case createMission =>
    obtain ⟨_, h, -⟩ := outcome_eq_ok.mp h
    exact moves_of_eq (kernel_of_createMission h)
  case storeBundle =>
    obtain ⟨_, h, -⟩ := outcome_eq_ok.mp h
    exact moves_of_eq (kernel_of_storeBundle h)
  case activateBundle =>
    obtain ⟨_, h, -⟩ := outcome_eq_ok.mp h
    exact moves_of_eq (kernel_of_activateBundle h)
  case prepareAttempt =>
    obtain ⟨_, h, -⟩ := outcome_eq_ok.mp h
    exact moves_of_prepareAttempt h
  case claimAttempt =>
    obtain ⟨_, h, -⟩ := outcome_eq_ok.mp h
    exact moves_of_claimAttempt h
  case snapshotAttempt =>
    obtain ⟨_, h, -⟩ := outcome_eq_ok.mp h
    exact moves_of_snapshotAttempt h
  case checkpointAttempt =>
    obtain ⟨_, h, -⟩ := outcome_eq_ok.mp h
    exact moves_of_checkpointAttempt h
  case finalizeAttempt =>
    obtain ⟨_, h, -⟩ := outcome_eq_ok.mp h
    exact moves_of_finalizeAttempt hsound h
  case claimAndSnapshot =>
    obtain ⟨_, h, -⟩ := outcome_eq_ok.mp h
    exact moves_of_claimAndSnapshot h
  case finalizeEvaluation =>
    obtain ⟨_, h, -⟩ := outcome_eq_ok.mp h
    exact moves_of_finalizeEvaluation hsound h
  case invalidate =>
    obtain ⟨_, h, -⟩ := outcome_eq_ok.mp h
    exact moves_of_invalidate h
  case decideApproval =>
    obtain ⟨_, h, -⟩ := outcome_eq_ok.mp h
    exact moves_of_decideApproval h
  case respond =>
    obtain ⟨_, h, -⟩ := outcome_eq_ok.mp h
    exact moves_of_eq (kernel_of_respond h)
  case consent =>
    obtain ⟨_, h, -⟩ := outcome_eq_ok.mp h
    exact moves_of_eq (kernel_of_consent h)
  case introduce =>
    obtain ⟨_, h, -⟩ := outcome_eq_ok.mp h
    exact moves_of_eq (kernel_of_serviceIntroduce h)
  case recordReceipt =>
    obtain ⟨_, h, -⟩ := outcome_eq_ok.mp h
    exact moves_of_eq (kernel_of_recordReceipt h)

end Moves

/-! ## Runs -/

section Runs

variable (rt : Runtime)

/-- The tables after transactions in their order. -/
def tablesAfter (ts : List Submitted) : QualificationDb :=
  Transactions.run (qualify rt) {} ts

theorem tablesAfter_of_ok {ts : List Submitted} {t : Submitted} {o : Outcome}
    {next : QualificationDb} (h : qualify rt t (tablesAfter rt ts) = .ok (o, next)) :
    tablesAfter rt (ts ++ [t]) = next := by
  unfold tablesAfter at h ⊢
  rw [Transactions.run_append]
  exact Transactions.after_of_ok h

theorem tablesAfter_of_error {ts : List Submitted} {t : Submitted} {e : QualificationError}
    (h : qualify rt t (tablesAfter rt ts) = .error e) :
    tablesAfter rt (ts ++ [t]) = tablesAfter rt ts := by
  unfold tablesAfter at h ⊢
  rw [Transactions.run_append]
  exact Transactions.after_of_error h

theorem sound_tablesAfter (ts : List Submitted) : (tablesAfter rt ts).kernel.Sound rt :=
  Transactions.run_induction (I := fun (db : QualificationDb) => db.kernel.Sound rt)
    (fun _ _ _ _ hsound h => (hsound.moves (moves_of_qualify hsound h)).1) Kernel.sound_empty ts

theorem advances_tablesAfter (ts later : List Submitted) :
    Kernel.Advances (tablesAfter rt ts).kernel (tablesAfter rt (ts ++ later)).kernel := by
  unfold tablesAfter
  rw [Transactions.run_append]
  apply Transactions.run_related (I := fun (db : QualificationDb) => db.kernel.Sound rt)
    (R := fun (db db' : QualificationDb) => Kernel.Advances db.kernel db'.kernel)
  · exact fun _ => Kernel.Advances.refl _
  · exact fun _ _ _ => Kernel.Advances.trans
  · exact fun _ _ _ _ hsound h => hsound.moves (moves_of_qualify hsound h)
  · exact sound_tablesAfter rt ts

end Runs

/-! ## A market of one product -/

namespace Sample

/-- What the transactions of one moment are given. -/
def given (n : Nat) : Given where
  now := n
  uuid := fun name => name ++ toString n

/-- The mission that was created at a moment. -/
def missionId (n : Nat) : String :=
  "qmission_qmission" ++ toString n

/-- A buyer creates a mission. -/
def mission (organizationId : String) (n : Nat) : List Submitted := [
  ⟨organizationId, .createMission ⟨.obj [], .obj [], .obj [], "trace"⟩, given n⟩]

/-- The bundles of the product, in the order in which they are published. -/
def first : VectorCandidate :=
  ⟨"crm", "seller", "b1",
    "sha256:8f4d21c706883dc8153be44c0bda8e5637e30833e21479c4f77433b314012538"⟩

def second : VectorCandidate :=
  ⟨"crm", "seller", "b2",
    "sha256:8dc9d14211fddbec60b639ac183247d5849ba032d685c3b3e6cbed43c1a2ec65"⟩

/-- The seller activates a bundle. -/
def activated (n : Nat) (candidate : VectorCandidate) : List Submitted := [
  ⟨"seller", .activateBundle candidate.bundleId "ann" candidate.bundleDigest, given n⟩]

/-- Two bundles, of which the first is active. -/
def published : List Submitted := [
  ⟨"seller", .storeBundle "b1" "crm" first.bundleDigest [(.productTwin, "t1", "h1")], given 0⟩,
  ⟨"seller", .storeBundle "b2" "crm" second.bundleDigest [(.productTwin, "t1", "h2")], given 0⟩] ++
  activated 0 first

/-- The attempt of a mission that has been replaced at the moments. -/
def attemptId (missionId : String) : List Nat → String
  | [] => stableId "qattempt" missionId
  | n :: ns => "qattempt_" ++ (attemptId missionId ns ++ toString n)

/-- A worker evaluates an attempt of a mission over a bundle. -/
def evaluated (organizationId missionId : String) (n : Nat) (replacements : List Nat)
    (candidate : VectorCandidate) : List Submitted :=
  let attemptId := attemptId missionId replacements
  [⟨organizationId, .prepareAttempt missionId [candidate], given n⟩,
    ⟨organizationId, .claimAndSnapshot "worker" attemptId, given n⟩,
    ⟨organizationId, .finalizeEvaluation ⟨attemptId, 1, "worker", 0⟩ ⟨"crm", ["crm"], [], []⟩,
      given n⟩]

end Sample

end SiraWorker
