-- SUMMARY: Discoveries in runs of purchase transactions: one is stored exactly when the current brief of its request was not evaluated before.
import SiraSeil.Domain.Digests
import SiraSeil.SiraApi.DiscoveryCalls
import SiraSeil.SiraApi.PurchaseInvariants

/-!
# Repeated discovery

A discovery is prepared for an earlier decision of its request: its version is the next one, and
its workflow is named by it. The row of its evaluation is named by the payload of the evaluation
alone, which the frozen source of the brief fixes. So a brief is evaluated once, and a discovery
over a brief that a discovery or an accepted proposal evaluated is not stored.
-/

namespace SiraApi

open Domain Persistence PurchaseDb Raising

/-! ## Names of workflows -/

theorem toList_discoveryId (requestId : String) (version : Nat) :
    (discoveryId requestId version).toList = "wf_discover_".toList ++ (requestId.toList ++
      if version = 1 then [] else '_' :: 'v' :: (toString version).toList) := by
  unfold discoveryId
  split
  · simp
  · simp

theorem v_not_mem_version (version : Nat) : 'v' ∉ (toString version).toList := by
  intro hmem
  rw [Nat.toString_eq_repr, Nat.toList_repr] at hmem
  have hdigit := Nat.isDigit_of_mem_toDigits (by decide) (by decide) hmem
  revert hdigit
  decide

theorem version_inj {version version' : Nat}
    (h : (toString version).toList = (toString version').toList) : version = version' := by
  rw [Nat.toString_eq_repr, Nat.toString_eq_repr, Nat.toList_repr, Nat.toList_repr] at h
  have hread := congrArg (fun digits => Nat.ofDigitChars 10 digits 0) h
  simpa only [Nat.ofDigitChars_ten_toDigits] using hread

theorem discoveryId_inj {requestId requestId' : String} {version version' : Nat}
    (hname : 'v' ∉ requestId.toList) (hname' : 'v' ∉ requestId'.toList)
    (h : discoveryId requestId version = discoveryId requestId' version') :
    requestId = requestId' ∧ version = version' := by
  have hlist := congrArg String.toList h
  rw [toList_discoveryId, toList_discoveryId, List.append_cancel_left_eq] at hlist
  by_cases hfirst : version = 1 <;> by_cases hfirst' : version' = 1
  · rw [if_pos hfirst, if_pos hfirst', List.append_nil, List.append_nil] at hlist
    exact ⟨String.toList_injective hlist, hfirst.trans hfirst'.symm⟩
  · -- Only the name of a later version has a `v` after the request.
    rw [if_pos hfirst, if_neg hfirst', List.append_nil] at hlist
    exact absurd (hlist ▸ by simp) hname
  · rw [if_neg hfirst, if_pos hfirst', List.append_nil] at hlist
    exact absurd (hlist ▸ by simp) hname'
  · rw [if_neg hfirst, if_neg hfirst', List.append_cons requestId.toList,
      List.append_cons requestId'.toList] at hlist
    have hbefore : 'v' ∉ requestId.toList ++ ['_'] := by simpa using hname
    obtain ⟨hrequest, -, hversion⟩ :=
      (List.append_cons_inj_of_notMem hbefore (v_not_mem_version version)).mp hlist
    exact ⟨String.toList_injective (List.append_cancel_right hrequest), version_inj hversion⟩
/-! ## What runs keep -/

/-- The hashes of the input and of the evaluation of a brief, by its id: the frozen source of the
    brief fixes them. -/
structure FrozenHashes where
  input : String → String
  payload : String → String

/-- Artifacts are those of a brief. -/
def FrozenHashes.Of (hashes : FrozenHashes) (briefId : String) (artifacts : GraphArtifacts) : Prop :=
  artifacts.inputPayloadHash = hashes.input briefId ∧
    artifacts.evaluationPayloadHash = hashes.payload briefId

/-- What the Decision Graph returns to a call is of the brief that the call evaluates. -/
structure Evaluates (hashes : FrozenHashes) (t : PurchaseTransaction) (db : PurchaseDb) : Prop where
  discover : ∀ requestId artifacts brief, t.call = .discover requestId (.ok artifacts) →
    currentBrief t.organizationId requestId db = some brief → hashes.Of brief.id artifacts
  decide : ∀ roles stepUpVerified briefId proposalId accept reason artifacts,
    t.call = .decideProposal roles stepUpVerified briefId proposalId accept reason (.ok artifacts) →
      hashes.Of ("pb_" ++ t.given.uuid "pb") artifacts

/-- A decision is bound to its ledger: the ledger has its id, and its hash is the one of the
    ledger. -/
structure BoundLedger (rt : Runtime) (d : DecisionRecord) : Prop where
  id : textOf (d.ledger.lookup "decision_id") = some d.id
  hash : d.decisionHash = "sha256:" ++ rt.hexdigest (.obj (without "decision_hash" d.ledger))

/-- What runs keep of the decisions with their evaluations and workflows: each key is made of the
    columns of its row. -/
structure Discoverable (rt : Runtime) (hashes : FrozenHashes) (tables : DecisionTables) :
    Prop where
  keyed : Table.Keyed Prod.fst tables.requests
  names : ∀ r ∈ tables.requests, 'v' ∉ r.1.toList
  requests : ∀ d ∈ tables.decisions, (d.purchaseRequestId, d.organizationId) ∈ tables.requests
  ledgers : ∀ d ∈ tables.decisions, BoundLedger rt d
  runs : ∀ r ∈ tables.evaluations,
    r.id = baseRunId rt r.organizationId r.purchaseRequestId r.evaluationPayloadHash
  frozen : ∀ r ∈ tables.evaluations, r.inputPayloadHash = hashes.input r.purchaseBriefId ∧
    r.evaluationPayloadHash = hashes.payload r.purchaseBriefId
  plans : ∀ p ∈ tables.plans,
    p.id = graphId rt "esp" [p.organizationId, p.evaluationRunId, p.solutionPlanId] ∧
      ∃ r ∈ tables.evaluations, r.id = p.evaluationRunId
  workflows : ∀ w ∈ tables.workflows, ∃ d ∈ tables.decisions,
    w.id = discoveryId d.purchaseRequestId d.version

namespace Discoverable

variable {rt : Runtime} {hashes : FrozenHashes} {tables : DecisionTables}

theorem decided (h : Discoverable rt hashes tables) {d : DecisionRecord}
    (hrequest : (d.purchaseRequestId, d.organizationId) ∈ tables.requests)
    (hbound : BoundLedger rt d) :
    Discoverable rt hashes { tables with decisions := tables.decisions ++ [d] } where
  keyed := h.keyed
  names := h.names
  requests := by
    intro x hx
    rcases List.mem_append.mp hx with hx | hx
    · exact h.requests x hx
    · rw [List.mem_singleton.mp hx]
      exact hrequest
  ledgers := by
    intro x hx
    rcases List.mem_append.mp hx with hx | hx
    · exact h.ledgers x hx
    · rw [List.mem_singleton.mp hx]
      exact hbound
  runs := h.runs
  frozen := h.frozen
  plans := h.plans
  workflows := by
    intro w hw
    obtain ⟨d, hd, hname⟩ := h.workflows w hw
    exact ⟨d, List.mem_append_left _ hd, hname⟩

theorem evaluated (h : Discoverable rt hashes tables) (run : EvaluationRun)
    {plans : List EvaluationSolutionPlan}
    (hid : run.id = baseRunId rt run.organizationId run.purchaseRequestId run.evaluationPayloadHash)
    (hfrozen : run.inputPayloadHash = hashes.input run.purchaseBriefId ∧
      run.evaluationPayloadHash = hashes.payload run.purchaseBriefId)
    (hplans : ∀ p ∈ plans, p.evaluationRunId = run.id ∧
      p.id = graphId rt "esp" [p.organizationId, p.evaluationRunId, p.solutionPlanId]) :
    Discoverable rt hashes { tables with
      evaluations := tables.evaluations ++ [run]
      plans := tables.plans ++ plans } where
  keyed := h.keyed
  names := h.names
  requests := h.requests
  ledgers := h.ledgers
  runs := by
    intro r hr
    rcases List.mem_append.mp hr with hr | hr
    · exact h.runs r hr
    · rw [List.mem_singleton.mp hr]
      exact hid
  frozen := by
    intro r hr
    rcases List.mem_append.mp hr with hr | hr
    · exact h.frozen r hr
    · rw [List.mem_singleton.mp hr]
      exact hfrozen
  plans := by
    intro p hp
    rcases List.mem_append.mp hp with hp | hp
    · obtain ⟨hkey, r, hr, hrun⟩ := h.plans p hp
      exact ⟨hkey, r, List.mem_append_left _ hr, hrun⟩
    · obtain ⟨hrun, hkey⟩ := hplans p hp
      exact ⟨hkey, run, List.mem_append_right _ List.mem_cons_self, hrun.symm⟩
  workflows := h.workflows

theorem named (h : Discoverable rt hashes tables) {w : WorkflowRun} {d : DecisionRecord}
    (hd : d ∈ tables.decisions) (hname : w.id = discoveryId d.purchaseRequestId d.version) :
    Discoverable rt hashes { tables with workflows := tables.workflows ++ [w] } where
  keyed := h.keyed
  names := h.names
  requests := h.requests
  ledgers := h.ledgers
  runs := h.runs
  frozen := h.frozen
  plans := h.plans
  workflows := by
    intro x hx
    rcases List.mem_append.mp hx with hx | hx
    · exact h.workflows x hx
    · rw [List.mem_singleton.mp hx]
      exact ⟨d, hd, hname⟩

end Discoverable

/-! ## The operations -/

section Operations

variable {s : WorkflowService} {rt : Runtime} {hashes : FrozenHashes}
  {organizationId actorId requestId : String} {given : PurchaseGiven} {db db' : PurchaseDb}

theorem bound_eq_ok {holds : Bool} {label : String} :
    bound holds label = .ok () ↔ holds = true := by
  unfold bound
  split
  · next hholds => exact ⟨fun _ => hholds, fun _ => rfl⟩
  · next hfails =>
    constructor
    · intro h
      cases h
    · intro h
      exact absurd h hfails

theorem textMember_eq_ok {key text : String} {document : List (String × Value)} :
    textMember key document = .ok text ↔ textOf (document.lookup key) = some text := by
  unfold textMember
  split
  · next hfound => simp [hfound]
  · next hnone => simp [hnone]

variable {briefId decisionId operation requestHash : String} {reply : KeyedReply}
  {answer : PurchaseAnswer}

theorem checkLedger_eq_ok {artifacts : GraphArtifacts}
    (h : checkLedger rt requestId briefId decisionId artifacts = .ok ()) :
    textOf (artifacts.ledger.lookup "decision_hash") =
        some ("sha256:" ++ rt.hexdigest (.obj (without "decision_hash" artifacts.ledger))) ∧
      textOf (artifacts.ledger.lookup "decision_id") = some decisionId := by
  unfold checkLedger at h
  obtain ⟨hash, hdigest, h⟩ := bind_eq_ok.mp h
  rw [unless_throw_eq_ok] at h
  obtain ⟨hhash, h⟩ := h
  obtain ⟨evaluation, -, h⟩ := bind_eq_ok.mp h
  simp only [check_bind_eq_ok, bound_eq_ok, decide_eq_true_eq] at h
  rw [not_not.mp hhash, (contentDigest_eq_ok.mp hdigest).2]
  exact ⟨rfl, h.2.2.2.2⟩

theorem mem_requests_of_get {request : PurchaseRequest}
    (h : db.getPurchaseRequest organizationId requestId = .ok request) :
    (requestId, organizationId) ∈ db.decisionTables.requests := by
  have hrow : request ∈ db.requests.filter (fun r =>
      r.id = requestId ∧ r.organizationId = organizationId) := by
    rw [mem_of_oneOrMissing h]
    exact List.mem_singleton_self request
  obtain ⟨hmem, hof⟩ := List.mem_filter.mp hrow
  obtain ⟨rfl, rfl⟩ := of_decide_eq_true hof
  exact List.mem_map_of_mem hmem

theorem decisionTables_withGraph (db : PurchaseDb) (run : EvaluationRun)
    (plans : List EvaluationSolutionPlan) :
    (withGraph db run plans).decisionTables = { db.decisionTables with
      evaluations := db.evaluations ++ [run]
      plans := db.plans ++ plans } :=
  congrArg Prod.snd (frame_publish _)

/-- The rows of plans are of their evaluation, and each key is made of the columns of its row. -/
theorem rows_of_checks {artifacts : GraphArtifacts} {plans : List EvaluationSolutionPlan}
    (hchecks : GraphChecks rt organizationId requestId briefId decisionId artifacts plans) :
    ∀ p ∈ plans, p.evaluationRunId = baseRunId rt organizationId requestId
      artifacts.evaluationPayloadHash ∧
        p.id = graphId rt "esp" [p.organizationId, p.evaluationRunId, p.solutionPlanId] := by
  intro p hp
  obtain ⟨plan, -, hplan⟩ := (mem_of_mapM_eq_ok hchecks.rows).mp hp
  obtain ⟨htenant, hrun, hname, hkey, -⟩ := solutionPlanRecord_eq_ok hplan
  rw [htenant, hrun, hname]
  exact ⟨rfl, hkey⟩

theorem discoverable_recordDecision {source : DecisionSourceSnapshot}
    {snapshotMissing : QualificationError} {artifacts : GraphArtifacts} {d : DecisionRecord}
    (hdb : Discoverable rt hashes db.decisionTables)
    (hrequest : (requestId, organizationId) ∈ db.decisionTables.requests)
    (hof : hashes.Of briefId artifacts)
    (h : recordDecision rt organizationId requestId briefId source snapshotMissing artifacts given
      db = .ok (d, db')) :
    Discoverable rt hashes db'.decisionTables ∧ d ∈ db'.decisionTables.decisions ∧
      d.purchaseRequestId = requestId := by
  obtain ⟨decisionHash, snapshot, plans, hchecks, rfl, -, -, rfl⟩ := recordDecision_iff.mp h
  obtain ⟨hhash, hid⟩ := checkLedger_eq_ok hchecks.graph.ledger
  have hbound : BoundLedger rt (decisionOf organizationId requestId briefId decisionHash artifacts
      (db.latestDecision organizationId requestId) given) := by
    refine ⟨hid, ?_⟩
    have hmember := textMember_eq_ok.mp hchecks.hash
    rw [hhash] at hmember
    exact (Option.some.inj hmember).symm
  have htables := (hdb.decided hrequest hbound).evaluated (baseRun rt organizationId requestId
    briefId ("dec_" ++ given.uuid "dec") artifacts) rfl hof (rows_of_checks hchecks.graph)
  rw [decisionTables_withGraph]
  exact ⟨htables, List.mem_append_right _ List.mem_cons_self, rfl⟩

theorem discoverable_discoverWork {result : Qualified GraphArtifacts}
    (hdb : Discoverable s.rt hashes db.decisionTables)
    (hof : ∀ artifacts brief, result = .ok artifacts →
      currentBrief organizationId requestId db = some brief → hashes.Of brief.id artifacts)
    (h : discoverWork s organizationId requestId result given db = .ok (reply, db')) :
    Discoverable s.rt hashes db'.decisionTables := by
  unfold discoverWork at h
  obtain ⟨request, hrequest, h⟩ := bind_eq_ok.mp h
  rw [unless_throw_eq_ok] at h
  obtain ⟨brief, hbrief, h⟩ := bind_eq_ok.mp h.2
  obtain ⟨requirement, -, h⟩ := bind_eq_ok.mp h
  obtain ⟨source, -, h⟩ := bind_eq_ok.mp h
  obtain ⟨artifacts, hartifacts, h⟩ := bind_eq_ok.mp h
  obtain ⟨⟨d, db₁⟩, hrecord, h⟩ := bind_eq_ok.mp h
  obtain ⟨db₂, hworkflow, h⟩ := bind_eq_ok.mp h
  cases h
  obtain ⟨hstored, hd, hnamed⟩ := discoverable_recordDecision hdb
    (mem_requests_of_get (notFound_iff.mp hrequest))
    (hof artifacts brief hartifacts (scalarOne_iff.mp hbrief)) hrecord
  obtain ⟨-, rfl⟩ := addWorkflow_iff.mp hworkflow
  -- Its status is no column of a request that is looked at here.
  have hrequests : (Table.update (·.id) requestId (fun r => { r with status := "DECISION_READY" })
      db₁.requests).map (fun r => (r.id, r.organizationId)) =
        db₁.requests.map (fun r => (r.id, r.organizationId)) :=
    Table.map_update (fun _ => rfl)
  have hlast := hstored.named (w := ⟨discoveryId requestId d.version, organizationId, requestId,
    "discover", "/v1/decisions/" ++ d.id⟩) hd (by rw [hnamed])
  unfold decisionTables at hlast ⊢
  rw [hrequests]
  exact hlast

theorem rebase_eq_ok {base : PurchaseBriefVersion} {proposal : BriefProposal} {rebased : Rebased}
    (h : rebase s organizationId actorId base proposal given db = .ok (rebased, db')) :
    rebased.briefId = "pb_" ++ given.uuid "pb" := by
  unfold rebase at h
  obtain ⟨changed, -, h⟩ := bind_eq_ok.mp h
  obtain ⟨contentHash, -, h⟩ := bind_eq_ok.mp h
  obtain ⟨db₁, -, h⟩ := bind_eq_ok.mp h
  obtain ⟨baseRequirement, -, h⟩ := bind_eq_ok.mp h
  obtain ⟨requirementHash, -, h⟩ := bind_eq_ok.mp h
  obtain ⟨db₂, -, h⟩ := bind_eq_ok.mp h
  obtain ⟨baseSource, -, h⟩ := bind_eq_ok.mp h
  obtain ⟨sourceHash, -, h⟩ := bind_eq_ok.mp h
  obtain ⟨db₃, -, h⟩ := bind_eq_ok.mp h
  cases h
  rfl

theorem discoverable_decideProposalWork {proposalId reason : String} {accept : Bool}
    {result : Qualified GraphArtifacts} (hdb : Discoverable s.rt hashes db.decisionTables)
    (hof : ∀ artifacts, result = .ok artifacts → hashes.Of ("pb_" ++ given.uuid "pb") artifacts)
    (h : decideProposalWork s organizationId actorId briefId proposalId accept reason result given
      db = .ok (reply, db')) : Discoverable s.rt hashes db'.decisionTables := by
  unfold decideProposalWork at h
  obtain ⟨base, -, h⟩ := bind_eq_ok.mp h
  obtain ⟨proposal, -, h⟩ := bind_eq_ok.mp h
  rw [unless_throw_eq_ok, unless_throw_eq_ok] at h
  obtain ⟨-, -, h⟩ := h
  split at h
  · unfold acceptProposal at h
    obtain ⟨⟨rebased, db₁⟩, hrebase, h⟩ := bind_eq_ok.mp h
    obtain ⟨artifacts, hartifacts, h⟩ := bind_eq_ok.mp h
    obtain ⟨request, hrequest, h⟩ := bind_eq_ok.mp h
    obtain ⟨⟨d, db₂⟩, hrecord, h⟩ := bind_eq_ok.mp h
    obtain ⟨⟨superseded, db₃⟩, hsupersede, h⟩ := bind_eq_ok.mp h
    cases h
    have htables : db₁.decisionTables = db.decisionTables :=
      congrArg Prod.snd (frame_rebase hrebase)
    obtain ⟨hstored, -, -⟩ := discoverable_recordDecision (htables ▸ hdb)
      (mem_requests_of_get (notFound_iff.mp hrequest))
      ((rebase_eq_ok hrebase).symm ▸ hof artifacts hartifacts) hrecord
    have hlast : db₃.decisionTables = db₂.decisionTables :=
      congrArg Prod.snd (frame_supersedeIntents hsupersede)
    exact hlast.symm ▸ hstored
  · cases h
    exact hdb

theorem selectedLedger_eq_ok {source : DecisionRecord} {selectedId solutionPlanId hash : String}
    {now : Int} {ledger : List (String × Value)}
    (h : selectedLedger s source selectedId solutionPlanId now = .ok (ledger, hash)) :
    textOf (ledger.lookup "decision_id") = some selectedId ∧
      hash = "sha256:" ++ s.rt.hexdigest (.obj (without "decision_hash" ledger)) := by
  unfold selectedLedger at h
  obtain ⟨decisionHash, hdigest, h⟩ := bind_eq_ok.mp h
  rw [pure_eq_ok] at h
  obtain ⟨rfl, rfl⟩ := Prod.mk.inj h
  rw [lookup_setItem_of_ne (by decide), without_setItem, (contentDigest_eq_ok.mp hdigest).2]
  refine ⟨?_, rfl⟩
  rw [lookup_updateItems List.mem_cons_self]
  · rfl
  · simp

theorem discoverable_selectPlanWork {roles : List String} {party : Option String}
    {solutionPlanId decisionHash : String} {decisionVersion : Nat}
    (hdb : Discoverable s.rt hashes db.decisionTables)
    (h : selectPlanWork s organizationId roles party decisionId solutionPlanId decisionHash
      decisionVersion given db = .ok (reply, db')) :
    Discoverable s.rt hashes db'.decisionTables := by
  unfold selectPlanWork at h
  obtain ⟨source, hsource, h⟩ := bind_eq_ok.mp h
  obtain ⟨-, h⟩ := check_bind_eq_ok.mp h
  rw [unless_throw_eq_ok] at h
  obtain ⟨request, hrequest, h⟩ := bind_eq_ok.mp h.2
  obtain ⟨-, h⟩ := check_bind_eq_ok.mp h
  obtain ⟨⟨option, supported⟩, -, h⟩ := bind_eq_ok.mp h
  rw [unless_throw_eq_ok, unless_throw_eq_ok] at h
  obtain ⟨-, -, h⟩ := h
  obtain ⟨⟨ledger, selectedHash⟩, hledger, h⟩ := bind_eq_ok.mp h
  obtain ⟨db₁, hdecision, h⟩ := bind_eq_ok.mp h
  obtain ⟨⟨superseded, db₂⟩, hsupersede, h⟩ := bind_eq_ok.mp h
  cases h
  obtain ⟨-, -, -, rfl⟩ := addDecision_iff.mp hdecision
  obtain ⟨hid, hhash⟩ := selectedLedger_eq_ok hledger
  have hlast := congrArg Prod.snd (frame_supersedeIntents hsupersede)
  dsimp only [PurchaseDb.frame] at hlast
  rw [hlast]
  exact hdb.decided (mem_requests_of_get (notFound_iff.mp hrequest)) ⟨hid, hhash⟩

/-- What a call does to the tables is what its work does on the same tables, or nothing. -/
theorem keyed_preserves {idempotencyKey : String} {status : Int}
    {work : PurchaseDb → Qualified (KeyedReply × PurchaseDb)} {I : PurchaseDb → Prop}
    (hI : ∀ db workspace, I { db with toWorkspace := workspace } ↔ I db)
    (hwork : ∀ before reply after, I before → before.briefs = db.briefs →
      work before = .ok (reply, after) → I after)
    (hdb : I db)
    (h : keyed organizationId actorId operation idempotencyKey requestHash status work given db =
      .ok (answer, db')) : I db' := by
  unfold keyed at h
  obtain ⟨⟨claim, claimed⟩, -, h⟩ := bind_eq_ok.mp h
  dsimp only at h
  split at h
  · cases h
    exact (hI _ _).mpr hdb
  · obtain ⟨⟨reply, after⟩, hdone, h⟩ := bind_eq_ok.mp h
    obtain ⟨completed, -, h⟩ := bind_eq_ok.mp h
    cases h
    exact (hI _ _).mpr (hwork _ reply after ((hI db claimed).mpr hdb) rfl hdone)

theorem decisionTables_keyed {idempotencyKey : String} {status : Int}
    {work : PurchaseDb → Qualified (KeyedReply × PurchaseDb)}
    (hwork : ∀ before reply after, work before = .ok (reply, after) → after.frame = before.frame)
    (h : keyed organizationId actorId operation idempotencyKey requestHash status work given db =
      .ok (answer, db')) : db'.decisionTables = db.decisionTables :=
  keyed_preserves (I := fun after => after.decisionTables = db.decisionTables) (fun _ _ => Iff.rfl)
    (fun _ _ _ hbefore _ hdone => (congrArg Prod.snd (hwork _ _ _ hdone)).trans hbefore) rfl h

theorem decisionTables_unlessExpired {approvalId idempotencyKey : String}
    {work : ApprovalRequest → PurchaseIntent → PurchaseDb → Qualified (KeyedReply × PurchaseDb)}
    (hwork : ∀ approval intent before reply after, work approval intent before = .ok (reply, after) →
      after.frame = before.frame)
    (h : unlessExpired organizationId actorId approvalId operation idempotencyKey requestHash work
      given db = .ok (answer, db')) : db'.decisionTables = db.decisionTables := by
  unfold unlessExpired at h
  obtain ⟨⟨approval, intent⟩, -, h⟩ := bind_eq_ok.mp h
  dsimp only at h
  split at h
  · cases h
    rfl
  · exact decisionTables_keyed (hwork approval intent) h

/-- A call appends a decision to a request. -/
inductive AddsDecision : PurchaseCall → Prop
  | discover (requestId : String) (result : Qualified GraphArtifacts) :
      AddsDecision (.discover requestId result)
  | decide (roles : List String) (stepUpVerified : Bool) (briefId proposalId : String)
      (accept : Bool) (reason : String) (result : Qualified GraphArtifacts) :
      AddsDecision (.decideProposal roles stepUpVerified briefId proposalId accept reason result)
  | select (roles : List String) (party : Option String)
      (decisionId solutionPlanId decisionHash : String) (decisionVersion : Nat) :
      AddsDecision (.selectPlan roles party decisionId solutionPlanId decisionHash decisionVersion)

theorem decisionTables_of_transact {t : PurchaseTransaction} (hother : ¬ AddsDecision t.call)
    (h : transact s t db = .ok (answer, db')) : db'.decisionTables = db.decisionTables := by
  unfold transact at h
  split at h
  case h_1 hcall => exact absurd (hcall ▸ .discover ..) hother
  case h_2 hcall => exact absurd (hcall ▸ .decide ..) hother
  case h_3 hcall => exact absurd (hcall ▸ .select ..) hother
  case h_4 =>
    unfold lockPurchaseIntent at h
    obtain ⟨hash, -, h⟩ := bind_eq_ok.mp h
    exact decisionTables_keyed (fun _ _ _ => frame_lockPurchaseIntentWork) h
  case h_5 =>
    unfold createApprovalRequest at h
    obtain ⟨hash, -, h⟩ := bind_eq_ok.mp h
    exact decisionTables_keyed (fun _ _ _ => frame_createApprovalRequestWork) h
  case h_6 =>
    unfold approve at h
    obtain ⟨-, h⟩ := check_bind_eq_ok.mp h
    obtain ⟨hash, -, h⟩ := bind_eq_ok.mp h
    exact decisionTables_unlessExpired (fun _ _ _ _ _ => frame_approveWork) h
  case h_7 =>
    unfold rejectApproval at h
    obtain ⟨-, h⟩ := check_bind_eq_ok.mp h
    obtain ⟨hash, -, h⟩ := bind_eq_ok.mp h
    exact decisionTables_unlessExpired (fun _ _ _ _ _ => frame_rejectWork) h
  case h_8 =>
    unfold revokeApproval at h
    obtain ⟨-, h⟩ := check_bind_eq_ok.mp h
    obtain ⟨hash, -, h⟩ := bind_eq_ok.mp h
    obtain ⟨⟨approval, intent⟩, -, h⟩ := bind_eq_ok.mp h
    exact decisionTables_keyed (fun _ _ _ => frame_revokeWork) h
  case h_9 =>
    unfold expirePurchaseApproval at h
    obtain ⟨intent, -, h⟩ := bind_eq_ok.mp h
    split at h
    · cases h
      rfl
    · split at h
      · cases h
        rfl
      · split at h
        · cases h
          rfl
        · cases h
          rfl
  case h_10 =>
    unfold createPaymentHandoff at h
    obtain ⟨hash, -, h⟩ := bind_eq_ok.mp h
    exact decisionTables_keyed (fun _ _ _ => frame_createPaymentHandoffWork) h
  case h_11 =>
    unfold openPaymentHandoff at h
    obtain ⟨hash, -, h⟩ := bind_eq_ok.mp h
    exact decisionTables_keyed (fun _ _ _ => frame_openPaymentHandoffWork) h

theorem discoverable_of_transact {t : PurchaseTransaction}
    (hdb : Discoverable s.rt hashes db.decisionTables) (hof : Evaluates hashes t db)
    (h : transact s t db = .ok (answer, db')) : Discoverable s.rt hashes db'.decisionTables := by
  by_cases hdecides : AddsDecision t.call
  · unfold transact at h
    generalize hcall : t.call = call at h hdecides
    cases hdecides with
    | discover requestId result =>
      dsimp only [discover] at h
      obtain ⟨-, h⟩ := check_bind_eq_ok.mp h
      obtain ⟨hash, -, h⟩ := bind_eq_ok.mp h
      refine keyed_preserves (I := fun after => Discoverable s.rt hashes after.decisionTables)
        (fun _ _ => Iff.rfl) (fun before _ _ hbefore hbriefs hdone => ?_) hdb h
      refine discoverable_discoverWork hbefore (fun artifacts brief hresult hbrief => ?_) hdone
      unfold currentBrief at hbrief
      rw [hbriefs] at hbrief
      exact hof.discover requestId artifacts brief (hresult ▸ hcall) hbrief
    | decide roles stepUpVerified briefId proposalId accept reason result =>
      dsimp only [decideProposal] at h
      rw [unless_throw_eq_ok, unless_throw_eq_ok] at h
      obtain ⟨hash, -, h⟩ := bind_eq_ok.mp h.2.2
      refine keyed_preserves (I := fun after => Discoverable s.rt hashes after.decisionTables)
        (fun _ _ => Iff.rfl) (fun before _ _ hbefore _ hdone => ?_) hdb h
      refine discoverable_decideProposalWork hbefore (fun artifacts hresult => ?_) hdone
      exact hof.decide roles stepUpVerified briefId proposalId accept reason artifacts
        (hresult ▸ hcall)
    | select =>
      dsimp only [selectPlan] at h
      obtain ⟨hash, -, h⟩ := bind_eq_ok.mp h
      exact keyed_preserves (I := fun after => Discoverable s.rt hashes after.decisionTables)
        (fun _ _ => Iff.rfl) (fun _ _ _ hbefore _ => discoverable_selectPlanWork hbefore) hdb h
  · rw [decisionTables_of_transact hdecides h]
    exact hdb

theorem discoverable_of_run {run : List PurchaseTransaction}
    (hstart : Discoverable s.rt hashes db.decisionTables)
    (halong : Transactions.Along (transact s) (Evaluates hashes) db run) :
    Discoverable s.rt hashes (purchasesAfter s db run).decisionTables :=
  Transactions.run_along (I := fun after => Discoverable s.rt hashes after.decisionTables)
    (fun _ _ _ _ hdb hof h => discoverable_of_transact hdb hof h) hstart halong

end Operations

/-! ## Discovery -/

/-- A brief was evaluated for a tenant. -/
def BriefEvaluated (organizationId briefId : String) (db : PurchaseDb) : Prop :=
  ∃ r ∈ db.evaluations, r.organizationId = organizationId ∧ r.purchaseBriefId = briefId

/-- Two objects have the same texts under their keys. -/
def TextsAgree (fields fields' : List (String × Value)) : Prop :=
  ∀ key, textOf (fields.lookup key) = textOf (fields'.lookup key)

/-- The digests of what a discovery stores tell it apart from what is stored. -/
structure DigestsApart (rt : Runtime) (hashes : FrozenHashes) (artifacts : GraphArtifacts)
    (d : DecisionRecord) (plans : List EvaluationSolutionPlan) (tables : DecisionTables) : Prop where
  inputs : ∀ r ∈ tables.evaluations, hashes.input r.purchaseBriefId =
    hashes.input d.purchaseBriefId → r.purchaseBriefId = d.purchaseBriefId
  payloads : ∀ r ∈ tables.evaluations, hashes.payload r.purchaseBriefId =
    hashes.payload d.purchaseBriefId → r.purchaseBriefId = d.purchaseBriefId
  runs : ∀ r ∈ tables.evaluations,
    baseRunId rt r.organizationId r.purchaseRequestId r.evaluationPayloadHash =
      baseRunId rt d.organizationId d.purchaseRequestId artifacts.evaluationPayloadHash →
    r.organizationId = d.organizationId ∧
      r.evaluationPayloadHash = artifacts.evaluationPayloadHash
  planIds : ∀ q ∈ tables.plans, ∀ p ∈ plans,
    graphId rt "esp" [q.organizationId, q.evaluationRunId, q.solutionPlanId] =
      graphId rt "esp" [p.organizationId, p.evaluationRunId, p.solutionPlanId] →
    q.evaluationRunId = p.evaluationRunId
  documents : ∀ p ∈ plans, ∀ q ∈ plans,
    rt.hexdigest (.obj p.payload) = rt.hexdigest (.obj q.payload) → TextsAgree p.payload q.payload
  ledgers : ∀ x ∈ tables.decisions, rt.hexdigest (.obj (without "decision_hash" x.ledger)) =
      rt.hexdigest (.obj (without "decision_hash" d.ledger)) →
    TextsAgree (without "decision_hash" x.ledger) (without "decision_hash" d.ledger)

section Discovery

variable {s : WorkflowService} {hashes : FrozenHashes}
  {organizationId actorId requestId idempotencyKey : String} {artifacts : GraphArtifacts}
  {given : PurchaseGiven} {db : PurchaseDb} {brief : PurchaseBriefVersion} {decisionHash : String}
  {snapshot : StackSnapshot} {plans : List EvaluationSolutionPlan}

/-- The next decision has another hash than those there are: their ledgers have other ids. -/
theorem hash_ne_nextDecision (hdb : Discoverable s.rt hashes db.decisionTables)
    (hfresh : FreshDiscovery organizationId actorId idempotencyKey given db)
    (hchecks : DiscoveryChecks s organizationId requestId artifacts given db brief decisionHash
      snapshot plans)
    (hapart : DigestsApart s.rt hashes artifacts
      (nextDecision organizationId requestId brief.id decisionHash artifacts given db) plans
      db.decisionTables) : ∀ x ∈ db.decisions, x.decisionHash ≠ decisionHash := by
  intro x hx hsame
  obtain ⟨source, -, hdecision⟩ := hchecks.decision
  obtain ⟨hhash, hid⟩ := checkLedger_eq_ok hdecision.graph.ledger
  have hbound := hdb.ledgers x hx
  have hmember := textMember_eq_ok.mp hdecision.hash
  rw [hhash, Option.some_inj] at hmember
  rw [hbound.hash, ← hmember] at hsame
  have htexts := hapart.ledgers x hx (String.append_right_inj _ |>.mp hsame) "decision_id"
  rw [lookup_without (by decide), lookup_without (by decide), hbound.id] at htexts
  exact hfresh.decisionId x hx (Option.some.inj (htexts.trans hid))

/-- The rows of the plans of one evaluation have different hashes: their payloads have other
    ids. -/
theorem nodup_planHashes {briefId decisionId : String} {d : DecisionRecord}
    {tables : DecisionTables}
    (hchecks : GraphChecks s.rt organizationId requestId briefId decisionId artifacts plans)
    (hapart : DigestsApart s.rt hashes artifacts d plans tables) :
    (plans.map (·.planHash)).Nodup := by
  have hrow : ∀ p ∈ plans, textOf (p.payload.lookup "solution_plan_id") = some p.solutionPlanId ∧
      p.planHash = "sha256:" ++ s.rt.hexdigest (.obj p.payload) := by
    intro p hp
    obtain ⟨plan, -, hplan⟩ := (mem_of_mapM_eq_ok hchecks.rows).mp hp
    obtain ⟨-, -, hname, -, hid, hhash⟩ := solutionPlanRecord_eq_ok hplan
    exact ⟨hname ▸ hid, hhash⟩
  refine List.Nodup.map_on (fun p hp q hq hsame => ?_) (hchecks.planIds.of_map _)
  refine List.inj_on_of_nodup_map hchecks.planIds hp hq ?_
  obtain ⟨hid, hhash⟩ := hrow p hp
  obtain ⟨hid', hhash'⟩ := hrow q hq
  rw [hhash, hhash'] at hsame
  have htexts := hapart.documents p hp q hq (String.append_right_inj _ |>.mp hsame) "solution_plan_id"
  rw [hid, hid'] at htexts
  exact Option.some.inj htexts

theorem graphFree_of_unevaluated {d : DecisionRecord}
    (hdb : Discoverable s.rt hashes db.decisionTables)
    (hchecks : GraphChecks s.rt d.organizationId d.purchaseRequestId d.purchaseBriefId d.id
      artifacts plans) (hof : hashes.Of d.purchaseBriefId artifacts)
    (hapart : DigestsApart s.rt hashes artifacts d plans db.decisionTables)
    (hnew : ¬ BriefEvaluated d.organizationId d.purchaseBriefId db) :
    GraphFree (baseRun s.rt d.organizationId d.purchaseRequestId d.purchaseBriefId d.id artifacts)
      plans db := by
  obtain ⟨hinput, hpayload⟩ := hof
  have hpayloads : ∀ r ∈ db.evaluations, r.organizationId = d.organizationId →
      r.evaluationPayloadHash ≠ artifacts.evaluationPayloadHash := by
    intro r hr htenant hsame
    rw [(hdb.frozen r hr).2, hpayload] at hsame
    exact hnew ⟨r, hr, htenant, hapart.payloads r hr hsame⟩
  have hids : ∀ r ∈ db.evaluations, r.id ≠ baseRunId s.rt d.organizationId d.purchaseRequestId
      artifacts.evaluationPayloadHash := by
    intro r hr hsame
    rw [hdb.runs r hr] at hsame
    obtain ⟨htenant, hhash⟩ := hapart.runs r hr hsame
    exact hpayloads r hr htenant hhash
  refine ⟨hids, hpayloads, ?_, ?_, nodup_planHashes hchecks hapart⟩
  · intro r hr htenant _ hsame
    have hsame : r.inputPayloadHash = artifacts.inputPayloadHash := hsame
    rw [(hdb.frozen r hr).1, hinput] at hsame
    exact hnew ⟨r, hr, htenant, hapart.inputs r hr hsame⟩
  · -- A plan under the id of a new one would be of the same evaluation, which is not stored.
    intro p hp q hq hsame
    obtain ⟨hkey, r, hr, hrun⟩ := hdb.plans q hq
    obtain ⟨hof, hid⟩ := rows_of_checks hchecks p hp
    rw [hkey, hid] at hsame
    have hshared := hapart.planIds q hq p hp hsame
    rw [← hrun, hof] at hshared
    exact hids r hr hshared

theorem workflow_ne_nextDecision (hdb : Discoverable s.rt hashes db.decisionTables)
    (hchecks : DiscoveryChecks s organizationId requestId artifacts given db brief decisionHash
      snapshot plans) : ∀ w ∈ db.workflows, w.id ≠ discoveryId requestId
        (nextDecision organizationId requestId brief.id decisionHash artifacts given db).version := by
  intro w hw hsame
  obtain ⟨d, hd, hname⟩ := hdb.workflows w hw
  obtain ⟨request, hrequest, -⟩ := hchecks.request
  have hof := hdb.requests d hd
  have hself := mem_requests_of_get hrequest
  obtain ⟨hrequests, hversion⟩ := discoveryId_inj (hdb.names _ hof) (hdb.names _ hself)
    (hname.symm.trans hsame)
  have htenant : d.organizationId = organizationId :=
    congrArg Prod.snd (hdb.keyed.eq hof hself hrequests)
  exact absurd hversion (Nat.ne_of_lt (version_lt_nextDecision hd htenant hrequests))

theorem discoveryFree_of_unevaluated (hdb : Discoverable s.rt hashes db.decisionTables)
    (hfresh : FreshDiscovery organizationId actorId idempotencyKey given db)
    (hchecks : DiscoveryChecks s organizationId requestId artifacts given db brief decisionHash
      snapshot plans) (hof : hashes.Of brief.id artifacts)
    (hapart : DigestsApart s.rt hashes artifacts
      (nextDecision organizationId requestId brief.id decisionHash artifacts given db) plans
      db.decisionTables) (hnew : ¬ BriefEvaluated organizationId brief.id db) :
    DiscoveryFree s.rt artifacts
      (nextDecision organizationId requestId brief.id decisionHash artifacts given db) plans db := by
  obtain ⟨source, -, hdecision⟩ := hchecks.decision
  refine ⟨⟨hfresh.decisionId, ?_, ?_, hfresh.patchId⟩, ?_, workflow_ne_nextDecision hdb hchecks⟩
  · intro x hx _
    exact hash_ne_nextDecision hdb hfresh hchecks hapart x hx
  · intro x hx htenant hrequest
    exact Nat.ne_of_lt (version_lt_nextDecision hx htenant hrequest)
  · exact graphFree_of_unevaluated hdb hdecision.graph hof hapart hnew

end Discovery

/-! ## Two discoveries -/

namespace DiscoverySample

/-- The service of the sample purchase over a runtime -/
def service (rt : Runtime) : WorkflowService :=
  { PurchaseSample.service with rt := rt }

/-- The graph of the sample returns one plan. -/
def body (decisionId : String) : List (String × Value) :=
  [("decision_id", .str decisionId), ("request_id", .str "req_1"),
    ("purchase_brief_id", .str "pb_1"), ("selected_solution_plan_id", .str "plan_a"),
    ("evaluation", .obj [("evaluation_payload_hash", .str "sha256:evaluation_pb_1")]),
    ("solution_plans", .seq [.obj [("solution_plan_id", .str "plan_a")]])]

def decisionHash (rt : Runtime) (decisionId : String) : String :=
  "sha256:" ++ rt.hexdigest (.obj (body decisionId))

/-- What the graph returns for the brief, under the id of a decision. -/
def artifacts (rt : Runtime) (decisionId : String) : GraphArtifacts where
  inputPayloadHash := "sha256:input_pb_1"
  evaluationPayloadHash := "sha256:evaluation_pb_1"
  selectedPlanId := some "plan_a"
  plans := [⟨"plan_a", .executable, .eligible⟩]
  ledger := ("decision_hash", .str (decisionHash rt decisionId)) :: body decisionId
  patch := ⟨1, "PROPOSED", [], ""⟩
  commercialTerms := []

def hashes : FrozenHashes where
  input := fun briefId => "sha256:input_" ++ briefId
  payload := fun briefId => "sha256:evaluation_" ++ briefId

def brief : PurchaseBriefVersion where
  id := "pb_1"
  organizationId := "org_buyer"
  purchaseRequestId := "req_1"
  version := 1
  status := "APPROVED"
  payload := []
  contentHash := ""
  supersedesId := none

def source (rt : Runtime) : DecisionSourceSnapshot where
  id := "dss_1"
  organizationId := "org_buyer"
  purchaseRequestId := "req_1"
  purchaseBriefId := "pb_1"
  stackSnapshotId := "stack_1"
  version := 1
  sourceKind := "DEVELOPMENT_FIXTURE"
  payload := []
  contentHash := "sha256:" ++ rt.hexdigest (.obj [])
  acceptedByActorId := "dana"
  acceptedAt := PurchaseSample.noon

/-- A request with a brief and its frozen source, and no decision. -/
def start (rt : Runtime) : PurchaseDb where
  tables := { organizations := ["org_buyer"] }
  requests := [⟨"req_1", "org_buyer", "DRAFT", some demoScenarioId⟩]
  briefs := [brief]
  requirements := [⟨"rb_1", "org_buyer", "req_1", "pb_1", 1, [], ""⟩]
  sources := [source rt]
  snapshots := [⟨"stack_1", "org_buyer"⟩]

/-- A discovery of the request, under a key that its ids end in. -/
def discovery (rt : Runtime) (key : String) : PurchaseTransaction :=
  PurchaseSample.callAt "dana" key 0 (.discover "req_1" (.ok (artifacts rt ("dec_" ++ key))))

/-- The row of the plan -/
def planRow (rt : Runtime) : EvaluationSolutionPlan where
  id := graphId rt "esp"
    ["org_buyer", baseRunId rt "org_buyer" "req_1" "sha256:evaluation_pb_1", "plan_a"]
  organizationId := "org_buyer"
  evaluationRunId := baseRunId rt "org_buyer" "req_1" "sha256:evaluation_pb_1"
  solutionPlanId := "plan_a"
  planHash := "sha256:" ++ rt.hexdigest (.obj [("solution_plan_id", .str "plan_a")])
  lifecycle := .executable
  candidateStatus := .eligible
  selected := true
  payload := [("solution_plan_id", .str "plan_a")]

theorem ledger_ok : (fun (rt : Runtime) =>
    (checkLedger rt "req_1" "pb_1" "dec_k1" (artifacts rt "dec_k1")).isOk) .ascii = true := by
  rw [Runtime.ascii_eq]
  decide +kernel

theorem graphChecks :
    GraphChecks .ascii "org_buyer" "req_1" "pb_1" "dec_k1" (artifacts .ascii "dec_k1")
      [planRow .ascii] where
  ledger := by
    obtain ⟨checked, hchecked⟩ := exists_of_isOk ledger_ok
    exact hchecked
  terms := by simp [artifacts]
  rows := rfl
  rowIds := List.nodup_singleton _
  planIds := List.nodup_singleton _
  selected := by
    intro id hid
    rw [← Option.some.inj hid]
    exact List.mem_cons_self
  selectedRow := rfl

theorem source_ok (rt : Runtime) :
    (start rt).getDecisionSourceSnapshot "org_buyer" rt "req_1" "pb_1" = .ok (source rt) := by
  have hdigest : contentDigest rt (.obj []) = .ok (source rt).contentHash :=
    contentDigest_eq_ok.mpr ⟨by simp [Value.canonical_obj], rfl⟩
  have hfound : oneOrMissing (Table.latest (·.version) ((start rt).sources.filter (fun s =>
      s.organizationId = "org_buyer" ∧ s.purchaseRequestId = "req_1" ∧
        s.purchaseBriefId = "pb_1"))).toList = .ok (source rt) := rfl
  unfold getDecisionSourceSnapshot
  rw [hfound, ok_bind]
  unfold assertPayloadHash
  rw [show (source rt).payload = [] from rfl, hdigest, ok_bind, if_neg (not_not.mpr rfl)]
  rfl

theorem checks_start :
    DiscoveryChecks (service .ascii) "org_buyer" "req_1" (artifacts .ascii "dec_k1")
      (discovery .ascii "k1").given (start .ascii) brief (decisionHash .ascii "dec_k1")
      ⟨"stack_1", "org_buyer"⟩ [planRow .ascii] where
  request := ⟨_, rfl, rfl⟩
  current := rfl
  requirement := ⟨_, rfl⟩
  decision := ⟨source .ascii, source_ok .ascii, rfl, rfl, graphChecks⟩

/-- The key that a call repeated -/
def violated {α : Type} : Qualified α → Option String
  | .error (.integrity key) => some key
  | _ => none

theorem violated_eq_some {α : Type} {x : Qualified α} {key : String}
    (h : violated x = some key) : x = .error (.integrity key) := by
  unfold violated at h
  split at h
  · rw [Option.some.inj h]
  · cases h

theorem second_violates : (fun (rt : Runtime) =>
    let db := purchasesAfter (service rt) (start rt) [discovery rt "k1"]
    (recordOf ⟨"org_buyer", "dana", "purchase_requests.discover", "k2"⟩ db.records).isNone &&
      db.records.all (·.id ≠ "idem_k2") && db.decisions.all (·.id ≠ "dec_k2") &&
      db.patches.all (·.id ≠ "patch_dec_k2") && (db.latestDecision "org_buyer" "req_1").isSome &&
      violated (transact (service rt) (discovery rt "k2") db) = some "evaluation_runs_pkey")
      .ascii = true := by
  rw [Runtime.ascii_eq]
  decide +kernel

theorem discoverable_start : Discoverable .ascii hashes (start .ascii).decisionTables where
  keyed := List.nodup_singleton _
  names := by
    intro r hr
    rw [List.mem_singleton.mp hr]
    decide
  requests := fun _ hd => absurd hd List.not_mem_nil
  ledgers := fun _ hd => absurd hd List.not_mem_nil
  runs := fun _ hr => absurd hr List.not_mem_nil
  frozen := fun _ hr => absurd hr List.not_mem_nil
  plans := fun _ hp => absurd hp List.not_mem_nil
  workflows := fun _ hw => absurd hw List.not_mem_nil

end DiscoverySample

end SiraApi
