-- SUMMARY: What a discovery checks, and the keys that have to be free for it to append a decision.
import SiraSeil.SiraApi.PurchaseRecords

/-!
# Calls of discovery

`discover` under a fresh key appends a decision exactly when its checks pass and no key of the rows
that it writes is taken: of the decision, of its evaluation with its plans, and of the workflow.
-/

namespace SiraApi

open Domain Persistence PurchaseDb Raising

/-! ## Documents -/

section Documents

variable {key key' : String} {value : Value} {items document : List (String × Value)}

@[simp] theorem lookup_setItem_self : (setItem key value items).lookup key = some value := by
  unfold setItem
  split
  · next hmem => exact Dict.lookup_overwrite_self value hmem
  · next hnone =>
    have hlookup : items.lookup key = none := by
      rw [List.lookup_eq_none_iff]
      intro p hp
      rw [bne_iff_ne]
      rintro rfl
      exact hnone (List.mem_map_of_mem hp)
    rw [List.lookup_append, hlookup]
    simp

theorem lookup_setItem_of_ne (h : key' ≠ key) :
    (setItem key value items).lookup key' = items.lookup key' := by
  unfold setItem
  split
  · exact Dict.lookup_overwrite_of_ne h value items
  · rw [List.lookup_append]
    simp [List.lookup_cons, beq_false_of_ne h]

theorem without_setItem : without key (setItem key value items) = without key items := by
  unfold without setItem
  split
  · next hmem =>
    clear hmem
    induction items with
    | nil => rfl
    | cons p items ih =>
      rw [Dict.overwrite_cons]
      by_cases hp : p.1 = key
      · rw [if_pos hp, List.filter_cons_of_neg (by simp), List.filter_cons_of_neg (by simp [hp]), ih]
      · rw [if_neg hp, List.filter_cons_of_pos (by simp [hp]), List.filter_cons_of_pos (by simp [hp]),
          ih]
  · simp

theorem lookup_without {hashKey : String} (h : key ≠ hashKey) :
    (without hashKey document).lookup key = document.lookup key := by
  unfold without
  induction document with
  | nil => rfl
  | cons p document ih =>
    rw [List.filter_cons, List.lookup_cons]
    split
    · rw [List.lookup_cons, ih]
    · next hp =>
      have hother : p.1 = hashKey := by simpa using hp
      rw [ih, beq_false_of_ne (by rw [hother]; exact h)]

theorem lookup_updateItems {updates : List (String × Value)}
    (h : (key, value) ∈ updates) (hlast : ∀ p ∈ updates, p.1 = key → p.2 = value) :
    (updateItems updates document).lookup key = some value := by
  unfold updateItems
  induction updates using List.reverseRecOn with
  | nil => cases h
  | append_singleton updates p ih =>
    rw [List.foldl_append, List.foldl_cons, List.foldl_nil]
    by_cases hp : p.1 = key
    · have hvalue := hlast p (List.mem_append_right _ List.mem_cons_self) hp
      rw [← hp, hvalue]
      exact lookup_setItem_self
    · rw [lookup_setItem_of_ne (Ne.symm hp)]
      refine ih ?_ (fun q hq => hlast q (List.mem_append_left _ hq))
      rcases List.mem_append.mp h with hmem | hmem
      · exact hmem
      · rw [← List.mem_singleton.mp hmem] at hp
        exact absurd rfl hp

end Documents

/-! ## Rows -/

/-- The id of the run of an evaluation -/
def baseRunId (rt : Runtime) (organizationId requestId payloadHash : String) : String :=
  graphId rt "evr" [organizationId, requestId, "BASE", payloadHash]

/-- The run that `persistBaseGraph` stores -/
def baseRun (rt : Runtime) (organizationId requestId briefId decisionId : String)
    (artifacts : GraphArtifacts) : EvaluationRun where
  id := baseRunId rt organizationId requestId artifacts.evaluationPayloadHash
  organizationId := organizationId
  purchaseRequestId := requestId
  purchaseBriefId := briefId
  decisionId := some decisionId
  runKind := .base
  inputPayloadHash := artifacts.inputPayloadHash
  evaluationPayloadHash := artifacts.evaluationPayloadHash
  selectedSolutionPlanId := artifacts.selectedPlanId

/-- The tables with a run and its plans, and the event that says so -/
def withGraph (db : PurchaseDb) (run : EvaluationRun) (plans : List EvaluationSolutionPlan) :
    PurchaseDb :=
  publish { db with
    evaluations := db.evaluations ++ [run]
    plans := db.plans ++ plans } {
      organizationId := run.organizationId
      aggregateType := "evaluation_run"
      aggregateId := run.id
      eventType := "evaluation_run.persisted"
      eventKey := "evaluation-run-persisted:" ++ run.evaluationPayloadHash
      payload := [("evaluation_run_id", .str run.id),
        ("evaluation_payload_hash", .str run.evaluationPayloadHash), ("run_kind", .str "BASE")] }

/-- What is checked of the graph of a decision before its rows are written. -/
structure GraphChecks (rt : Runtime) (organizationId requestId briefId decisionId : String)
    (artifacts : GraphArtifacts) (plans : List EvaluationSolutionPlan) : Prop where
  ledger : checkLedger rt requestId briefId decisionId artifacts = .ok ()
  terms : ∀ terms ∈ artifacts.commercialTerms, terms.1 ∈ artifacts.plans.map (·.planId)
  rows : artifacts.plans.mapM (solutionPlanRecord rt organizationId
    (baseRunId rt organizationId requestId artifacts.evaluationPayloadHash) artifacts) = .ok plans
  rowIds : (plans.map (·.id)).Nodup
  planIds : (plans.map (·.solutionPlanId)).Nodup
  selected : ∀ id, artifacts.selectedPlanId = some id → id ∈ plans.map (·.solutionPlanId)
  selectedRow : (plans.filter (·.selected)).map (·.solutionPlanId) = artifacts.selectedPlanId.toList

/-- No key of a run and its plans is taken. -/
structure GraphFree (run : EvaluationRun) (plans : List EvaluationSolutionPlan) (db : PurchaseDb) :
    Prop where
  id : ∀ r ∈ db.evaluations, r.id ≠ run.id
  payload : ∀ r ∈ db.evaluations, r.organizationId = run.organizationId →
    r.evaluationPayloadHash ≠ run.evaluationPayloadHash
  input : ∀ r ∈ db.evaluations, r.organizationId = run.organizationId →
    r.purchaseRequestId = run.purchaseRequestId → r.inputPayloadHash ≠ run.inputPayloadHash
  planIds : ∀ p ∈ plans, ∀ q ∈ db.plans, q.id ≠ p.id
  planHashes : (plans.map (·.planHash)).Nodup

section Rows

variable {rt : Runtime} {organizationId requestId briefId decisionId : String}
  {artifacts : GraphArtifacts} {plans : List EvaluationSolutionPlan} {db db' : PurchaseDb}

theorem solutionPlanRecord_eq_ok {runId : String} {plan : GraphPlan} {row : EvaluationSolutionPlan}
    (h : solutionPlanRecord rt organizationId runId artifacts plan = .ok row) :
    row.organizationId = organizationId ∧ row.evaluationRunId = runId ∧
      row.solutionPlanId = plan.planId ∧
      row.id = graphId rt "esp" [organizationId, runId, plan.planId] ∧
      textOf (row.payload.lookup "solution_plan_id") = some plan.planId ∧
      row.planHash = "sha256:" ++ rt.hexdigest (.obj row.payload) := by
  unfold solutionPlanRecord at h
  obtain ⟨document, hdocument, h⟩ := bind_eq_ok.mp h
  obtain ⟨planHash, hhash, h⟩ := bind_eq_ok.mp h
  cases h
  refine ⟨rfl, rfl, rfl, rfl, ?_, (contentDigest_eq_ok.mp hhash).2⟩
  have hid := List.find?_some (firstOr_eq_ok hdocument)
  rw [decide_eq_true_eq] at hid
  dsimp only
  split
  · rw [lookup_setItem_of_ne (by decide)]
    exact hid
  · exact hid

theorem persistBaseGraph_iff :
    persistBaseGraph rt organizationId requestId briefId decisionId artifacts db = .ok db' ↔
      ∃ plans, GraphChecks rt organizationId requestId briefId decisionId artifacts plans ∧
        GraphFree (baseRun rt organizationId requestId briefId decisionId artifacts) plans db ∧
        db' = withGraph db (baseRun rt organizationId requestId briefId decisionId artifacts)
          plans := by
  have hrow : ∀ {plans : List EvaluationSolutionPlan}, artifacts.plans.mapM
      (solutionPlanRecord rt organizationId
        (baseRunId rt organizationId requestId artifacts.evaluationPayloadHash) artifacts) =
        .ok plans → ∀ p ∈ plans, p.organizationId = organizationId ∧
          p.evaluationRunId = baseRunId rt organizationId requestId artifacts.evaluationPayloadHash := by
    intro plans hplans p hp
    obtain ⟨plan, -, hplan⟩ := (mem_of_mapM_eq_ok hplans).mp hp
    obtain ⟨htenant, hrun, -⟩ := solutionPlanRecord_eq_ok hplan
    exact ⟨htenant, hrun⟩
  unfold persistBaseGraph
  rw [check_bind_eq_ok, unless_throw_eq_ok, bind_eq_ok]
  unfold addEvaluationGraph
  simp only [check_bind_eq_ok, unless_throw_eq_ok, constrain_eq_ok,
    pure_eq_ok, List.any_eq_false, decide_eq_true_eq, decide_eq_false_iff_not, not_not,
    not_exists, not_and]
  constructor
  · rintro ⟨hledger, hterms, plans, hrows, -, hids, hplanIds, hselected, hselectedRow, -, hid,
      hpayload, hinput, hplanRows, hhashes, rfl⟩
    refine ⟨plans, ⟨hledger, hterms, hrows, hids, hplanIds, hselected, hselectedRow⟩,
      ⟨hid, hpayload, hinput, fun p hp q hq hsame => ?_, hhashes⟩, rfl⟩
    exact hplanRows p hp (List.any_eq_true.mpr ⟨q, hq, decide_eq_true hsame⟩)
  · rintro ⟨plans, hchecks, hfree, rfl⟩
    refine ⟨hchecks.ledger, hchecks.terms, plans, hchecks.rows, ?_, hchecks.rowIds, hchecks.planIds,
      hchecks.selected, hchecks.selectedRow, fun p hp => (hrow hchecks.rows p hp).2, hfree.id,
      hfree.payload, hfree.input, fun p hp htaken => ?_, hfree.planHashes, rfl⟩
    · rintro (hself | ⟨p, hp, htenant⟩)
      · exact hself rfl
      · exact htenant (hrow hchecks.rows p hp).1
    · obtain ⟨q, hq, hsame⟩ := List.any_eq_true.mp htaken
      exact hfree.planIds p hp q hq (of_decide_eq_true hsame)

end Rows

/-! ## Decisions -/

/-- What is checked before a decision is stored, with the hash of its ledger, the snapshot that
    its patch changes and the rows of its plans. -/
structure DecisionChecks (rt : Runtime) (organizationId requestId briefId : String)
    (source : DecisionSourceSnapshot) (artifacts : GraphArtifacts) (given : PurchaseGiven)
    (db : PurchaseDb) (decisionHash : String) (snapshot : StackSnapshot)
    (plans : List EvaluationSolutionPlan) : Prop where
  hash : textMember "decision_hash" artifacts.ledger = .ok decisionHash
  snapshot : db.snapshots.find? (fun s =>
    s.organizationId = organizationId ∧ s.id = source.stackSnapshotId) = some snapshot
  graph : GraphChecks rt organizationId requestId briefId ("dec_" ++ given.uuid "dec") artifacts plans

/-- No key of a decision is taken. -/
structure DecisionFree (d : DecisionRecord) (db : PurchaseDb) : Prop where
  id : ∀ x ∈ db.decisions, x.id ≠ d.id
  hash : ∀ x ∈ db.decisions, x.organizationId = d.organizationId → x.decisionHash ≠ d.decisionHash
  version : ∀ x ∈ db.decisions, x.organizationId = d.organizationId →
    x.purchaseRequestId = d.purchaseRequestId → x.version ≠ d.version
  patch : ∀ p ∈ db.patches, p.id ≠ "patch_" ++ d.id

/-- The patch of a decision -/
def patchOf (d : DecisionRecord) (snapshot : StackSnapshot) (artifacts : GraphArtifacts) :
    StackPatch where
  id := "patch_" ++ d.id
  organizationId := d.organizationId
  baseSnapshotId := snapshot.id
  baseVersion := artifacts.patch.baseSnapshot
  state := artifacts.patch.status
  payload := artifacts.patch.payload
  patchHash := artifacts.patch.contentHash

/-- The tables with a decision and its patch -/
def withDecision (db : PurchaseDb) (d : DecisionRecord) (patch : StackPatch) : PurchaseDb :=
  { db with
    decisions := db.decisions ++ [d]
    patches := db.patches ++ [patch] }

section Decisions

variable {rt : Runtime} {organizationId requestId briefId : String}
  {source : DecisionSourceSnapshot} {snapshotMissing : QualificationError}
  {artifacts : GraphArtifacts} {given : PurchaseGiven} {d : DecisionRecord} {db db' : PurchaseDb}

theorem addDecision_iff :
    db.addDecision d = .ok db' ↔
      (∀ x ∈ db.decisions, x.id ≠ d.id) ∧
      (∀ x ∈ db.decisions, x.organizationId = d.organizationId → x.decisionHash ≠ d.decisionHash) ∧
      (∀ x ∈ db.decisions, x.organizationId = d.organizationId →
        x.purchaseRequestId = d.purchaseRequestId → x.version ≠ d.version) ∧
      { db with decisions := db.decisions ++ [d] } = db' := by
  unfold PurchaseDb.addDecision
  simp only [check_bind_eq_ok, constrain_eq_ok, pure_eq_ok, List.any_eq_false,
    decide_eq_true_eq, not_and, ne_eq]

theorem addPatch_iff {patch : StackPatch} :
    db.addPatch patch = .ok db' ↔
      (∀ p ∈ db.patches, p.id ≠ patch.id) ∧ { db with patches := db.patches ++ [patch] } = db' := by
  unfold addPatch
  simp only [check_bind_eq_ok, constrain_eq_ok, pure_eq_ok, List.any_eq_false,
    decide_eq_true_eq, ne_eq]

theorem firstOr_iff {α : Type} {error : QualificationError} {x : Option α} {a : α} :
    firstOr error x = .ok a ↔ x = some a := by
  refine ⟨firstOr_eq_ok, ?_⟩
  rintro rfl
  rfl

theorem recordDecision_iff :
    recordDecision rt organizationId requestId briefId source snapshotMissing artifacts given db =
        .ok (d, db') ↔
      ∃ decisionHash snapshot plans,
        DecisionChecks rt organizationId requestId briefId source artifacts given db decisionHash
          snapshot plans ∧
        d = decisionOf organizationId requestId briefId decisionHash artifacts
          (db.latestDecision organizationId requestId) given ∧
        DecisionFree d db ∧
        GraphFree (baseRun rt organizationId requestId briefId d.id artifacts) plans db ∧
        db' = withGraph (withDecision db d (patchOf d snapshot artifacts))
          (baseRun rt organizationId requestId briefId d.id artifacts) plans := by
  unfold recordDecision
  simp only [bind_eq_ok, firstOr_iff, addDecision_iff, addPatch_iff, persistBaseGraph_iff,
    pure_eq_ok]
  constructor
  · rintro ⟨decisionHash, hhash, snapshot, hsnapshot, _, ⟨hid, hdecisionHash, hversion, rfl⟩, _,
      ⟨hpatch, rfl⟩, _, ⟨plans, hchecks, hfree, rfl⟩, h⟩
    obtain ⟨rfl, rfl⟩ := Prod.mk.inj h
    exact ⟨decisionHash, snapshot, plans, ⟨hhash, hsnapshot, hchecks⟩, rfl,
      ⟨hid, hdecisionHash, hversion, hpatch⟩, ⟨hfree.id, hfree.payload, hfree.input, hfree.planIds,
        hfree.planHashes⟩, rfl⟩
  · rintro ⟨decisionHash, snapshot, plans, hchecks, rfl, hdecision, hgraph, rfl⟩
    exact ⟨decisionHash, hchecks.hash, snapshot, hchecks.snapshot, _,
      ⟨hdecision.id, hdecision.hash, hdecision.version, rfl⟩, _, ⟨hdecision.patch, rfl⟩, _,
      ⟨plans, hchecks.graph, ⟨hgraph.id, hgraph.payload, hgraph.input, hgraph.planIds,
        hgraph.planHashes⟩, rfl⟩, rfl⟩

end Decisions

/-! ## Calls -/

/-- The brief of a request that a discovery evaluates -/
def currentBrief (organizationId requestId : String) (db : PurchaseDb) :
    Option PurchaseBriefVersion :=
  Table.latest (·.version) (db.briefs.filter (fun b =>
    b.organizationId = organizationId ∧ b.purchaseRequestId = requestId))

/-- What a discovery checks of its request, and what it finds. -/
structure DiscoveryChecks (s : WorkflowService) (organizationId requestId : String)
    (artifacts : GraphArtifacts) (given : PurchaseGiven) (db : PurchaseDb)
    (brief : PurchaseBriefVersion) (decisionHash : String) (snapshot : StackSnapshot)
    (plans : List EvaluationSolutionPlan) : Prop where
  request : ∃ request, db.getPurchaseRequest organizationId requestId = .ok request ∧
    request.scenarioId = some demoScenarioId
  current : currentBrief organizationId requestId db = some brief
  requirement : ∃ requirement, Table.latest (·.version) (db.requirements.filter (fun b =>
    b.organizationId = organizationId ∧ b.purchaseRequestId = requestId ∧
      b.purchaseBriefId = brief.id)) = some requirement
  decision : ∃ source, db.getDecisionSourceSnapshot organizationId s.rt requestId brief.id =
      .ok source ∧
    DecisionChecks s.rt organizationId requestId brief.id source artifacts given db decisionHash
      snapshot plans

/-- The decision that a discovery appends -/
def nextDecision (organizationId requestId briefId decisionHash : String)
    (artifacts : GraphArtifacts) (given : PurchaseGiven) (db : PurchaseDb) : DecisionRecord :=
  decisionOf organizationId requestId briefId decisionHash artifacts
    (db.latestDecision organizationId requestId) given

/-- No key of the rows of a discovery is taken. -/
structure DiscoveryFree (rt : Runtime) (artifacts : GraphArtifacts) (d : DecisionRecord)
    (plans : List EvaluationSolutionPlan) (db : PurchaseDb) : Prop where
  decision : DecisionFree d db
  graph : GraphFree
    (baseRun rt d.organizationId d.purchaseRequestId d.purchaseBriefId d.id artifacts) plans db
  workflow : ∀ w ∈ db.workflows, w.id ≠ discoveryId d.purchaseRequestId d.version

/-- The tables after a discovery -/
def withDiscovery (rt : Runtime) (artifacts : GraphArtifacts) (d : DecisionRecord)
    (snapshot : StackSnapshot) (plans : List EvaluationSolutionPlan) (db : PurchaseDb) : PurchaseDb :=
  let stored := withGraph (withDecision db d (patchOf d snapshot artifacts))
    (baseRun rt d.organizationId d.purchaseRequestId d.purchaseBriefId d.id artifacts) plans
  { stored with
    requests := Table.update (·.id) d.purchaseRequestId (fun r => { r with
      status := "DECISION_READY" }) stored.requests
    workflows := stored.workflows ++ [{
      id := discoveryId d.purchaseRequestId d.version
      organizationId := d.organizationId
      aggregateId := d.purchaseRequestId
      operation := "discover"
      resultReference := "/v1/decisions/" ++ d.id }] }

section Calls

variable {s : WorkflowService} {organizationId actorId requestId : String}
  {artifacts : GraphArtifacts} {given : PurchaseGiven} {db db' : PurchaseDb}

theorem sourceUnavailable_iff {α : Type} {message : String} {x : Qualified α} {a : α} :
    sourceUnavailable message x = .ok a ↔ x = .ok a := by
  refine ⟨sourceUnavailable_eq_ok, ?_⟩
  rintro rfl
  rfl

theorem notFound_iff {α : Type} {kind : String} {x : Qualified α} {a : α} :
    notFound kind x = .ok a ↔ x = .ok a := by
  refine ⟨notFound_eq_ok, ?_⟩
  rintro rfl
  rfl

theorem scalarOne_iff {α : Type} {x : Option α} {a : α} : scalarOne x = .ok a ↔ x = some a := by
  refine ⟨scalarOne_eq_ok, ?_⟩
  rintro rfl
  rfl

theorem addWorkflow_iff {record : WorkflowRun} :
    db.addWorkflow record = .ok db' ↔
      (∀ w ∈ db.workflows, w.id ≠ record.id) ∧
        { db with workflows := db.workflows ++ [record] } = db' := by
  unfold addWorkflow
  simp only [check_bind_eq_ok, constrain_eq_ok, pure_eq_ok, List.any_eq_false,
    decide_eq_true_eq, ne_eq]

theorem workflows_withGraph (db : PurchaseDb) (run : EvaluationRun)
    (plans : List EvaluationSolutionPlan) : (withGraph db run plans).workflows = db.workflows :=
  congrArg (fun frame => frame.2.workflows) (frame_publish _)

/-- The work of a discovery appends a decision exactly when its checks pass and its keys are
    free. -/
theorem discoverWork_iff :
    (∃ reply, discoverWork s organizationId requestId (.ok artifacts) given db = .ok (reply, db')) ↔
      ∃ brief decisionHash snapshot plans,
        DiscoveryChecks s organizationId requestId artifacts given db brief decisionHash snapshot
          plans ∧
        DiscoveryFree s.rt artifacts
          (nextDecision organizationId requestId brief.id decisionHash artifacts given db) plans db ∧
        db' = withDiscovery s.rt artifacts
          (nextDecision organizationId requestId brief.id decisionHash artifacts given db) snapshot
          plans db := by
  unfold discoverWork
  simp only [bind_eq_ok, unless_throw_eq_ok, notFound_iff, scalarOne_iff,
    sourceUnavailable_iff, ok_bind, recordDecision_iff, addWorkflow_iff,
    pure_eq_ok, Prod.exists]
  constructor
  · rintro ⟨reply, request, hrequest, hscenario, brief, hbrief, requirement, hrequirement, source,
      hsource, d, db₁, ⟨decisionHash, snapshot, plans, hchecks, rfl, hdecision, hgraph, rfl⟩, _,
      ⟨hworkflow, rfl⟩, h⟩
    obtain ⟨-, rfl⟩ := Prod.mk.inj h
    rw [workflows_withGraph] at hworkflow
    exact ⟨brief, decisionHash, snapshot, plans, ⟨⟨request, hrequest, not_not.mp hscenario⟩, hbrief,
      ⟨requirement, hrequirement⟩, source, hsource, hchecks⟩, ⟨hdecision, hgraph, hworkflow⟩, rfl⟩
  · rintro ⟨brief, decisionHash, snapshot, plans, hchecks, hfree, rfl⟩
    obtain ⟨request, hrequest, hscenario⟩ := hchecks.request
    obtain ⟨requirement, hrequirement⟩ := hchecks.requirement
    obtain ⟨source, hsource, hdecision⟩ := hchecks.decision
    refine ⟨_, request, hrequest, not_not.mpr hscenario, brief, hchecks.current, requirement,
      hrequirement, source, hsource, _, _, ⟨decisionHash, snapshot, plans, hdecision, rfl,
        hfree.decision, hfree.graph, rfl⟩, _, ⟨?_, rfl⟩, rfl⟩
    rw [workflows_withGraph]
    exact hfree.workflow

/-- A key that no call used, and ids that no row has. -/
structure FreshDiscovery (organizationId actorId idempotencyKey : String) (given : PurchaseGiven)
    (db : PurchaseDb) : Prop where
  key : recordOf ⟨organizationId, actorId, "purchase_requests.discover", idempotencyKey⟩
    db.records = none
  recordId : ∀ r ∈ db.records, r.id ≠ "idem_" ++ given.uuid "idem"
  decisionId : ∀ d ∈ db.decisions, d.id ≠ "dec_" ++ given.uuid "dec"
  patchId : ∀ p ∈ db.patches, p.id ≠ "patch_" ++ ("dec_" ++ given.uuid "dec")

/-- A new latest decision of the request, after the one there was. -/
def AppendsDecision (organizationId requestId : String) (db db' : PurchaseDb) : Prop :=
  ∃ d, db'.latestDecision organizationId requestId = some d ∧
    d.version = ((db.latestDecision organizationId requestId).map (·.version)).getD 0 + 1 ∧
    d.supersedesId = (db.latestDecision organizationId requestId).map (·.id)

theorem keyed_of_fresh {operation idempotencyKey : String} (requestHash : String) (status : Int)
    (work : PurchaseDb → Qualified (KeyedReply × PurchaseDb)) (I : PurchaseDb → Prop)
    (hkey : recordOf ⟨organizationId, actorId, operation, idempotencyKey⟩ db.records = none)
    (hid : ∀ r ∈ db.records, r.id ≠ "idem_" ++ given.uuid "idem")
    (htenant : organizationId ∈ db.tables.organizations)
    (hI : ∀ db workspace, I { db with toWorkspace := workspace } ↔ I db) :
    ∃ claimed, (∃ answer db', keyed organizationId actorId operation idempotencyKey requestHash status
        work given db = .ok (answer, db') ∧ I db') ↔
      ∃ reply after, work { db with toWorkspace := claimed } = .ok (reply, after) ∧ I after := by
  have hclaim : ∃ record claimed, record.organizationId = organizationId ∧
      claimIdempotency ⟨organizationId, actorId, operation, idempotencyKey⟩ requestHash given.toGiven
        db.toWorkspace = .ok (⟨record, false⟩, claimed) := by
    unfold claimIdempotency
    rw [hkey]
    dsimp only
    rw [if_neg]
    · exact ⟨_, _, rfl, rfl⟩
    · rw [Bool.or_eq_true, List.any_eq_true, decide_eq_true_eq]
      rintro (⟨r, hr, hsame⟩ | hforeign)
      · exact hid r hr (of_decide_eq_true hsame)
      · exact hforeign htenant
  obtain ⟨record, claimed, hrecord, hclaim⟩ := hclaim
  refine ⟨claimed, ?_⟩
  unfold keyed completeIdempotency
  rw [hclaim, ok_bind]
  simp only [Bool.false_eq_true, ↓reduceIte, bind_eq_ok, Prod.exists, pure_eq_ok]
  constructor
  · rintro ⟨answer, db', ⟨reply, after, hwork, completed, -, h⟩, hdb'⟩
    obtain ⟨-, rfl⟩ := Prod.mk.inj h
    exact ⟨reply, after, hwork, (hI _ _).mp hdb'⟩
  · rintro ⟨reply, after, hwork, hafter⟩
    refine ⟨_, _, ⟨reply, after, hwork, _, if_neg (not_not.mpr hrecord), rfl⟩, ?_⟩
    exact (hI _ _).mpr hafter

variable {decisionHash : String} {snapshot : StackSnapshot}

theorem version_nextDecision {briefId : String} :
    (nextDecision organizationId requestId briefId decisionHash artifacts given db).version =
      ((db.latestDecision organizationId requestId).map (·.version)).getD 0 + 1 := by
  unfold nextDecision decisionOf
  cases db.latestDecision organizationId requestId with
  | none => rfl
  | some previous => rfl

theorem version_lt_nextDecision {briefId : String} {x : DecisionRecord} (hx : x ∈ db.decisions)
    (htenant : x.organizationId = organizationId)
    (hrequest : x.purchaseRequestId = requestId) : x.version <
      (nextDecision organizationId requestId briefId decisionHash artifacts given db).version := by
  rw [version_nextDecision]
  cases hlatest : db.latestDecision organizationId requestId with
  | none => exact absurd hrequest (latestDecision_eq_none hlatest x hx htenant)
  | some previous =>
    obtain ⟨-, -, -, hmax⟩ := latestDecision_eq_some hlatest
    exact Nat.lt_succ_of_le (hmax x hx htenant hrequest)

theorem decisions_withDiscovery {rt : Runtime} {d : DecisionRecord}
    {plans : List EvaluationSolutionPlan} :
    (withDiscovery rt artifacts d snapshot plans db).decisions = db.decisions ++ [d] := by
  unfold withDiscovery withGraph publish
  dsimp only
  split <;> rfl

theorem appends_withDiscovery {rt : Runtime} {briefId : String}
    {plans : List EvaluationSolutionPlan} :
    AppendsDecision organizationId requestId db (withDiscovery rt artifacts
      (nextDecision organizationId requestId briefId decisionHash artifacts given db) snapshot plans
      db) := by
  refine ⟨nextDecision organizationId requestId briefId decisionHash artifacts given db, ?_,
    version_nextDecision, rfl⟩
  unfold latestDecision
  have hself : List.filter (fun d => decide (d.organizationId = organizationId ∧
      d.purchaseRequestId = requestId))
      [nextDecision organizationId requestId briefId decisionHash artifacts given db] =
        [nextDecision organizationId requestId briefId decisionHash artifacts given db] :=
    List.filter_cons_of_pos (decide_eq_true ⟨rfl, rfl⟩)
  rw [decisions_withDiscovery, List.filter_append, hself]
  refine Table.latest_append (fun x hx => ?_)
  obtain ⟨hx, hof⟩ := List.mem_filter.mp hx
  obtain ⟨htenant, hrequest⟩ := of_decide_eq_true hof
  exact version_lt_nextDecision hx htenant hrequest

theorem discoveryChecks_workspace (workspace : Workspace) {brief : PurchaseBriefVersion}
    {plans : List EvaluationSolutionPlan} :
    DiscoveryChecks s organizationId requestId artifacts given { db with toWorkspace := workspace }
      brief decisionHash snapshot plans ↔
      DiscoveryChecks s organizationId requestId artifacts given db brief decisionHash snapshot
        plans := by
  constructor
  all_goals
    rintro ⟨hrequest, hcurrent, hrequirement, source, hsource, hhash, hsnapshot, hgraph⟩
    exact ⟨hrequest, hcurrent, hrequirement, source, hsource, hhash, hsnapshot, hgraph⟩

theorem discoveryFree_workspace (workspace : Workspace) {rt : Runtime} {d : DecisionRecord}
    {plans : List EvaluationSolutionPlan} :
    DiscoveryFree rt artifacts d plans { db with toWorkspace := workspace } ↔
      DiscoveryFree rt artifacts d plans db := by
  constructor
  all_goals
    rintro ⟨⟨hid, hhash, hversion, hpatch⟩, ⟨hrun, hpayload, hinput, hplans, hhashes⟩, hworkflow⟩
    exact ⟨⟨hid, hhash, hversion, hpatch⟩, ⟨hrun, hpayload, hinput, hplans, hhashes⟩, hworkflow⟩

/-- A discovery under a fresh key appends a decision exactly when its checks pass and its keys are
    free. -/
theorem discover_iff {idempotencyKey : String}
    (hfresh : FreshDiscovery organizationId actorId idempotencyKey given db)
    (htenant : organizationId ∈ db.tables.organizations) (hfixtures : s.fixtures = true) :
    (∃ answer db', discover s organizationId actorId requestId idempotencyKey (.ok artifacts) given
        db = .ok (answer, db') ∧ AppendsDecision organizationId requestId db db') ↔
      ∃ brief decisionHash snapshot plans,
        DiscoveryChecks s organizationId requestId artifacts given db brief decisionHash snapshot
          plans ∧
        DiscoveryFree s.rt artifacts
          (nextDecision organizationId requestId brief.id decisionHash artifacts given db) plans
          db := by
  obtain ⟨requestHash, hdigest⟩ : ∃ hash, contentDigest s.rt (.obj
      [("request_id", .str requestId), ("operation", .str "discover")]) = .ok hash := by
    rw [exists_contentDigest_eq_ok]
    simp [Value.canonical_obj, Value.canonical_str]
  unfold discover fixtureBundle
  rw [if_pos hfixtures, ok_bind, hdigest, ok_bind]
  obtain ⟨claimed, hkeyed⟩ := keyed_of_fresh requestHash 202
    (discoverWork s organizationId requestId (.ok artifacts) given)
    (AppendsDecision organizationId requestId db) hfresh.key hfresh.recordId htenant
    (fun _ _ => Iff.rfl)
  rw [hkeyed]
  constructor
  · rintro ⟨reply, after, hwork, -⟩
    obtain ⟨brief, decisionHash, snapshot, plans, hchecks, hfree, -⟩ :=
      discoverWork_iff.mp ⟨reply, hwork⟩
    exact ⟨brief, decisionHash, snapshot, plans, (discoveryChecks_workspace claimed).mp hchecks,
      (discoveryFree_workspace claimed).mp hfree⟩
  · rintro ⟨brief, decisionHash, snapshot, plans, hchecks, hfree⟩
    obtain ⟨reply, hwork⟩ := discoverWork_iff.mpr ⟨brief, decisionHash, snapshot, plans,
      (discoveryChecks_workspace claimed).mpr hchecks, (discoveryFree_workspace claimed).mpr hfree,
      rfl⟩
    exact ⟨reply, _, hwork, appends_withDiscovery⟩

end Calls

end SiraApi
