-- SUMMARY: What one purchase transaction can do to decisions, intents, approvals and handoffs, and what every run of them keeps.
import SiraSeil.SiraApi.PurchaseApprovals

/-!
# Runs of purchase transactions

`PurchaseStep` says once what a committed transaction does to the tables from decisions to
handoffs; each operation has its own inversion lemma, and everything that runs keep is derived
from the relation.
-/

namespace SiraApi

open Domain Persistence PurchaseDb PurchaseCore Raising

/-! ## Latest decisions -/

/-- No decision of the request has a higher version. -/
def Latest (core : PurchaseCore) (d : DecisionRecord) : Prop :=
  ∀ x ∈ core.decisions, x.organizationId = d.organizationId →
    x.purchaseRequestId = d.purchaseRequestId → x.version ≤ d.version

/-- The decision of an intent is the latest of its request. -/
def OnLatest (core : PurchaseCore) (intent : PurchaseIntent) : Prop :=
  ∃ d ∈ core.decisions, d.id = intent.decisionId ∧ d.organizationId = intent.organizationId ∧
    Latest core d

/-- A decision under a new id, after all others of its request. -/
structure Appended (core : PurchaseCore) (d : DecisionRecord) : Prop where
  fresh : ∀ x ∈ core.decisions, x.id ≠ d.id
  newest : ∀ x ∈ core.decisions, x.organizationId = d.organizationId →
    x.purchaseRequestId = d.purchaseRequestId → x.version < d.version
  source : ∀ id, d.supersedesId = some id → ∃ x ∈ core.decisions, x.id = id ∧
    x.organizationId = d.organizationId ∧ x.purchaseRequestId = d.purchaseRequestId
  first : d.supersedesId = none → d.selection = none

/-- The evaluation that is stored with a decision, and its plans. -/
structure Evaluated (core : PurchaseCore) (d : DecisionRecord) (run : EvaluationRun)
    (plans : List EvaluationSolutionPlan) : Prop where
  base : IsBaseOf d.organizationId d.id run
  fresh : ∀ r ∈ core.evaluations, r.id ≠ run.id
  plans : ∀ p ∈ plans, p.evaluationRunId = run.id
  own : d.selection = none

/-- The tables with a decision and its evaluation -/
def withEvaluation (core : PurchaseCore) (d : DecisionRecord) (run : EvaluationRun)
    (plans : List EvaluationSolutionPlan) (patch : StackPatch) : PurchaseCore :=
  { core with
    decisions := core.decisions ++ [d]
    evaluations := core.evaluations ++ [run]
    plans := core.plans ++ plans
    patches := core.patches ++ [patch] }

/-- The intents of the earlier decisions of the request are retired. -/
def EarlierRetired (core core' : PurchaseCore) (d : DecisionRecord) : Prop :=
  ∀ i ∈ core.intents, i.organizationId = d.organizationId →
    (∃ x ∈ core.decisions, x.id = i.decisionId ∧ x.organizationId = d.organizationId ∧
      x.purchaseRequestId = d.purchaseRequestId) → Retired d.organizationId i.id core'

/-! ## Approvals -/

/-- An approval request after a stage, approved at the last one. -/
def staged (approval : ApprovalRequest) (role : String) : ApprovalRequest :=
  let next := withRole approval role
  if next.approvedRoles = next.requiredRoles then { next with status := .approved } else next

/-- The tables after a stage, with the intent approved at the last one. -/
def withStage (core : PurchaseCore) (approval : ApprovalRequest) (intent : PurchaseIntent)
    (role : String) : PurchaseCore :=
  { core with
    approvals := Table.update (·.id) approval.id (fun _ => staged approval role) core.approvals
    intents := if (withRole approval role).approvedRoles = approval.requiredRoles then
        Table.update (·.id) intent.id (fun i => { i with approvalStatus := .approved }) core.intents
      else core.intents }

/-- The tables with an approval and its intent ended in a status -/
def withEnd (core : PurchaseCore) (approvalId intentId : String) (status : ApprovalStatus) :
    PurchaseCore :=
  { core with
    approvals := Table.update (·.id) approvalId (fun a => { a with status := status }) core.approvals
    intents := Table.update (·.id) intentId (fun i => { i with
      approvalStatus := status }) core.intents }

/-- The handoffs once the one of an approval that can be opened is cancelled -/
def withoutReady (organizationId approvalId : String) (handoffs : List PaymentHandoff) :
    List PaymentHandoff :=
  match handoffs.find? (fun h => h.organizationId = organizationId ∧
      h.approvalRequestId = approvalId ∧ h.status = .ready) with
  | some handoff => Table.update (·.id) handoff.id (fun h => { h with status := .cancelled }) handoffs
  | none => handoffs

/-- The event of an approve call -/
def approveEvent (t : PurchaseTransaction) (approvalId : String) (body : ApprovalBody) :
    ApprovalEvent :=
  approvalEvent t.organizationId t.actorId approvalId body .approve
    ("approve:" ++ approvalId ++ ":" ++ body.actorRole ++ ":" ++ t.actorId) t.given

/-- The event of a reject call -/
def rejectEvent (t : PurchaseTransaction) (approvalId : String) (body : ApprovalBody) :
    ApprovalEvent :=
  approvalEvent t.organizationId t.actorId approvalId body .reject
    ("reject:" ++ approvalId ++ ":" ++ body.actorRole ++ ":" ++ t.actorId) t.given

/-- The event of a revoke call -/
def revokeEvent (t : PurchaseTransaction) (approvalId : String) (body : ApprovalBody) :
    ApprovalEvent :=
  approvalEvent t.organizationId t.actorId approvalId body .revoke
    ("revoke:" ++ approvalId ++ ":" ++ t.actorId) t.given

/-- An approval request with its intent, under one tenant -/
structure BoundApproval (core : PurchaseCore) (organizationId : String) (approval : ApprovalRequest)
    (intent : PurchaseIntent) : Prop where
  mem : approval ∈ core.approvals
  intentMem : intent ∈ core.intents
  of : intent.id = approval.purchaseIntentId
  tenant : approval.organizationId = organizationId
  intentTenant : intent.organizationId = organizationId

/-- An approval request on which events are recorded -/
def IsOpen (approval : ApprovalRequest) : Prop :=
  approval.status = .pending ∨ approval.status = .approved

/-- A call approves or rejects. -/
def Decides (call : PurchaseCall) (approver : Approver) (approvalId : String)
    (body : ApprovalBody) : Prop :=
  call = .approve approver approvalId body ∨ call = .rejectApproval approver approvalId body

/-- The ids of intents, approvals and handoffs are keys. -/
structure KeyedIds (core : PurchaseCore) : Prop where
  intents : Table.Keyed (fun (i : PurchaseIntent) => i.id) core.intents
  approvals : Table.Keyed (fun (a : ApprovalRequest) => a.id) core.approvals
  handoffs : Table.Keyed (fun (h : PaymentHandoff) => h.id) core.handoffs

/-! ## Steps -/

/-- What a committed transaction does to the tables from decisions to handoffs. -/
inductive PurchaseStep (s : WorkflowService) (t : PurchaseTransaction) (core : PurchaseCore) :
    PurchaseCore → Prop
  | stays : PurchaseStep s t core core
  | discovers {requestId : String} {artifacts : Qualified GraphArtifacts} {d : DecisionRecord}
      {run : EvaluationRun} {plans : List EvaluationSolutionPlan} {patch : StackPatch}
      (hcall : t.call = .discover requestId artifacts)
      (htenant : d.organizationId = t.organizationId) (hrequest : d.purchaseRequestId = requestId)
      (happended : Appended core d) (hevaluated : Evaluated core d run plans) :
      PurchaseStep s t core (withEvaluation core d run plans patch)
  | accepts {roles : List String} {stepUpVerified : Bool} {briefId proposalId reason : String}
      {artifacts : Qualified GraphArtifacts} {d : DecisionRecord} {run : EvaluationRun}
      {plans : List EvaluationSolutionPlan} {patch : StackPatch} {core' : PurchaseCore}
      (hcall : t.call = .decideProposal roles stepUpVerified briefId proposalId true reason artifacts)
      (htenant : d.organizationId = t.organizationId)
      (happended : Appended core d) (hevaluated : Evaluated core d run plans)
      (hretires : Retires t.organizationId (withEvaluation core d run plans patch) core')
      (hretired : EarlierRetired core core' d) : PurchaseStep s t core core'
  | selects {roles : List String} {party : Option String}
      {decisionId solutionPlanId decisionHash : String} {decisionVersion : Nat}
      {d : DecisionRecord} {core' : PurchaseCore}
      (hcall : t.call = .selectPlan roles party decisionId solutionPlanId decisionHash decisionVersion)
      (htenant : d.organizationId = t.organizationId)
      (happended : Appended core d) (hselection : d.selection.isSome)
      (hretires : Retires t.organizationId { core with decisions := core.decisions ++ [d] } core')
      (hretired : EarlierRetired core core' d) : PurchaseStep s t core core'
  | locks {decisionId : String} {requestedPlanId : Option String} {intent : PurchaseIntent}
      {d : DecisionRecord} (hcall : t.call = .lockPurchaseIntent decisionId requestedPlanId)
      (hd : d ∈ core.decisions)
      (hid : d.id = intent.decisionId) (htenant : d.organizationId = intent.organizationId)
      (hfresh : ∀ i ∈ core.intents, i.id ≠ intent.id)
      (hstatus : intent.approvalStatus = .notRequested) :
      PurchaseStep s t core { core with intents := core.intents ++ [intent] }
  | requests {approval : ApprovalRequest} {intent : PurchaseIntent}
      (hcall : t.call = .createApprovalRequest intent.id) (hintent : intent ∈ core.intents)
      (hnone : intent.approvalStatus = .notRequested) (hof : approval.purchaseIntentId = intent.id)
      (htenant : approval.organizationId = intent.organizationId)
      (hhash : approval.intentHash = intent.intentHash) (hpending : approval.status = .pending)
      (hroles : approval.requiredRoles ≠ [] ∧ approval.requiredRoles.Nodup)
      (hstart : approval.approvedRoles = []) (hfresh : ∀ a ∈ core.approvals, a.id ≠ approval.id) :
      PurchaseStep s t core { core with
        approvals := core.approvals ++ [approval]
        intents := Table.update (·.id) intent.id (fun i => { i with
          approvalStatus := .pending }) core.intents }
  | stages {approval : ApprovalRequest} {intent : PurchaseIntent} {approver : Approver}
      {body : ApprovalBody} (hcall : t.call = .approve approver approval.id body)
      (hof : BoundApproval core t.organizationId approval intent) (hlatest : OnLatest core intent)
      (hopen : IsOpen approval) (hheld : body.actorRole ∈ approver.roles)
      (hnext : approval.requiredRoles[approval.approvedRoles.length]? = some body.actorRole)
      (hhash : body.intentHash = approval.intentHash ∧ body.intentHash = intent.intentHash)
      (htime : approvalExpiryProblem approval intent t.given = none)
      (hseparate : body.actorRole ∉ approval.approvedRoles → ∀ e ∈ core.approvalEvents,
        e.organizationId = t.organizationId → e.approvalRequestId = approval.id →
        e.action = .approve → e.actorId ≠ t.actorId) :
      PurchaseStep s t core { withStage core approval intent body.actorRole with
        approvalEvents := recorded t.organizationId (approveEvent t approval.id body)
          core.approvalEvents }
  | rejects {approval : ApprovalRequest} {intent : PurchaseIntent} {approver : Approver}
      {body : ApprovalBody} (hcall : t.call = .rejectApproval approver approval.id body)
      (hof : BoundApproval core t.organizationId approval intent) (hopen : IsOpen approval) :
      PurchaseStep s t core { withEnd core approval.id intent.id .rejected with
        approvalEvents := recorded t.organizationId (rejectEvent t approval.id body)
          core.approvalEvents }
  | revokes {approval : ApprovalRequest} {intent : PurchaseIntent} {approver : Approver}
      {body : ApprovalBody} (hcall : t.call = .revokeApproval approver approval.id body)
      (hof : BoundApproval core t.organizationId approval intent) (hopen : IsOpen approval) :
      PurchaseStep s t core { withEnd core approval.id intent.id .revoked with
        approvalEvents := recorded t.organizationId (revokeEvent t approval.id body)
          core.approvalEvents
        handoffs := withoutReady t.organizationId approval.id core.handoffs }
  | expires {approval : ApprovalRequest} {intent : PurchaseIntent}
      (hof : BoundApproval core t.organizationId approval intent)
      (hover : (approvalExpiryProblem approval intent t.given).isSome)
      (hcause : (∃ approver body, Decides t.call approver approval.id body ∧
          approver.stepUpVerified = true ∧ OnLatest core intent) ∨
        t.call = .expirePurchaseApproval intent.id ∧ approval.status = .approved ∧
          intent.approvalStatus = .approved) :
      PurchaseStep s t core (withEnd core approval.id intent.id .expired)
  | hands {handoffHash : String} {approval : ApprovalRequest} {intent : PurchaseIntent}
      (hcall : t.call = .createPaymentHandoff intent.id)
      (hof : BoundApproval core t.organizationId approval intent)
      (hhash : approval.intentHash = intent.intentHash) (hlatest : OnLatest core intent)
      (happroved : intent.approvalStatus = .approved ∧ approval.status = .approved)
      (htime : approvalExpiryProblem approval intent t.given = none)
      (hnew : ∀ h ∈ core.handoffs, h.organizationId = t.organizationId →
        h.purchaseIntentId = intent.id → h.approvalRequestId ≠ approval.id)
      (hfresh : ∀ h ∈ core.handoffs,
        h.id ≠ (newHandoff t.organizationId intent approval t.given).id)
      (hchecked : checkHandoff s (newHandoff t.organizationId intent approval t.given) =
        .ok handoffHash) :
      PurchaseStep s t core { core with handoffs := core.handoffs ++
        [{ newHandoff t.organizationId intent approval t.given with handoffHash := handoffHash }] }
  | opens {handoff : PaymentHandoff} {approval : ApprovalRequest} {intent : PurchaseIntent}
      (hcall : t.call = .openPaymentHandoff handoff.id) (hhandoff : handoff ∈ core.handoffs)
      (hintent : intent ∈ core.intents ∧ intent.id = handoff.purchaseIntentId)
      (happroval : approval ∈ core.approvals ∧ approval.id = handoff.approvalRequestId)
      (happroved : intent.approvalStatus = .approved ∧ approval.status = .approved)
      (hhash : approval.intentHash = handoff.intentHash ∧ intent.intentHash = handoff.intentHash)
      (hready : handoff.status = .ready) (htime : t.given.now < handoff.expiresAt) :
      PurchaseStep s t core { core with
        handoffs := Table.update (·.id) handoff.id (fun _ => { handoff with
          status := .opened
          openedAt := some t.given.now }) core.handoffs }

/-! ## The operations -/

section Operations

variable {s : WorkflowService} {organizationId actorId : String} {given : PurchaseGiven}
  {db db' : PurchaseDb}

variable {approvalId briefId decisionId intentId operation requestHash requestId role : String}
  {answer : PurchaseAnswer} {t : PurchaseTransaction} {decision : DecisionRecord}
  {intent : PurchaseIntent} {artifacts : Qualified GraphArtifacts} {reply : KeyedReply}
  {roles : List String} {approval : ApprovalRequest} {approver : Approver} {body : ApprovalBody}

theorem keyed_eq_ok {idempotencyKey : String} {status : Int}
    {work : PurchaseDb → Qualified (KeyedReply × PurchaseDb)}
    (h : keyed organizationId actorId operation idempotencyKey requestHash status work given db =
      .ok (answer, db')) :
    db'.core = db.core ∨ ∃ before reply after, before.core = db.core ∧
      work before = .ok (reply, after) ∧ db'.core = after.core := by
  unfold keyed at h
  obtain ⟨⟨claim, claimed⟩, -, h⟩ := bind_eq_ok.mp h
  dsimp only at h
  split at h
  · cases h
    exact .inl rfl
  · obtain ⟨⟨reply, after⟩, hwork, h⟩ := bind_eq_ok.mp h
    obtain ⟨completed, -, h⟩ := bind_eq_ok.mp h
    cases h
    exact .inr ⟨{ db with toWorkspace := claimed }, reply, after, rfl, hwork, rfl⟩

theorem step_of_keyed {idempotencyKey : String} {status : Int}
    {work : PurchaseDb → Qualified (KeyedReply × PurchaseDb)}
    (hwork : ∀ before reply after, before.core = db.core → work before = .ok (reply, after) →
      PurchaseStep s t before.core after.core)
    (h : keyed organizationId actorId operation idempotencyKey requestHash status work given db =
      .ok (answer, db')) : PurchaseStep s t db.core db'.core := by
  rcases keyed_eq_ok h with hsame | ⟨before, reply, after, hbefore, hdone, hcore⟩
  · rw [hsame]
    exact .stays
  · rw [hcore, ← hbefore]
    exact hwork before reply after hbefore hdone

theorem requireCurrentDecision_eq_ok
    (h : requireCurrentDecision organizationId decision db = .ok ()) :
    ∃ d ∈ db.core.decisions, d.id = decision.id ∧ d.organizationId = organizationId ∧
      d.purchaseRequestId = decision.purchaseRequestId ∧ Latest db.core d := by
  unfold requireCurrentDecision at h
  obtain ⟨current, hcurrent, h⟩ := bind_eq_ok.mp h
  obtain ⟨hmem, htenant, hrequest, hlatest⟩ := latestDecision_eq_some (scalarOne_eq_ok hcurrent)
  split at h
  · cases h
  · next hsame =>
    refine ⟨current, hmem, not_not.mp hsame, htenant, hrequest, fun x hx horganization hof => ?_⟩
    exact hlatest x hx (horganization.trans htenant) (hof.trans hrequest)

theorem latest_of_current (hdecision : db.getDecision organizationId decisionId = .ok decision)
    (h : requireCurrentDecision organizationId decision db = .ok ()) :
    decision ∈ db.decisions ∧ decision.id = decisionId ∧
      decision.organizationId = organizationId ∧ Latest db.core decision := by
  obtain ⟨hmem, hid, htenant⟩ := getDecision_eq_ok hdecision
  obtain ⟨current, hcurrent, hsame, hof, -, hlatest⟩ := requireCurrentDecision_eq_ok h
  have hrow : current ∈ db.decisions.filter (fun d =>
      d.id = decisionId ∧ d.organizationId = organizationId) :=
    List.mem_filter.mpr ⟨hcurrent, decide_eq_true ⟨hsame.trans hid, hof⟩⟩
  rw [mem_of_oneOrMissing hdecision, List.mem_singleton] at hrow
  exact ⟨hmem, hid, htenant, hrow ▸ hlatest⟩

theorem onLatest_of_current (hintent : intent.organizationId = organizationId)
    (hid : decision.id = intent.decisionId)
    (h : requireCurrentDecision organizationId decision db = .ok ()) : OnLatest db.core intent := by
  obtain ⟨d, hd, hsame, htenant, -, hlatest⟩ := requireCurrentDecision_eq_ok h
  exact ⟨d, hd, hsame.trans hid, htenant.trans hintent.symm, hlatest⟩

/-! ### Decisions -/

theorem persistBaseGraph_eq_ok {artifacts : GraphArtifacts}
    (h : persistBaseGraph s.rt organizationId requestId briefId decisionId artifacts db = .ok db') :
    ∃ run plans, IsBaseOf organizationId decisionId run ∧ (∀ r ∈ db.evaluations, r.id ≠ run.id) ∧
      (∀ p ∈ plans, p.evaluationRunId = run.id) ∧ db'.core = { db.core with
        evaluations := db.evaluations ++ [run]
        plans := db.plans ++ plans } := by
  unfold persistBaseGraph at h
  obtain ⟨-, h⟩ := check_bind_eq_ok.mp h
  rw [unless_throw_eq_ok] at h
  obtain ⟨plans, -, h⟩ := bind_eq_ok.mp h.2
  obtain ⟨hcore, hfresh, hplans⟩ := addEvaluationGraph_eq_ok h
  exact ⟨_, plans, ⟨rfl, rfl, rfl⟩, hfresh, hplans, hcore⟩

theorem appended_decisionOf {decisionHash : String} {artifacts : GraphArtifacts}
    (hfresh : ∀ x ∈ db.decisions, x.id ≠ (decisionOf organizationId requestId briefId decisionHash
      artifacts (db.latestDecision organizationId requestId) given).id) :
    Appended db.core (decisionOf organizationId requestId briefId decisionHash artifacts
      (db.latestDecision organizationId requestId) given) where
  fresh := hfresh
  newest := by
    intro x hx htenant hrequest
    cases hlatest : db.latestDecision organizationId requestId with
    | none => exact absurd hrequest (latestDecision_eq_none hlatest x hx htenant)
    | some previous =>
      obtain ⟨-, -, -, hmax⟩ := latestDecision_eq_some hlatest
      exact Nat.lt_succ_of_le (hmax x hx htenant hrequest)
  source := by
    intro id hid
    cases hlatest : db.latestDecision organizationId requestId with
    | none =>
      rw [hlatest] at hid
      cases hid
    | some previous =>
      rw [hlatest] at hid
      obtain ⟨hmem, htenant, hrequest, -⟩ := latestDecision_eq_some hlatest
      exact ⟨previous, hmem, Option.some.inj hid, htenant, hrequest⟩
  first := fun _ => rfl

theorem recordDecision_eq_ok {source : DecisionSourceSnapshot}
    {snapshotMissing : QualificationError} {artifacts : GraphArtifacts} {d : DecisionRecord}
    (h : recordDecision s.rt organizationId requestId briefId source snapshotMissing artifacts given
      db = .ok (d, db')) :
    d.organizationId = organizationId ∧ d.purchaseRequestId = requestId ∧ Appended db.core d ∧
      ∃ run plans patch, Evaluated db.core d run plans ∧
        db'.core = withEvaluation db.core d run plans patch := by
  unfold recordDecision at h
  obtain ⟨decisionHash, -, h⟩ := bind_eq_ok.mp h
  obtain ⟨snapshot, -, h⟩ := bind_eq_ok.mp h
  obtain ⟨db₁, hdecision, h⟩ := bind_eq_ok.mp h
  obtain ⟨db₂, hpatch, h⟩ := bind_eq_ok.mp h
  obtain ⟨db₃, hgraph, h⟩ := bind_eq_ok.mp h
  cases h
  obtain ⟨hcore₁, hfresh⟩ := addDecision_eq_ok hdecision
  have hcore₂ := addPatch_eq_ok hpatch
  obtain ⟨run, plans, hbase, hrun, hplans, hcore₃⟩ := persistBaseGraph_eq_ok hgraph
  have hevaluations : db₂.evaluations = db.evaluations :=
    (congrArg PurchaseCore.evaluations hcore₂).trans (congrArg PurchaseCore.evaluations hcore₁)
  have hold : db₂.plans = db.plans :=
    (congrArg PurchaseCore.plans hcore₂).trans (congrArg PurchaseCore.plans hcore₁)
  have hpatches : db₁.patches = db.patches := congrArg PurchaseCore.patches hcore₁
  refine ⟨rfl, rfl, appended_decisionOf hfresh, run, plans, ?patch,
    ⟨hbase, fun r hr => hrun r (hevaluations ▸ hr), hplans, rfl⟩, ?core⟩
  case core =>
    rw [hcore₃, hcore₂, hcore₁, hevaluations, hold, hpatches]
    rfl

theorem discoverWork_eq_ok (hcall : t.call = .discover requestId artifacts)
    (h : discoverWork s t.organizationId requestId artifacts t.given db = .ok (reply, db')) :
    PurchaseStep s t db.core db'.core := by
  unfold discoverWork at h
  obtain ⟨request, -, h⟩ := bind_eq_ok.mp h
  rw [unless_throw_eq_ok] at h
  obtain ⟨-, h⟩ := h
  obtain ⟨brief, -, h⟩ := bind_eq_ok.mp h
  obtain ⟨requirement, -, h⟩ := bind_eq_ok.mp h
  obtain ⟨source, -, h⟩ := bind_eq_ok.mp h
  obtain ⟨found, -, h⟩ := bind_eq_ok.mp h
  obtain ⟨⟨d, db₁⟩, hrecord, h⟩ := bind_eq_ok.mp h
  obtain ⟨db₂, hworkflow, h⟩ := bind_eq_ok.mp h
  cases h
  obtain ⟨htenant, hrequest, happended, run, plans, patch, hevaluated, hcore⟩ :=
    recordDecision_eq_ok hrecord
  have hsame : db'.core = withEvaluation db.core d run plans patch :=
    (core_addWorkflow hworkflow).trans hcore
  rw [hsame]
  exact .discovers hcall htenant hrequest happended hevaluated

theorem core_rebase {base : PurchaseBriefVersion} {proposal : BriefProposal} {rebased : Rebased}
    (h : rebase s organizationId actorId base proposal given db = .ok (rebased, db')) :
    db'.core = db.core := by
  unfold rebase at h
  obtain ⟨changed, -, h⟩ := bind_eq_ok.mp h
  obtain ⟨contentHash, -, h⟩ := bind_eq_ok.mp h
  obtain ⟨db₁, hbrief, h⟩ := bind_eq_ok.mp h
  obtain ⟨baseRequirement, -, h⟩ := bind_eq_ok.mp h
  obtain ⟨requirementHash, -, h⟩ := bind_eq_ok.mp h
  obtain ⟨db₂, hrequirement, h⟩ := bind_eq_ok.mp h
  obtain ⟨baseSource, -, h⟩ := bind_eq_ok.mp h
  obtain ⟨sourceHash, -, h⟩ := bind_eq_ok.mp h
  obtain ⟨db₃, hsource, h⟩ := bind_eq_ok.mp h
  cases h
  exact ((core_addDecisionSourceSnapshot (sourceUnavailable_eq_ok hsource)).trans
    (core_addRequirement hrequirement)).trans (core_addBrief hbrief)

/-- The intents of the other decisions of a request are those of its earlier decisions. -/
theorem earlierRetired_of_others {core core' : PurchaseCore} {d : DecisionRecord}
    {db : PurchaseDb} (hintents : db.intents = core.intents)
    (hdecisions : db.decisions = core.decisions ++ [d]) (hfresh : ∀ x ∈ core.decisions, x.id ≠ d.id)
    (h : ∀ i ∈ db.intentsOfOthers d.organizationId d.purchaseRequestId d.id,
      Retired d.organizationId i.id core') : EarlierRetired core core' d := by
  intro i hi htenant ⟨x, hx, hid, horganization, hrequest⟩
  refine h i (List.mem_filter.mpr ⟨hintents ▸ hi, ?_⟩)
  simp only [hdecisions, List.any_eq_true, decide_eq_true_eq]
  exact ⟨htenant, x, List.mem_append_left _ hx, hid, horganization, hrequest, hfresh x hx⟩

theorem acceptProposal_eq_ok {base : PurchaseBriefVersion} {proposal : BriefProposal}
    {stepUpVerified : Bool} {proposalId reason : String} (hids : KeyedIds db.core)
    (hcall : t.call = .decideProposal roles stepUpVerified briefId proposalId true reason artifacts)
    (h : acceptProposal s t.organizationId t.actorId base proposal reason artifacts t.given db =
      .ok (reply, db')) : PurchaseStep s t db.core db'.core := by
  unfold acceptProposal at h
  obtain ⟨⟨rebased, db₁⟩, hrebase, h⟩ := bind_eq_ok.mp h
  obtain ⟨found, -, h⟩ := bind_eq_ok.mp h
  obtain ⟨request, -, h⟩ := bind_eq_ok.mp h
  obtain ⟨⟨d, db₂⟩, hrecord, h⟩ := bind_eq_ok.mp h
  obtain ⟨⟨superseded, db₃⟩, hsupersede, h⟩ := bind_eq_ok.mp h
  cases h
  have hcore₁ := core_rebase hrebase
  obtain ⟨htenant, hrequest, happended, run, plans, patch, hevaluated, hcore₂⟩ :=
    recordDecision_eq_ok hrecord
  rw [hcore₁] at happended hevaluated hcore₂
  have hintents : db₂.intents = db.intents := congrArg PurchaseCore.intents hcore₂
  obtain ⟨hretires, hretired⟩ := supersedeIntents_eq_ok hsupersede (hintents ▸ hids.intents)
  rw [hcore₂] at hretires
  have hlast : (decideIn t.organizationId t.actorId proposal true reason (some rebased.briefId)
      (some d.id) { db₃ with briefs := Table.update (·.id) base.id (fun b => { b with
        status := "SUPERSEDED" }) db₃.briefs }).core = db₃.core := rfl
  rw [hlast]
  refine .accepts hcall htenant happended hevaluated hretires ?_
  refine earlierRetired_of_others hintents (congrArg PurchaseCore.decisions hcore₂)
    happended.fresh ?_
  rw [htenant, hrequest]
  exact hretired

theorem decideProposalWork_eq_ok {stepUpVerified : Bool} {proposalId reason : String}
    {accept : Bool} (hids : KeyedIds db.core) (hcall : t.call =
      .decideProposal roles stepUpVerified briefId proposalId accept reason artifacts)
    (h : decideProposalWork s t.organizationId t.actorId briefId proposalId accept reason artifacts
      t.given db = .ok (reply, db')) : PurchaseStep s t db.core db'.core := by
  unfold decideProposalWork at h
  obtain ⟨base, -, h⟩ := bind_eq_ok.mp h
  obtain ⟨proposal, -, h⟩ := bind_eq_ok.mp h
  rw [unless_throw_eq_ok, unless_throw_eq_ok] at h
  obtain ⟨-, -, h⟩ := h
  split at h
  · next haccept => exact acceptProposal_eq_ok hids (haccept ▸ hcall) h
  · cases h
    exact .stays

theorem selectPlanWork_eq_ok {party : Option String} {solutionPlanId decisionHash : String}
    {decisionVersion : Nat} (hids : KeyedIds db.core)
    (hcall : t.call = .selectPlan roles party decisionId solutionPlanId decisionHash decisionVersion)
    (h : selectPlanWork s t.organizationId roles party decisionId solutionPlanId decisionHash
      decisionVersion t.given db = .ok (reply, db')) : PurchaseStep s t db.core db'.core := by
  unfold selectPlanWork at h
  obtain ⟨source, hsource, h⟩ := bind_eq_ok.mp h
  obtain ⟨hcurrent, h⟩ := check_bind_eq_ok.mp h
  rw [unless_throw_eq_ok] at h
  obtain ⟨-, h⟩ := h
  obtain ⟨request, -, h⟩ := bind_eq_ok.mp h
  obtain ⟨-, h⟩ := check_bind_eq_ok.mp h
  obtain ⟨⟨option, supported⟩, -, h⟩ := bind_eq_ok.mp h
  rw [unless_throw_eq_ok, unless_throw_eq_ok] at h
  obtain ⟨-, -, h⟩ := h
  obtain ⟨⟨ledger, selectedHash⟩, -, h⟩ := bind_eq_ok.mp h
  obtain ⟨db₁, hdecision, h⟩ := bind_eq_ok.mp h
  obtain ⟨⟨superseded, db₂⟩, hsupersede, h⟩ := bind_eq_ok.mp h
  cases h
  obtain ⟨hcore, hfresh⟩ := addDecision_eq_ok hdecision
  obtain ⟨hmem, -, htenant, hlatest⟩ := latest_of_current (notFound_eq_ok hsource) hcurrent
  have hintents : db₁.intents = db.intents := congrArg PurchaseCore.intents hcore
  obtain ⟨hretires, hretired⟩ := supersedeIntents_eq_ok hsupersede (hintents ▸ hids.intents)
  rw [hcore] at hretires
  refine .selects hcall rfl ⟨hfresh, ?_, ?_, nofun⟩ rfl hretires ?_
  · intro x hx horganization hrequest
    exact Nat.lt_succ_of_le (hlatest x hx (horganization.trans htenant.symm) hrequest)
  · intro id hid
    exact ⟨source, hmem, Option.some.inj hid, htenant, rfl⟩
  · exact earlierRetired_of_others hintents (congrArg PurchaseCore.decisions hcore) hfresh hretired

/-- The row of an intent is the one of its binding, and no approval of it was requested. -/
theorem intentOf_eq_ok {binding : IntentBinding} {payload : List (String × Value)}
    {intentHash : String} {record : PurchaseIntent}
    (h : intentOf s binding payload intentHash = .ok record) :
    record.id = binding.purchaseIntentId ∧ record.decisionId = binding.decision.id ∧
      record.organizationId = binding.decision.organizationId ∧
      record.solutionPlanId = binding.solutionPlanId ∧ record.stackPatchId = binding.stackPatchId ∧
      record.payload = payload ∧ record.approvalStatus = .notRequested := by
  unfold intentOf at h
  obtain ⟨merchant, -, h⟩ := bind_eq_ok.mp h
  obtain ⟨name, -, h⟩ := bind_eq_ok.mp h
  obtain ⟨url, -, h⟩ := bind_eq_ok.mp h
  obtain ⟨quoteId, -, h⟩ := bind_eq_ok.mp h
  split at h
  · obtain ⟨quoteVersion, -, h⟩ := bind_eq_ok.mp h
    obtain ⟨expiry, -, h⟩ := bind_eq_ok.mp h
    obtain ⟨expiresAt, -, h⟩ := bind_eq_ok.mp h
    obtain ⟨amount, -, h⟩ := bind_eq_ok.mp h
    obtain ⟨currency, -, h⟩ := bind_eq_ok.mp h
    cases h
    exact ⟨rfl, rfl, rfl, rfl, rfl, rfl, rfl⟩
  · cases h

theorem lockPurchaseIntentWork_eq_ok {requestedPlanId : Option String}
    (hcall : t.call = .lockPurchaseIntent decisionId requestedPlanId)
    (h : lockPurchaseIntentWork s t.organizationId decisionId requestedPlanId t.given db =
      .ok (reply, db')) : PurchaseStep s t db.core db'.core := by
  unfold lockPurchaseIntentWork at h
  obtain ⟨decision, hdecision, h⟩ := bind_eq_ok.mp h
  obtain ⟨hcurrent, h⟩ := check_bind_eq_ok.mp h
  obtain ⟨selectedPlanId, -, h⟩ := bind_eq_ok.mp h
  rw [unless_throw_eq_ok] at h
  obtain ⟨-, h⟩ := h
  obtain ⟨⟨plan, stackPatchId⟩, -, h⟩ := bind_eq_ok.mp h
  obtain ⟨⟨payload, intentHash⟩, -, h⟩ := bind_eq_ok.mp h
  obtain ⟨record, hrecord, h⟩ := bind_eq_ok.mp h
  obtain ⟨db₁, hadd, h⟩ := bind_eq_ok.mp h
  cases h
  obtain ⟨hmem, -, -, -⟩ := latest_of_current (notFound_eq_ok hdecision) hcurrent
  obtain ⟨hcore, hfresh⟩ := addPurchaseIntent_eq_ok hadd
  obtain ⟨-, hid, htenant, -, -, -, hstatus⟩ := intentOf_eq_ok hrecord
  rw [hcore]
  exact .locks hcall hmem hid.symm htenant.symm hfresh hstatus

/-! ### Approvals -/

theorem approvalRoles_eq_ok
    (h : approvalRoles organizationId decision db = .ok roles) : roles ≠ [] ∧ roles.Nodup := by
  unfold approvalRoles at h
  obtain ⟨brief, -, h⟩ := bind_eq_ok.mp h
  split at h
  · obtain ⟨requirements, -, h⟩ := bind_eq_ok.mp h
    rw [unless_throw_eq_ok, not_or, not_not] at h
    obtain ⟨hroles, h⟩ := h
    cases h
    exact hroles
  · cases h

theorem createApprovalRequestWork_eq_ok (hcall : t.call = .createApprovalRequest intentId)
    (h : createApprovalRequestWork t.organizationId intentId t.given db = .ok (reply, db')) :
    PurchaseStep s t db.core db'.core := by
  unfold createApprovalRequestWork at h
  obtain ⟨intent, hintent, h⟩ := bind_eq_ok.mp h
  obtain ⟨decision, -, h⟩ := bind_eq_ok.mp h
  obtain ⟨-, h⟩ := check_bind_eq_ok.mp h
  rw [unless_throw_eq_ok, unless_throw_eq_ok, not_not] at h
  obtain ⟨-, hnone, h⟩ := h
  obtain ⟨roles, hroles, h⟩ := bind_eq_ok.mp h
  split at h
  · obtain ⟨policyVersion, -, h⟩ := bind_eq_ok.mp h
    obtain ⟨db₁, hadd, h⟩ := bind_eq_ok.mp h
    cases h
    obtain ⟨hmem, rfl, htenant⟩ := getPurchaseIntent_eq_ok (notFound_eq_ok hintent)
    obtain ⟨hcore, hfresh⟩ := addApproval_eq_ok hadd
    have hdistinct := approvalRoles_eq_ok hroles
    have hlast : (db₁.setIntentStatus intent.id .pending).core = { db₁.core with
        intents := Table.update (·.id) intent.id (fun i => { i with
          approvalStatus := .pending }) db₁.core.intents } := rfl
    rw [hlast, hcore]
    exact .requests hcall hmem hnone rfl htenant.symm rfl rfl hdistinct rfl hfresh
  · cases h

theorem currentApproval_eq_ok
    (h : currentApproval organizationId approvalId db = .ok (approval, intent)) :
    BoundApproval db.core organizationId approval intent ∧ approval.id = approvalId ∧
      OnLatest db.core intent := by
  unfold currentApproval at h
  obtain ⟨found, happroval, h⟩ := bind_eq_ok.mp h
  obtain ⟨row, hintent, h⟩ := bind_eq_ok.mp h
  obtain ⟨decision, hdecision, h⟩ := bind_eq_ok.mp h
  obtain ⟨hcurrent, h⟩ := check_bind_eq_ok.mp h
  cases h
  obtain ⟨hmem, hid, htenant⟩ := approval?_eq_some (firstOr_eq_ok happroval)
  obtain ⟨hintentMem, hof, hintentTenant⟩ := getPurchaseIntent_eq_ok hintent
  obtain ⟨-, hdecisionId, -, -⟩ := latest_of_current hdecision hcurrent
  exact ⟨⟨hmem, hintentMem, hof, htenant, hintentTenant⟩, hid,
    onLatest_of_current hintentTenant hdecisionId hcurrent⟩

theorem requireVerifiedApprovalRole_eq_ok
    (h : requireVerifiedApprovalRole approval roles role = .ok ()) :
    role ∈ roles ∧ role ∈ approval.requiredRoles := by
  unfold requireVerifiedApprovalRole at h
  rw [unless_throw_eq_ok, not_not] at h
  obtain ⟨hheld, h⟩ := h
  split at h
  · cases h
  · next hrequired => exact ⟨hheld, not_not.mp hrequired⟩

theorem requireApprovalRole_eq_ok (h : requireApprovalRole approval roles role = .ok ()) :
    role ∈ roles ∧ approval.requiredRoles[approval.approvedRoles.length]? = some role := by
  unfold requireApprovalRole at h
  obtain ⟨hverified, h⟩ := check_bind_eq_ok.mp h
  refine ⟨(requireVerifiedApprovalRole_eq_ok hverified).1, ?_⟩
  split at h
  · cases h
  · next next hnext =>
    split at h
    · cases h
    · next hsame => rw [hnext, not_not.mp hsame]

theorem isOpen_of_recorded {event : ApprovalEvent} (hids : KeyedIds db.core)
    (hof : BoundApproval db.core organizationId approval intent)
    (hevent : event.approvalRequestId = approval.id)
    (h : db.recordApprovalEvent organizationId event = .ok db') :
    IsOpen approval ∧ event.intentHash = approval.intentHash ∧
      event.intentHash = intent.intentHash := by
  obtain ⟨-, row, hrow, rowIntent, hrowIntent, hid, hrowOf, hhash, hintentHash, hstatus⟩ :=
    recordApprovalEvent_eq_ok h
  obtain rfl : row = approval := hids.approvals.eq hrow hof.mem (hid.trans hevent)
  obtain rfl : rowIntent = intent := hids.intents.eq hrowIntent hof.intentMem (hrowOf.trans hof.of.symm)
  exact ⟨hstatus, hhash, hintentHash⟩

theorem core_advanceApproval :
    (advanceApproval approval intent role db).2.core = withStage db.core approval intent role := by
  have hroles : (withRole approval role).requiredRoles = approval.requiredRoles := by
    unfold withRole
    split <;> rfl
  unfold advanceApproval withStage staged
  dsimp only
  rw [hroles]
  split <;> rfl

/-- A stage of an approval is passed by an actor who holds its role and passed none before. -/
theorem approveWork_eq_ok (hids : KeyedIds db.core)
    (hcall : t.call = .approve approver approval.id body)
    (hof : BoundApproval db.core t.organizationId approval intent)
    (hlatest : OnLatest db.core intent)
    (htime : approvalExpiryProblem approval intent t.given = none)
    (h : approveWork t.organizationId t.actorId approver approval intent body t.given db =
      .ok (reply, db')) : PurchaseStep s t db.core db'.core := by
  unfold approveWork at h
  obtain ⟨hrole, h⟩ := check_bind_eq_ok.mp h
  rw [unless_throw_eq_ok] at h
  obtain ⟨hseparate, h⟩ := h
  obtain ⟨db₁, hrecord, h⟩ := bind_eq_ok.mp h
  rw [pure_eq_ok] at h
  obtain ⟨-, hdb⟩ := Prod.mk.inj h
  obtain ⟨hheld, hnext⟩ := requireApprovalRole_eq_ok hrole
  obtain ⟨hopen, hhash⟩ := isOpen_of_recorded hids hof rfl hrecord
  obtain ⟨hcore, -⟩ := recordApprovalEvent_eq_ok hrecord
  rw [← hdb, core_advanceApproval, hcore]
  refine .stages hcall hof hlatest hopen hheld hnext hhash htime ?_
  intro hnew e he htenant happroval haction hactor
  refine hseparate ⟨?_, hnew⟩
  rw [List.any_eq_true]
  exact ⟨e, he, decide_eq_true ⟨htenant, happroval, hactor, haction⟩⟩

theorem rejectWork_eq_ok (hids : KeyedIds db.core)
    (hcall : t.call = .rejectApproval approver approval.id body)
    (hof : BoundApproval db.core t.organizationId approval intent)
    (h : rejectWork t.organizationId t.actorId approver approval intent body t.given db =
      .ok (reply, db')) : PurchaseStep s t db.core db'.core := by
  unfold rejectWork at h
  obtain ⟨-, h⟩ := check_bind_eq_ok.mp h
  obtain ⟨db₁, hrecord, h⟩ := bind_eq_ok.mp h
  cases h
  obtain ⟨hopen, -⟩ := isOpen_of_recorded hids hof rfl hrecord
  obtain ⟨hcore, -⟩ := recordApprovalEvent_eq_ok hrecord
  have hlast : (endApproval approval.id intent.id .rejected db₁).core =
      withEnd db₁.core approval.id intent.id .rejected := rfl
  rw [core_publish, hlast, hcore]
  exact .rejects hcall hof hopen

theorem core_cancelReady :
    (cancelReady organizationId approvalId db).core = { db.core with
      handoffs := withoutReady organizationId approvalId db.handoffs } := by
  unfold cancelReady withoutReady
  generalize db.handoffs.find? _ = found
  cases found <;> rfl

theorem revokeWork_eq_ok (hids : KeyedIds db.core)
    (hcall : t.call = .revokeApproval approver approval.id body)
    (hof : BoundApproval db.core t.organizationId approval intent)
    (h : revokeWork t.organizationId t.actorId approver approval intent body t.given db =
      .ok (reply, db')) : PurchaseStep s t db.core db'.core := by
  unfold revokeWork at h
  rw [unless_throw_eq_ok] at h
  obtain ⟨-, h⟩ := h
  obtain ⟨-, h⟩ := check_bind_eq_ok.mp h
  obtain ⟨db₁, hrecord, h⟩ := bind_eq_ok.mp h
  cases h
  obtain ⟨hopen, -⟩ := isOpen_of_recorded hids hof rfl hrecord
  obtain ⟨hcore, -⟩ := recordApprovalEvent_eq_ok hrecord
  have hlast : (endApproval approval.id intent.id .revoked db₁).core =
      withEnd db₁.core approval.id intent.id .revoked := rfl
  have hhandoffs : (endApproval approval.id intent.id .revoked db₁).handoffs = db.handoffs :=
    congrArg PurchaseCore.handoffs hcore
  rw [core_publish, core_cancelReady, hlast, hhandoffs, hcore]
  exact .revokes hcall hof hopen

theorem requireStepUp_eq_ok {purpose : String}
    (h : requireStepUp approver purpose = .ok ()) : approver.stepUpVerified = true := by
  unfold requireStepUp at h
  split at h
  · next hverified => exact hverified
  · cases h

theorem unlessExpired_eq_ok
    {work : ApprovalRequest → PurchaseIntent → PurchaseDb → Qualified (KeyedReply × PurchaseDb)}
    (hcall : Decides t.call approver approvalId body) (hverified : approver.stepUpVerified = true)
    (hwork : ∀ approval intent before reply after, before.core = db.core →
      approval.id = approvalId → BoundApproval before.core t.organizationId approval intent →
      OnLatest before.core intent → approvalExpiryProblem approval intent t.given = none →
      work approval intent before = .ok (reply, after) → PurchaseStep s t before.core after.core)
    (h : unlessExpired t.organizationId t.actorId approvalId operation t.idempotencyKey requestHash
      work t.given db = .ok (answer, db')) : PurchaseStep s t db.core db'.core := by
  unfold unlessExpired at h
  obtain ⟨⟨approval, intent⟩, hfound, h⟩ := bind_eq_ok.mp h
  obtain ⟨hof, hid, hlatest⟩ := currentApproval_eq_ok hfound
  dsimp only at h
  split at h
  · next problem hproblem =>
    cases h
    subst hid
    exact .expires hof (by rw [hproblem]; rfl) (.inl ⟨approver, body, hcall, hverified, hlatest⟩)
  · next htime =>
    refine step_of_keyed (fun before reply after hsame hdone => ?_) h
    rw [← hsame] at hof hlatest
    exact hwork approval intent before reply after hsame hid hof hlatest htime hdone

theorem expirePurchaseApproval_eq_ok (hcall : t.call = .expirePurchaseApproval intentId)
    (h : expirePurchaseApproval t.organizationId intentId t.given db = .ok (answer, db')) :
    PurchaseStep s t db.core db'.core := by
  unfold expirePurchaseApproval at h
  obtain ⟨intent, hintent, h⟩ := bind_eq_ok.mp h
  obtain ⟨hintentMem, hid, hintentTenant⟩ := getPurchaseIntent_eq_ok hintent
  split at h
  · cases h
    exact .stays
  · next approval happroval =>
    split at h
    · cases h
      exact .stays
    · next hstatus =>
      split at h
      · cases h
        exact .stays
      · next problem hproblem =>
        cases h
        obtain ⟨hmem, htenant, hof, -⟩ := approvalOf_eq_some happroval
        rw [not_or, not_not, not_not] at hstatus
        exact .expires ⟨hmem, hintentMem, hof.symm, htenant, hintentTenant⟩
          (by rw [hproblem]; rfl) (.inr ⟨hid ▸ hcall, hstatus⟩)

/-! ### Handoffs -/

/-- A handoff is prepared for an intent that is approved, or the one there is is answered. -/
theorem createPaymentHandoffWork_eq_ok (hcall : t.call = .createPaymentHandoff intentId)
    (h : createPaymentHandoffWork s t.organizationId intentId t.given db = .ok (reply, db')) :
    PurchaseStep s t db.core db'.core := by
  unfold createPaymentHandoffWork at h
  obtain ⟨intent, hintent, h⟩ := bind_eq_ok.mp h
  obtain ⟨decision, hdecision, h⟩ := bind_eq_ok.mp h
  obtain ⟨hcurrent, h⟩ := check_bind_eq_ok.mp h
  dsimp only at h
  rw [unless_throw_eq_ok, not_not] at h
  obtain ⟨happroved, h⟩ := h
  obtain ⟨approval, happroval, h⟩ := bind_eq_ok.mp h
  obtain ⟨hof, hstatus⟩ := Option.filter_eq_some_iff.mp (firstOr_eq_ok happroval)
  obtain ⟨hmem, htenant, hintentOf, hhash⟩ := approvalOf_eq_some hof
  obtain ⟨hintentMem, hid, hintentTenant⟩ := getPurchaseIntent_eq_ok (notFound_eq_ok hintent)
  obtain ⟨-, hdecisionId, -, -⟩ := latest_of_current hdecision hcurrent
  split at h
  · cases h
  · next htime =>
    split at h
    · cases h
      exact .stays
    · next hnone =>
      obtain ⟨handoffHash, hchecked, h⟩ := bind_eq_ok.mp h
      obtain ⟨db₁, hadd, h⟩ := bind_eq_ok.mp h
      cases h
      obtain ⟨hcore, hfresh⟩ := addHandoff_eq_ok hadd
      rw [core_publish, hcore]
      refine .hands (hid ▸ hcall) ⟨hmem, hintentMem, hintentOf.symm, htenant, hintentTenant⟩ hhash
        (onLatest_of_current hintentTenant hdecisionId hcurrent)
        ⟨happroved, of_decide_eq_true hstatus⟩ (Option.eq_none_iff_forall_ne_some.mpr htime) ?_
        hfresh hchecked
      intro x hx horganization hintentId happrovalId
      have hfound := List.find?_eq_none.mp hnone x hx
      exact hfound (decide_eq_true ⟨horganization, hintentId, happrovalId⟩)

theorem openPaymentHandoffWork_eq_ok {handoffId : String}
    (hcall : t.call = .openPaymentHandoff handoffId)
    (h : openPaymentHandoffWork s t.organizationId handoffId t.given db = .ok (reply, db')) :
    PurchaseStep s t db.core db'.core := by
  unfold openPaymentHandoffWork at h
  obtain ⟨handoff, hhandoff, h⟩ := bind_eq_ok.mp h
  obtain ⟨intent, hintent, h⟩ := bind_eq_ok.mp h
  obtain ⟨approval, happroval, h⟩ := bind_eq_ok.mp h
  rw [unless_throw_eq_ok] at h
  obtain ⟨hauthority, h⟩ := h
  obtain ⟨computed, -, h⟩ := bind_eq_ok.mp h
  obtain ⟨-, h⟩ := check_bind_eq_ok.mp h
  rw [unless_throw_eq_ok] at h
  obtain ⟨hopenable, h⟩ := h
  cases h
  simp only [not_or, not_not, not_le] at hauthority hopenable
  obtain ⟨happroved, hintentApproved, hhash, hintentHash⟩ := hauthority
  obtain ⟨hmem, hid, -⟩ := handoff?_eq_some (firstOr_eq_ok hhandoff)
  obtain ⟨hintentMem, hintentId, -⟩ := getPurchaseIntent_eq_ok hintent
  obtain ⟨happrovalMem, happrovalId, -⟩ := approval?_eq_some (firstOr_eq_ok happroval)
  subst hid
  rw [core_publish]
  exact .opens hcall hmem ⟨hintentMem, hintentId⟩ ⟨happrovalMem, happrovalId⟩
    ⟨hintentApproved, happroved⟩ ⟨hhash, hintentHash⟩ hopenable.1 hopenable.2

/-! ### Transactions -/

theorem transact_step (hids : KeyedIds db.core)
    (h : transact s t db = .ok (answer, db')) : PurchaseStep s t db.core db'.core := by
  unfold transact at h
  split at h
  case h_1 hcall =>
    unfold discover at h
    obtain ⟨-, h⟩ := check_bind_eq_ok.mp h
    obtain ⟨requestHash, -, h⟩ := bind_eq_ok.mp h
    exact step_of_keyed (fun _ _ _ _ hdone => discoverWork_eq_ok hcall hdone) h
  case h_2 hcall =>
    unfold decideProposal at h
    rw [unless_throw_eq_ok, unless_throw_eq_ok] at h
    obtain ⟨-, -, h⟩ := h
    obtain ⟨requestHash, -, h⟩ := bind_eq_ok.mp h
    exact step_of_keyed (fun _ _ _ hsame hdone =>
      decideProposalWork_eq_ok (hsame ▸ hids) hcall hdone) h
  case h_3 hcall =>
    unfold selectPlan at h
    obtain ⟨requestHash, -, h⟩ := bind_eq_ok.mp h
    exact step_of_keyed (fun _ _ _ hsame hdone =>
      selectPlanWork_eq_ok (hsame ▸ hids) hcall hdone) h
  case h_4 hcall =>
    unfold lockPurchaseIntent at h
    obtain ⟨requestHash, -, h⟩ := bind_eq_ok.mp h
    exact step_of_keyed (fun _ _ _ _ hdone => lockPurchaseIntentWork_eq_ok hcall hdone) h
  case h_5 hcall =>
    unfold createApprovalRequest at h
    obtain ⟨requestHash, -, h⟩ := bind_eq_ok.mp h
    exact step_of_keyed (fun _ _ _ _ hdone => createApprovalRequestWork_eq_ok hcall hdone) h
  case h_6 approver approvalId body hcall =>
    unfold approve at h
    obtain ⟨hverified, h⟩ := check_bind_eq_ok.mp h
    obtain ⟨requestHash, -, h⟩ := bind_eq_ok.mp h
    refine unlessExpired_eq_ok (.inl hcall) (requireStepUp_eq_ok hverified) ?_ h
    rintro approval intent before reply after hsame rfl hof hlatest htime hdone
    exact approveWork_eq_ok (hsame ▸ hids) hcall hof hlatest htime hdone
  case h_7 approver approvalId body hcall =>
    unfold rejectApproval at h
    obtain ⟨hverified, h⟩ := check_bind_eq_ok.mp h
    obtain ⟨requestHash, -, h⟩ := bind_eq_ok.mp h
    refine unlessExpired_eq_ok (.inr hcall) (requireStepUp_eq_ok hverified) ?_ h
    rintro approval intent before reply after hsame rfl hof - - hdone
    exact rejectWork_eq_ok (hsame ▸ hids) hcall hof hdone
  case h_8 approver approvalId body hcall =>
    unfold revokeApproval at h
    obtain ⟨-, h⟩ := check_bind_eq_ok.mp h
    obtain ⟨requestHash, -, h⟩ := bind_eq_ok.mp h
    obtain ⟨⟨approval, intent⟩, hfound, h⟩ := bind_eq_ok.mp h
    obtain ⟨hof, hid, -⟩ := currentApproval_eq_ok hfound
    refine step_of_keyed (fun before _ _ hsame hdone => ?_) h
    exact revokeWork_eq_ok (hsame ▸ hids) (hid ▸ hcall) (hsame ▸ hof) hdone
  case h_9 hcall => exact expirePurchaseApproval_eq_ok hcall h
  case h_10 hcall =>
    unfold createPaymentHandoff at h
    obtain ⟨requestHash, -, h⟩ := bind_eq_ok.mp h
    exact step_of_keyed (fun _ _ _ _ hdone => createPaymentHandoffWork_eq_ok hcall hdone) h
  case h_11 hcall =>
    unfold openPaymentHandoff at h
    obtain ⟨requestHash, -, h⟩ := bind_eq_ok.mp h
    exact step_of_keyed (fun _ _ _ _ hdone => openPaymentHandoffWork_eq_ok hcall hdone) h

end Operations

end SiraApi
