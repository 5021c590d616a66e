-- SUMMARY: The records of calls in runs of purchase transactions: the work of a call leaves them alone, and a completed record stays completed for its request.
import SiraSeil.SiraApi.MutationReplays
import SiraSeil.SiraApi.PurchaseRuns

/-!
# Records of purchase calls

A keyed call claims the record of its key, does its work and completes the record. The work
changes tables of purchases only, so that a call that was answered is answered by its record ever
after.
-/

namespace SiraApi

open Domain Persistence PurchaseDb Raising

section Frames

variable {s : WorkflowService} {rt : Runtime} {organizationId actorId : String}
  {given : PurchaseGiven} {db db' : PurchaseDb}

theorem records_of_frame (h : db'.frame = db.frame) : db'.records = db.records :=
  congrArg Prod.fst h

@[simp] theorem frame_publish (event : OutboxEvent) : (db.publish event).frame = db.frame := by
  unfold publish
  dsimp only
  split <;> rfl

theorem records_publish (event : OutboxEvent) : (db.publish event).records = db.records :=
  records_of_frame (frame_publish event)

/-! ### Rows -/

theorem frame_addBrief {record : PurchaseBriefVersion} (h : db.addBrief record = .ok db') :
    db'.frame = db.frame := by
  simp only [addBrief, check_bind_eq_ok, pure_eq_ok] at h
  obtain ⟨-, -, rfl⟩ := h
  rfl

theorem frame_addRequirement {record : RequirementBriefVersion}
    (h : db.addRequirement record = .ok db') : db'.frame = db.frame := by
  simp only [addRequirement, check_bind_eq_ok, pure_eq_ok] at h
  obtain ⟨-, -, rfl⟩ := h
  rfl

theorem frame_addDecisionSourceSnapshot {record : DecisionSourceSnapshot}
    (h : db.addDecisionSourceSnapshot organizationId rt record = .ok db') :
    db'.frame = db.frame := by
  unfold addDecisionSourceSnapshot at h
  simp only [unless_throw_eq_ok, check_bind_eq_ok, pure_eq_ok] at h
  obtain ⟨-, -, -, -, -, rfl⟩ := h
  rfl

theorem frame_addPatch {record : StackPatch} (h : db.addPatch record = .ok db') :
    db'.frame = db.frame := by
  simp only [addPatch, check_bind_eq_ok, pure_eq_ok] at h
  obtain ⟨-, rfl⟩ := h
  rfl

theorem records_addDecision {record : DecisionRecord} (h : db.addDecision record = .ok db') :
    db'.records = db.records := by
  simp only [PurchaseDb.addDecision, check_bind_eq_ok, pure_eq_ok] at h
  obtain ⟨-, -, -, rfl⟩ := h
  rfl

theorem records_addEvaluationGraph {run : EvaluationRun} {plans : List EvaluationSolutionPlan}
    (h : db.addEvaluationGraph organizationId run plans = .ok db') : db'.records = db.records := by
  unfold addEvaluationGraph at h
  simp only [unless_throw_eq_ok, check_bind_eq_ok, pure_eq_ok] at h
  obtain ⟨-, -, -, -, -, -, -, -, -, -, -, rfl⟩ := h
  exact records_publish _

theorem frame_addPurchaseIntent {record : PurchaseIntent}
    (h : db.addPurchaseIntent organizationId record = .ok db') : db'.frame = db.frame := by
  unfold addPurchaseIntent at h
  simp only [unless_throw_eq_ok, check_bind_eq_ok, pure_eq_ok] at h
  obtain ⟨-, -, -, -, -, -, rfl⟩ := h
  exact frame_publish _

theorem frame_addApproval {record : ApprovalRequest} (h : db.addApproval record = .ok db') :
    db'.frame = db.frame := by
  simp only [addApproval, check_bind_eq_ok, pure_eq_ok] at h
  obtain ⟨-, -, rfl⟩ := h
  rfl

theorem frame_addHandoff {record : PaymentHandoff} (h : db.addHandoff record = .ok db') :
    db'.frame = db.frame := by
  simp only [addHandoff, check_bind_eq_ok, pure_eq_ok] at h
  obtain ⟨-, -, -, rfl⟩ := h
  rfl

theorem records_addWorkflow {record : WorkflowRun} (h : db.addWorkflow record = .ok db') :
    db'.records = db.records := by
  simp only [addWorkflow, check_bind_eq_ok, pure_eq_ok] at h
  obtain ⟨-, rfl⟩ := h
  rfl

theorem frame_recordApprovalEvent {event : ApprovalEvent}
    (h : db.recordApprovalEvent organizationId event = .ok db') : db'.frame = db.frame := by
  unfold recordApprovalEvent at h
  obtain ⟨approval, -, h⟩ := bind_eq_ok.mp h
  obtain ⟨intent, -, h⟩ := bind_eq_ok.mp h
  rw [unless_throw_eq_ok, unless_throw_eq_ok] at h
  obtain ⟨-, -, h⟩ := h
  split at h
  · cases h
    rfl
  · obtain ⟨-, h⟩ := check_bind_eq_ok.mp h
    cases h
    rfl

variable {briefId decisionId proposalId requestId : String} {intent : PurchaseIntent}
  {artifacts : Qualified GraphArtifacts} {reply : KeyedReply} {approval : ApprovalRequest}
  {approver : Approver} {body : ApprovalBody}

theorem frame_supersedeIntent {currentDecisionId : String} {counted counted' : Nat × PurchaseDb}
    (h : supersedeIntent organizationId currentDecisionId proposalId intent counted = .ok counted') :
    counted'.2.frame = counted.2.frame := by
  unfold supersedeIntent at h
  obtain ⟨superseded, db⟩ := counted
  dsimp only at h ⊢
  rw [unless_throw_eq_ok] at h
  obtain ⟨-, h⟩ := h
  have hretired : ((if ApprovalIsLive intent.approvalStatus then
      db.supersedeApprovals organizationId intent.id else db).cancelHandoffs organizationId
        intent.id).frame = db.frame := by
    split <;> rfl
  simp only [decide_eq_true_eq] at h
  generalize (if ApprovalIsLive intent.approvalStatus then
    db.supersedeApprovals organizationId intent.id else db) = retired at h hretired
  split at h
  · cases h
    exact (frame_publish _).trans hretired
  · cases h
    exact hretired

theorem frame_supersedeIntents {currentDecisionId : String} {superseded : Nat}
    (h : db.supersedeIntentsForDecisionChange organizationId requestId currentDecisionId proposalId =
      .ok (superseded, db')) : db'.frame = db.frame :=
  foldlM_related (R := fun (b b' : Nat × PurchaseDb) => b'.2.frame = b.2.frame)
    (fun _ => rfl) (fun _ _ _ hfirst hlater => hlater.trans hfirst)
    (fun _ _ _ _ hstep => frame_supersedeIntent hstep) h

/-! ### Work -/

theorem records_persistBaseGraph {artifacts : GraphArtifacts}
    (h : persistBaseGraph rt organizationId requestId briefId decisionId artifacts db = .ok db') :
    db'.records = db.records := by
  unfold persistBaseGraph at h
  obtain ⟨-, h⟩ := check_bind_eq_ok.mp h
  rw [unless_throw_eq_ok] at h
  obtain ⟨plans, -, h⟩ := bind_eq_ok.mp h.2
  exact records_addEvaluationGraph h

theorem records_recordDecision {source : DecisionSourceSnapshot}
    {snapshotMissing : QualificationError} {artifacts : GraphArtifacts} {d : DecisionRecord}
    (h : recordDecision rt organizationId requestId briefId source snapshotMissing artifacts given
      db = .ok (d, db')) : db'.records = db.records := by
  unfold recordDecision at h
  obtain ⟨decisionHash, -, h⟩ := bind_eq_ok.mp h
  obtain ⟨snapshot, -, h⟩ := bind_eq_ok.mp h
  obtain ⟨db₁, hdecision, h⟩ := bind_eq_ok.mp h
  obtain ⟨db₂, hpatch, h⟩ := bind_eq_ok.mp h
  obtain ⟨db₃, hgraph, h⟩ := bind_eq_ok.mp h
  cases h
  rw [records_persistBaseGraph hgraph, records_of_frame (frame_addPatch hpatch),
    records_addDecision hdecision]

theorem records_discoverWork
    (h : discoverWork s organizationId requestId artifacts given db = .ok (reply, db')) :
    db'.records = db.records := by
  unfold discoverWork at h
  obtain ⟨request, -, h⟩ := bind_eq_ok.mp h
  rw [unless_throw_eq_ok] at h
  obtain ⟨brief, -, h⟩ := bind_eq_ok.mp h.2
  obtain ⟨requirement, -, h⟩ := bind_eq_ok.mp h
  obtain ⟨source, -, h⟩ := bind_eq_ok.mp h
  obtain ⟨found, -, h⟩ := bind_eq_ok.mp h
  obtain ⟨⟨d, db₁⟩, hrecord, h⟩ := bind_eq_ok.mp h
  obtain ⟨db₂, hworkflow, h⟩ := bind_eq_ok.mp h
  cases h
  have hrecords := records_recordDecision hrecord
  exact (records_addWorkflow hworkflow).trans hrecords

theorem frame_rebase {base : PurchaseBriefVersion} {proposal : BriefProposal} {rebased : Rebased}
    (h : rebase s organizationId actorId base proposal given db = .ok (rebased, db')) :
    db'.frame = db.frame := by
  unfold rebase at h
  obtain ⟨changed, -, h⟩ := bind_eq_ok.mp h
  obtain ⟨contentHash, -, h⟩ := bind_eq_ok.mp h
  obtain ⟨db₁, hbrief, h⟩ := bind_eq_ok.mp h
  obtain ⟨baseRequirement, -, h⟩ := bind_eq_ok.mp h
  obtain ⟨requirementHash, -, h⟩ := bind_eq_ok.mp h
  obtain ⟨db₂, hrequirement, h⟩ := bind_eq_ok.mp h
  obtain ⟨baseSource, -, h⟩ := bind_eq_ok.mp h
  obtain ⟨sourceHash, -, h⟩ := bind_eq_ok.mp h
  obtain ⟨db₃, hsource, h⟩ := bind_eq_ok.mp h
  cases h
  rw [frame_addDecisionSourceSnapshot (sourceUnavailable_eq_ok hsource),
    frame_addRequirement hrequirement, frame_addBrief hbrief]

theorem records_acceptProposal {base : PurchaseBriefVersion} {proposal : BriefProposal}
    {reason : String}
    (h : acceptProposal s organizationId actorId base proposal reason artifacts given db =
      .ok (reply, db')) : db'.records = db.records := by
  unfold acceptProposal at h
  obtain ⟨⟨rebased, db₁⟩, hrebase, h⟩ := bind_eq_ok.mp h
  obtain ⟨found, -, h⟩ := bind_eq_ok.mp h
  obtain ⟨request, -, h⟩ := bind_eq_ok.mp h
  obtain ⟨⟨d, db₂⟩, hrecord, h⟩ := bind_eq_ok.mp h
  obtain ⟨⟨superseded, db₃⟩, hsupersede, h⟩ := bind_eq_ok.mp h
  cases h
  have hlast : db₃.records = db.records := by
    rw [records_of_frame (frame_supersedeIntents hsupersede), records_recordDecision hrecord,
      records_of_frame (frame_rebase hrebase)]
  exact hlast

theorem records_decideProposalWork {reason : String} {accept : Bool}
    (h : decideProposalWork s organizationId actorId briefId proposalId accept reason artifacts given
      db = .ok (reply, db')) : db'.records = db.records := by
  unfold decideProposalWork at h
  obtain ⟨base, -, h⟩ := bind_eq_ok.mp h
  obtain ⟨proposal, -, h⟩ := bind_eq_ok.mp h
  rw [unless_throw_eq_ok, unless_throw_eq_ok] at h
  obtain ⟨-, -, h⟩ := h
  split at h
  · exact records_acceptProposal h
  · cases h
    rfl

theorem records_selectPlanWork {roles : List String} {party : Option String}
    {solutionPlanId decisionHash : String} {decisionVersion : Nat}
    (h : selectPlanWork s organizationId roles party decisionId solutionPlanId decisionHash
      decisionVersion given db = .ok (reply, db')) : db'.records = db.records := by
  unfold selectPlanWork at h
  obtain ⟨source, -, h⟩ := bind_eq_ok.mp h
  obtain ⟨-, h⟩ := check_bind_eq_ok.mp h
  rw [unless_throw_eq_ok] at h
  obtain ⟨request, -, h⟩ := bind_eq_ok.mp h.2
  obtain ⟨-, h⟩ := check_bind_eq_ok.mp h
  obtain ⟨⟨option, supported⟩, -, h⟩ := bind_eq_ok.mp h
  rw [unless_throw_eq_ok, unless_throw_eq_ok] at h
  obtain ⟨-, -, h⟩ := h
  obtain ⟨⟨ledger, selectedHash⟩, -, h⟩ := bind_eq_ok.mp h
  obtain ⟨db₁, hdecision, h⟩ := bind_eq_ok.mp h
  obtain ⟨⟨superseded, db₂⟩, hsupersede, h⟩ := bind_eq_ok.mp h
  cases h
  rw [records_of_frame (frame_supersedeIntents hsupersede), records_addDecision hdecision]

theorem frame_lockPurchaseIntentWork {requestedPlanId : Option String}
    (h : lockPurchaseIntentWork s organizationId decisionId requestedPlanId given db =
      .ok (reply, db')) : db'.frame = db.frame := by
  unfold lockPurchaseIntentWork at h
  obtain ⟨decision, -, h⟩ := bind_eq_ok.mp h
  obtain ⟨-, h⟩ := check_bind_eq_ok.mp h
  obtain ⟨selectedPlanId, -, h⟩ := bind_eq_ok.mp h
  rw [unless_throw_eq_ok] at h
  obtain ⟨⟨plan, stackPatchId⟩, -, h⟩ := bind_eq_ok.mp h.2
  obtain ⟨⟨payload, intentHash⟩, -, h⟩ := bind_eq_ok.mp h
  obtain ⟨record, -, h⟩ := bind_eq_ok.mp h
  obtain ⟨db₁, hadd, h⟩ := bind_eq_ok.mp h
  cases h
  exact frame_addPurchaseIntent hadd

theorem frame_createApprovalRequestWork {intentId : String}
    (h : createApprovalRequestWork organizationId intentId given db = .ok (reply, db')) :
    db'.frame = db.frame := by
  unfold createApprovalRequestWork at h
  obtain ⟨intent, -, h⟩ := bind_eq_ok.mp h
  obtain ⟨decision, -, h⟩ := bind_eq_ok.mp h
  obtain ⟨-, h⟩ := check_bind_eq_ok.mp h
  rw [unless_throw_eq_ok, unless_throw_eq_ok] at h
  obtain ⟨roles, -, h⟩ := bind_eq_ok.mp h.2.2
  split at h
  · obtain ⟨policyVersion, -, h⟩ := bind_eq_ok.mp h
    obtain ⟨db₁, hadd, h⟩ := bind_eq_ok.mp h
    cases h
    have hrecords := frame_addApproval hadd
    exact hrecords
  · cases h

theorem frame_advanceApproval
    {role : String} : (advanceApproval approval intent role db).2.frame = db.frame := by
  unfold advanceApproval
  dsimp only
  split <;> rfl

theorem frame_approveWork
    (h : approveWork organizationId actorId approver approval intent body given db =
      .ok (reply, db')) : db'.frame = db.frame := by
  unfold approveWork at h
  obtain ⟨-, h⟩ := check_bind_eq_ok.mp h
  rw [unless_throw_eq_ok] at h
  obtain ⟨db₁, hrecord, h⟩ := bind_eq_ok.mp h.2
  rw [pure_eq_ok] at h
  rw [← (Prod.mk.inj h).2, frame_advanceApproval, frame_recordApprovalEvent hrecord]

theorem frame_rejectWork
    (h : rejectWork organizationId actorId approver approval intent body given db =
      .ok (reply, db')) : db'.frame = db.frame := by
  unfold rejectWork at h
  obtain ⟨-, h⟩ := check_bind_eq_ok.mp h
  obtain ⟨db₁, hrecord, h⟩ := bind_eq_ok.mp h
  cases h
  have hrecords := frame_recordApprovalEvent hrecord
  exact (frame_publish _).trans hrecords

theorem frame_cancelReady {approvalId : String} :
    (cancelReady organizationId approvalId db).frame = db.frame := by
  unfold cancelReady
  split <;> rfl

theorem frame_revokeWork
    (h : revokeWork organizationId actorId approver approval intent body given db =
      .ok (reply, db')) : db'.frame = db.frame := by
  unfold revokeWork at h
  rw [unless_throw_eq_ok] at h
  obtain ⟨-, h⟩ := check_bind_eq_ok.mp h.2
  obtain ⟨db₁, hrecord, h⟩ := bind_eq_ok.mp h
  cases h
  have hrecords := frame_recordApprovalEvent hrecord
  rw [frame_publish, frame_cancelReady]
  exact hrecords

theorem frame_createPaymentHandoffWork {intentId : String}
    (h : createPaymentHandoffWork s organizationId intentId given db = .ok (reply, db')) :
    db'.frame = db.frame := by
  unfold createPaymentHandoffWork at h
  obtain ⟨intent, -, h⟩ := bind_eq_ok.mp h
  obtain ⟨decision, -, h⟩ := bind_eq_ok.mp h
  obtain ⟨-, h⟩ := check_bind_eq_ok.mp h
  dsimp only at h
  rw [unless_throw_eq_ok] at h
  obtain ⟨approval, -, h⟩ := bind_eq_ok.mp h.2
  split at h
  · cases h
  · split at h
    · cases h
      rfl
    · obtain ⟨handoffHash, -, h⟩ := bind_eq_ok.mp h
      obtain ⟨db₁, hadd, h⟩ := bind_eq_ok.mp h
      cases h
      exact (frame_publish _).trans (frame_addHandoff hadd)

theorem frame_openPaymentHandoffWork {handoffId : String}
    (h : openPaymentHandoffWork s organizationId handoffId given db = .ok (reply, db')) :
    db'.frame = db.frame := by
  unfold openPaymentHandoffWork at h
  obtain ⟨handoff, -, h⟩ := bind_eq_ok.mp h
  obtain ⟨intent, -, h⟩ := bind_eq_ok.mp h
  obtain ⟨approval, -, h⟩ := bind_eq_ok.mp h
  rw [unless_throw_eq_ok] at h
  obtain ⟨computed, -, h⟩ := bind_eq_ok.mp h.2
  obtain ⟨-, h⟩ := check_bind_eq_ok.mp h
  rw [unless_throw_eq_ok] at h
  obtain ⟨-, h⟩ := h
  cases h
  exact frame_publish _

end Frames

/-! ## Answers -/

/-- The record of a scope is completed, for a request hash. -/
def Answered (scope : IdempotencyScope) (requestHash : String) (records : List IdempotencyRecord) :
    Prop :=
  ∃ r, recordOf scope records = some r ∧ r.requestHash = requestHash ∧ r.state = .completed

section Answers

variable {s : WorkflowService} {organizationId actorId : String} {given : PurchaseGiven}
  {db db' : PurchaseDb} {scope : IdempotencyScope} {requestHash : String}
  {records : List IdempotencyRecord}

theorem Answered.append (h : Answered scope requestHash records) (later : List IdempotencyRecord) :
    Answered scope requestHash (records ++ later) := by
  obtain ⟨r, hfind, hrest⟩ := h
  exact ⟨r, recordOf_append_of_some hfind later, hrest⟩

theorem claimIdempotency_eq_ok {workspace workspace' : Workspace} {claim : IdempotencyClaim}
    {given : Given}
    (h : claimIdempotency scope requestHash given workspace = .ok (claim, workspace')) :
    recordOf scope workspace'.records = some claim.record ∧
      claim.record.requestHash = requestHash ∧
      claim.replay = decide (claim.record.state = .completed) ∧
      ∃ later, workspace'.records = workspace.records ++ later := by
  unfold claimIdempotency at h
  split at h
  · next record hrecord =>
    split at h
    · cases h
    · next hhash =>
      cases h
      exact ⟨hrecord, not_not.mp hhash, rfl, [], (List.append_nil _).symm⟩
  · next hrecord =>
    dsimp only at h
    split at h
    · cases h
    · cases h
      exact ⟨recordOf_append_of_none hrecord rfl, rfl, rfl, _, rfl⟩

theorem recordOf_update {id : String} {f : IdempotencyRecord → IdempotencyRecord}
    {r : IdempotencyRecord} (hf : ∀ r, (f r).scope = r.scope) (h : recordOf scope records = some r) :
    recordOf scope (Table.update (·.id) id f records) = some (if r.id = id then f r else r) := by
  unfold recordOf at h ⊢
  rw [Table.find?_update (fun r => by rw [hf]), h]
  rfl

variable {status : Int} {hash idempotencyKey operation : String} {answer : PurchaseAnswer}

theorem completeIdempotency_eq_ok {workspace workspace' : Workspace} {record : IdempotencyRecord}
    {payload : List (String × Value)} {reference : String}
    (h : completeIdempotency organizationId record status payload reference workspace =
      .ok workspace') :
    (recordOf scope workspace.records = some record →
      Answered scope record.requestHash workspace'.records) ∧
    ∀ requestHash, Answered scope requestHash workspace.records →
      Answered scope requestHash workspace'.records := by
  unfold completeIdempotency at h
  split at h
  · cases h
  · cases h
    refine ⟨fun hfind => ?_, fun requestHash hanswered => ?_⟩
    · refine ⟨_, recordOf_update (fun _ => rfl) hfind, ?_⟩
      rw [if_pos rfl]
      exact ⟨rfl, rfl⟩
    · obtain ⟨r, hfind, hhash, hstate⟩ := hanswered
      refine ⟨_, recordOf_update (fun _ => rfl) hfind, ?_⟩
      split
      · exact ⟨hhash, rfl⟩
      · exact ⟨hhash, hstate⟩

/-- What a keyed call answers is recorded, and what was answered before stays recorded. -/
theorem answered_of_keyed {work : PurchaseDb → Qualified (KeyedReply × PurchaseDb)}
    (hwork : ∀ before reply after, work before = .ok (reply, after) →
      after.records = before.records)
    (h : keyed organizationId actorId operation idempotencyKey hash status work given db =
      .ok (answer, db')) :
    Answered ⟨organizationId, actorId, operation, idempotencyKey⟩ hash db'.records ∧
      ∀ scope requestHash, Answered scope requestHash db.records →
        Answered scope requestHash db'.records := by
  unfold keyed at h
  obtain ⟨⟨claim, claimed⟩, hclaim, h⟩ := bind_eq_ok.mp h
  obtain ⟨hfind, hhash, hreplay, later, hrecords⟩ := claimIdempotency_eq_ok hclaim
  dsimp only at h
  split at h
  · next hcompleted =>
    cases h
    refine ⟨⟨claim.record, hfind, hhash, ?_⟩, fun scope requestHash hanswered => ?_⟩
    · rw [hreplay] at hcompleted
      exact of_decide_eq_true hcompleted
    · exact hrecords ▸ hanswered.append later
  · obtain ⟨⟨reply, after⟩, hdone, h⟩ := bind_eq_ok.mp h
    obtain ⟨completed, hcomplete, h⟩ := bind_eq_ok.mp h
    cases h
    have hafter : after.records = claimed.records := hwork _ _ _ hdone
    refine ⟨?_, fun scope requestHash hanswered => ?_⟩
    · rw [← hhash]
      exact (completeIdempotency_eq_ok hcomplete).1 (hafter ▸ hfind)
    · exact (completeIdempotency_eq_ok hcomplete).2 _
        (hafter ▸ hrecords ▸ hanswered.append later)

theorem core_of_answered {work : PurchaseDb → Qualified (KeyedReply × PurchaseDb)}
    (hanswered : Answered ⟨organizationId, actorId, operation, idempotencyKey⟩ hash db.records)
    (h : keyed organizationId actorId operation idempotencyKey hash status work given db =
      .ok (answer, db')) : db'.core = db.core := by
  unfold keyed at h
  obtain ⟨⟨claim, claimed⟩, hclaim, h⟩ := bind_eq_ok.mp h
  obtain ⟨hfind, -, hreplay, later, hrecords⟩ := claimIdempotency_eq_ok hclaim
  obtain ⟨r, hrecord, -, hstate⟩ := hanswered
  obtain rfl : r = claim.record := by
    rw [hrecords, recordOf_append_of_some hrecord later] at hfind
    exact Option.some.inj hfind
  dsimp only at h
  rw [if_pos (hreplay.trans (decide_eq_true hstate))] at h
  cases h
  rfl

theorem answered_of_unlessExpired {approvalId : String}
    {work : ApprovalRequest → PurchaseIntent → PurchaseDb → Qualified (KeyedReply × PurchaseDb)}
    (hwork : ∀ approval intent before reply after, work approval intent before = .ok (reply, after) →
      after.records = before.records)
    (h : unlessExpired organizationId actorId approvalId operation idempotencyKey hash work given
      db = .ok (answer, db')) :
    ((∃ status payload, answer = .reply status payload) →
      Answered ⟨organizationId, actorId, operation, idempotencyKey⟩ hash db'.records) ∧
      ∀ scope requestHash, Answered scope requestHash db.records →
        Answered scope requestHash db'.records := by
  unfold unlessExpired at h
  obtain ⟨⟨approval, intent⟩, -, h⟩ := bind_eq_ok.mp h
  dsimp only at h
  split at h
  · cases h
    refine ⟨?_, fun _ _ hanswered => hanswered⟩
    rintro ⟨status, payload, hreply⟩
    cases hreply
  · obtain ⟨hself, hkept⟩ := answered_of_keyed (hwork approval intent) h
    exact ⟨fun _ => hself, hkept⟩

theorem answered_of_transact {t : PurchaseTransaction} (h : transact s t db = .ok (answer, db'))
    (hanswered : Answered scope requestHash db.records) :
    Answered scope requestHash db'.records := by
  unfold transact at h
  split at h
  case h_1 =>
    unfold discover at h
    obtain ⟨-, h⟩ := check_bind_eq_ok.mp h
    obtain ⟨hash, -, h⟩ := bind_eq_ok.mp h
    exact (answered_of_keyed (fun _ _ _ => records_discoverWork) h).2 _ _ hanswered
  case h_2 =>
    unfold decideProposal at h
    rw [unless_throw_eq_ok, unless_throw_eq_ok] at h
    obtain ⟨hash, -, h⟩ := bind_eq_ok.mp h.2.2
    exact (answered_of_keyed (fun _ _ _ => records_decideProposalWork) h).2 _ _ hanswered
  case h_3 =>
    unfold selectPlan at h
    obtain ⟨hash, -, h⟩ := bind_eq_ok.mp h
    exact (answered_of_keyed (fun _ _ _ => records_selectPlanWork) h).2 _ _ hanswered
  case h_4 =>
    unfold lockPurchaseIntent at h
    obtain ⟨hash, -, h⟩ := bind_eq_ok.mp h
    exact (answered_of_keyed (fun _ _ _ hwork => records_of_frame (frame_lockPurchaseIntentWork hwork)) h).2 _ _ hanswered
  case h_5 =>
    unfold createApprovalRequest at h
    obtain ⟨hash, -, h⟩ := bind_eq_ok.mp h
    exact (answered_of_keyed (fun _ _ _ hwork => records_of_frame (frame_createApprovalRequestWork hwork)) h).2 _ _ hanswered
  case h_6 =>
    unfold approve at h
    obtain ⟨-, h⟩ := check_bind_eq_ok.mp h
    obtain ⟨hash, -, h⟩ := bind_eq_ok.mp h
    exact (answered_of_unlessExpired (fun _ _ _ _ _ hwork => records_of_frame (frame_approveWork hwork)) h).2 _ _ hanswered
  case h_7 =>
    unfold rejectApproval at h
    obtain ⟨-, h⟩ := check_bind_eq_ok.mp h
    obtain ⟨hash, -, h⟩ := bind_eq_ok.mp h
    exact (answered_of_unlessExpired (fun _ _ _ _ _ hwork => records_of_frame (frame_rejectWork hwork)) h).2 _ _ hanswered
  case h_8 =>
    unfold revokeApproval at h
    obtain ⟨-, h⟩ := check_bind_eq_ok.mp h
    obtain ⟨hash, -, h⟩ := bind_eq_ok.mp h
    obtain ⟨⟨approval, intent⟩, -, h⟩ := bind_eq_ok.mp h
    exact (answered_of_keyed (fun _ _ _ hwork => records_of_frame (frame_revokeWork hwork)) h).2 _ _ hanswered
  case h_9 =>
    unfold expirePurchaseApproval at h
    obtain ⟨intent, -, h⟩ := bind_eq_ok.mp h
    split at h
    · cases h
      exact hanswered
    · split at h
      · cases h
        exact hanswered
      · split at h
        · cases h
          exact hanswered
        · cases h
          exact hanswered
  case h_10 =>
    unfold createPaymentHandoff at h
    obtain ⟨hash, -, h⟩ := bind_eq_ok.mp h
    exact (answered_of_keyed (fun _ _ _ hwork => records_of_frame (frame_createPaymentHandoffWork hwork)) h).2 _ _ hanswered
  case h_11 =>
    unfold openPaymentHandoff at h
    obtain ⟨hash, -, h⟩ := bind_eq_ok.mp h
    exact (answered_of_keyed (fun _ _ _ hwork => records_of_frame (frame_openPaymentHandoffWork hwork)) h).2 _ _ hanswered

end Answers

end SiraApi
