-- SUMMARY: An approval request that was rejected, revoked, superseded or expired stays so with its intent, and a repeated call changes nothing, in every run in which late calls find no other outcome.
import SiraSeil.SiraApi.PurchaseInvariants
import SiraSeil.SiraApi.PurchaseRecords

/-!
# Outcomes of approvals

An approve or reject call on a request whose time is over marks the request and its intent
expired, before it looks at the status of the request or at the record of its key. So a late call
replaces an outcome by EXPIRED, and so does the late retry of a call that succeeded in time.
-/

namespace SiraApi

open Domain Persistence PurchaseDb PurchaseCore Raising

/-- Statuses in which an approval has ended. -/
def Ended (status : ApprovalStatus) : Prop :=
  status = .rejected ∨ status = .revoked ∨ status = .superseded ∨ status = .expired

/-- The scope of the record of an approve or reject call. -/
def decisionScope (t : PurchaseTransaction) : IdempotencyScope where
  organizationId := t.organizationId
  actorId := t.actorId
  operation := match t.call with
    | .approve .. => "approval_requests.approve"
    | _ => "approval_requests.reject"
  idempotencyKey := t.idempotencyKey

/-- An approve or reject call that comes after its time finds the request expired, or under way
    and no answer under its key. -/
def FindsNoOutcome (s : WorkflowService) (t : PurchaseTransaction) (db : PurchaseDb) : Prop :=
  ∀ approver body approval intent, Decides t.call approver approval.id body →
    approver.stepUpVerified = true → BoundApproval db.core t.organizationId approval intent →
      OnLatest db.core intent → (approvalExpiryProblem approval intent t.given).isSome →
        approval.status = .expired ∨ IsOpen approval ∧
          ∀ requestHash, contentDigest s.rt (body.toValue approval.id) = .ok requestHash →
            ¬ Answered (decisionScope t) requestHash db.records

section Steps

variable {s : WorkflowService} {t : PurchaseTransaction} {organizationId : String}
  {core core' : PurchaseCore} {db db' : PurchaseDb} {approval : ApprovalRequest} {intent : PurchaseIntent}

theorem not_isOpen_of_ended (h : Ended approval.status) : ¬ IsOpen approval := by
  unfold Ended at h
  unfold IsOpen
  rintro (hstatus | hstatus) <;> simp [hstatus] at h

theorem withEnd_expired (h : Consistent core) (hof : BoundApproval core organizationId approval intent)
    (hexpired : approval.status = .expired) : withEnd core approval.id intent.id .expired = core := by
  have hstatus := (h.binds hof.mem hof.intentMem hof.of).status
  have happrovals : Table.update (·.id) approval.id (fun a => { a with status := .expired })
      core.approvals = core.approvals := by
    refine Table.update_eq_self (fun a ha hid => ?_)
    rw [h.ids.approvals.eq ha hof.mem hid, ← hexpired]
  have hintents : Table.update (·.id) intent.id (fun i => { i with approvalStatus := .expired })
      core.intents = core.intents := by
    refine Table.update_eq_self (fun i hi hid => ?_)
    rw [h.ids.intents.eq hi hof.intentMem hid, ← hexpired, ← hstatus]
  unfold withEnd
  rw [happrovals, hintents]

theorem ended_step (h : Consistent core) (hstep : PurchaseStep s t core core')
    (hlate : ∀ approver body row i, Decides t.call approver row.id body →
      approver.stepUpVerified = true → BoundApproval core t.organizationId row i →
        OnLatest core i → (approvalExpiryProblem row i t.given).isSome →
          row.status = .expired ∨ IsOpen row)
    (ha : approval ∈ core.approvals) (hended : Ended approval.status) :
    approval ∈ core'.approvals := by
  have hclosed := not_isOpen_of_ended hended
  have hother : ∀ row ∈ core.approvals, IsOpen row → ∀ f,
      approval ∈ Table.update (·.id) row.id f core.approvals := by
    intro row hrow hopen f
    refine Table.mem_update.mpr (.inr ⟨ha, fun hid => hclosed ?_⟩)
    rw [h.ids.approvals.eq ha hrow hid]
    exact hopen
  cases hstep with
  | stays => exact ha
  | discovers => exact ha
  | accepts _ _ _ _ hretires => exact hretires.closed_approvals ha hclosed
  | selects _ _ _ _ hretires => exact hretires.closed_approvals ha hclosed
  | locks => exact ha
  | requests => exact List.mem_append_left _ ha
  | stages _ hof _ hopen => exact hother _ hof.mem hopen _
  | rejects _ hof hopen => exact hother _ hof.mem hopen _
  | revokes _ hof hopen => exact hother _ hof.mem hopen _
  | expires hof hover hcause =>
    rcases hcause with ⟨approver, body, hcall, hverified, hlatest⟩ | ⟨-, happroved, -⟩
    · rcases hlate approver body _ _ hcall hverified hof hlatest hover with hexpired | hopen
      · rw [withEnd_expired h hof hexpired]
        exact ha
      · exact hother _ hof.mem hopen _
    · exact hother _ hof.mem (.inr happroved) _
  | hands => exact ha
  | opens => exact ha

/-! ## Repeated calls -/

theorem answered_of_decides {approver : Approver} {approvalId : String} {body : ApprovalBody}
    {status : Int} {payload : List (String × Value)} (hcall : Decides t.call approver approvalId body)
    (h : transact s t db = .ok (.reply status payload, db')) :
    ∃ requestHash, contentDigest s.rt (body.toValue approvalId) = .ok requestHash ∧
      Answered (decisionScope t) requestHash db'.records := by
  unfold transact at h
  unfold decisionScope
  rcases hcall with hcall | hcall
  · rw [hcall] at h ⊢
    dsimp only at h ⊢
    unfold approve at h
    obtain ⟨-, h⟩ := check_bind_eq_ok.mp h
    obtain ⟨requestHash, hhash, h⟩ := bind_eq_ok.mp h
    exact ⟨requestHash, hhash,
      (answered_of_unlessExpired (fun _ _ _ _ _ hwork =>
        records_of_frame (frame_approveWork hwork)) h).1 ⟨status, payload, rfl⟩⟩
  · rw [hcall] at h ⊢
    dsimp only at h ⊢
    unfold rejectApproval at h
    obtain ⟨-, h⟩ := check_bind_eq_ok.mp h
    obtain ⟨requestHash, hhash, h⟩ := bind_eq_ok.mp h
    exact ⟨requestHash, hhash,
      (answered_of_unlessExpired (fun _ _ _ _ _ hwork =>
        records_of_frame (frame_rejectWork hwork)) h).1 ⟨status, payload, rfl⟩⟩

theorem core_of_unlessExpired (h : Consistent db.core) {approvalId operation requestHash : String}
    {work : ApprovalRequest → PurchaseIntent → PurchaseDb → Qualified (KeyedReply × PurchaseDb)}
    {answer : PurchaseAnswer}
    (hanswered : Answered ⟨t.organizationId, t.actorId, operation, t.idempotencyKey⟩ requestHash
      db.records)
    (hlate : ∀ row i, row.id = approvalId → BoundApproval db.core t.organizationId row i →
      OnLatest db.core i → (approvalExpiryProblem row i t.given).isSome → row.status = .expired)
    (hdone : unlessExpired t.organizationId t.actorId approvalId operation t.idempotencyKey
      requestHash work t.given db = .ok (answer, db')) : db'.core = db.core := by
  unfold unlessExpired at hdone
  obtain ⟨⟨row, i⟩, hfound, hdone⟩ := bind_eq_ok.mp hdone
  obtain ⟨hof, hid, hlatest⟩ := currentApproval_eq_ok hfound
  dsimp only at hdone
  split at hdone
  · next problem hproblem =>
    cases hdone
    exact withEnd_expired h hof (hlate row i hid hof hlatest (by rw [hproblem]; rfl))
  · exact core_of_answered hanswered hdone

theorem core_of_repeated (h : Consistent db.core) {approver : Approver} {approvalId : String}
    {body : ApprovalBody} {requestHash : String} {answer : PurchaseAnswer}
    (hcall : Decides t.call approver approvalId body)
    (hhash : contentDigest s.rt (body.toValue approvalId) = .ok requestHash)
    (hanswered : Answered (decisionScope t) requestHash db.records)
    (hlate : FindsNoOutcome s t db) (hdone : transact s t db = .ok (answer, db')) :
    db'.core = db.core := by
  have hexpired : approver.stepUpVerified = true → ∀ row i, row.id = approvalId →
      BoundApproval db.core t.organizationId row i → OnLatest db.core i →
        (approvalExpiryProblem row i t.given).isSome → row.status = .expired := by
    rintro hverified row i rfl hof hlatest hover
    rcases hlate approver body row i hcall hverified hof hlatest hover with hexpired | ⟨-, hnew⟩
    · exact hexpired
    · exact absurd hanswered (hnew requestHash hhash)
  unfold decisionScope at hanswered
  unfold transact at hdone
  rcases hcall with hcall | hcall
  · rw [hcall] at hdone hanswered
    dsimp only at hdone hanswered
    unfold approve at hdone
    obtain ⟨hverified, hdone⟩ := check_bind_eq_ok.mp hdone
    obtain ⟨again, hagain, hdone⟩ := bind_eq_ok.mp hdone
    obtain rfl : requestHash = again := Except.ok.inj (hhash.symm.trans hagain)
    exact core_of_unlessExpired h hanswered (hexpired (requireStepUp_eq_ok hverified)) hdone
  · rw [hcall] at hdone hanswered
    dsimp only at hdone hanswered
    unfold rejectApproval at hdone
    obtain ⟨hverified, hdone⟩ := check_bind_eq_ok.mp hdone
    obtain ⟨again, hagain, hdone⟩ := bind_eq_ok.mp hdone
    obtain rfl : requestHash = again := Except.ok.inj (hhash.symm.trans hagain)
    exact core_of_unlessExpired h hanswered (hexpired (requireStepUp_eq_ok hverified)) hdone

end Steps

/-! ## Runs -/

/-- Two approve calls or two reject calls of one actor, with one key and one body. What is
    verified of the actor may differ. -/
structure Repeats (first again : PurchaseTransaction) : Prop where
  tenant : again.organizationId = first.organizationId
  actor : again.actorId = first.actorId
  key : again.idempotencyKey = first.idempotencyKey
  call : ∃ approver approver' approvalId body,
    first.call = .approve approver approvalId body ∧
        again.call = .approve approver' approvalId body ∨
      first.call = .rejectApproval approver approvalId body ∧
        again.call = .rejectApproval approver' approvalId body

section Runs

variable {s : WorkflowService} {db : PurchaseDb}

theorem Repeats.decides {first again : PurchaseTransaction} (h : Repeats first again) :
    decisionScope again = decisionScope first ∧ ∃ approver approver' approvalId body,
      Decides first.call approver approvalId body ∧ Decides again.call approver' approvalId body := by
  obtain ⟨approver, approver', approvalId, body, ⟨hfirst, hagain⟩ | ⟨hfirst, hagain⟩⟩ := h.call
  · refine ⟨?_, approver, approver', approvalId, body, .inl hfirst, .inl hagain⟩
    unfold decisionScope
    rw [hfirst, hagain, h.tenant, h.actor, h.key]
  · refine ⟨?_, approver, approver', approvalId, body, .inr hfirst, .inr hagain⟩
    unfold decisionScope
    rw [hfirst, hagain, h.tenant, h.actor, h.key]

theorem ended_run {approval : ApprovalRequest} {later : List PurchaseTransaction}
    (h : Consistent db.core) (ha : approval ∈ db.approvals) (hended : Ended approval.status)
    (halong : Transactions.Along (transact s) (FindsNoOutcome s) db later) :
    Consistent (purchasesAfter s db later).core ∧ approval ∈ (purchasesAfter s db later).approvals :=
  Transactions.run_along (I := fun (db : PurchaseDb) => Consistent db.core ∧ approval ∈ db.approvals)
    (fun t before answer after hbefore hlate hdone => by
      have hstep := transact_step hbefore.1.ids hdone
      refine ⟨hbefore.1.step hstep, ended_step hbefore.1 hstep ?_ hbefore.2 hended⟩
      intro approver body row i hcall hverified hof hlatest hover
      exact (hlate approver body row i hcall hverified hof hlatest hover).imp_right And.left)
    ⟨h, ha⟩ halong

/-- In every run whose late calls find no other outcome, an ended approval request and its intent
    keep their status, and a repeated call changes nothing. -/
theorem approval_outcomes_stand (s : WorkflowService) {db : PurchaseDb}
    (hstart : Unrequested db.core) {run : List PurchaseTransaction}
    (halong : Transactions.Along (transact s) (FindsNoOutcome s) db run) :
    (∀ before later, run = before ++ later → ∀ a ∈ (purchasesAfter s db before).approvals,
      Ended a.status → a ∈ (purchasesAfter s db run).approvals ∧
        ∀ i ∈ (purchasesAfter s db run).intents, i.id = a.purchaseIntentId →
          i.approvalStatus = a.status) ∧
    ∀ before first between again, run = before ++ first :: between ++ [again] →
      Repeats first again →
        (∃ status payload db', transact s first (purchasesAfter s db before) =
          .ok (.reply status payload, db')) →
            (purchasesAfter s db run).core =
              (purchasesAfter s db (before ++ first :: between)).core := by
  constructor
  · rintro before later rfl a ha hended
    obtain ⟨hbefore, hlater⟩ := Transactions.along_append.mp halong
    have hconsistent := consistent_purchasesAfter (s := s) hstart before
    obtain ⟨hfinal, hstays⟩ := ended_run hconsistent ha hended hlater
    unfold purchasesAfter at hfinal hstays ⊢
    rw [Transactions.run_append]
    exact ⟨hstays, fun i hi hof => (hfinal.binds hstays hi hof).status⟩
  · rintro before first between again rfl hrepeats ⟨status, payload, db', hdone⟩
    obtain ⟨hscope, approver, approver', approvalId, body, hfirst, hagain⟩ := hrepeats.decides
    obtain ⟨requestHash, hhash, hanswered⟩ := answered_of_decides hfirst hdone
    -- The record of the first call is there when it is repeated.
    have hkept : Answered (decisionScope again) requestHash
        (purchasesAfter s db (before ++ first :: between)).records := by
      unfold purchasesAfter at hdone ⊢
      rw [Transactions.run_append, hscope]
      refine Transactions.run_induction (I := fun (db : PurchaseDb) =>
        Answered (decisionScope first) requestHash db.records) ?_ ?_ between
      · exact fun t before answer after hbefore hone => answered_of_transact hone hbefore
      · rw [Transactions.after_of_ok (f := transact s) hdone]
        exact hanswered
    have hlate := (Transactions.along_append.mp halong).2.1
    have hconsistent := consistent_purchasesAfter (s := s) hstart (before ++ first :: between)
    unfold purchasesAfter at hkept hconsistent ⊢
    rw [Transactions.run_concat]
    rcases Transactions.after_cases (f := transact s)
        (Transactions.run (transact s) db (before ++ first :: between)) again with
      ⟨answer, db'', hone, heq⟩ | ⟨e, -, heq⟩
    · rw [heq]
      exact core_of_repeated hconsistent hagain hhash hkept hlate hone
    · rw [heq]

end Runs

theorem findsNoOutcome_of_inTime {s : WorkflowService} {t : PurchaseTransaction} {db : PurchaseDb}
    (h : (db.approvals.all (fun a => t.given.now < a.expiresAt) &&
      db.intents.all (fun i => t.given.quoteNow < i.quoteExpiresAt)) = true) :
    FindsNoOutcome s t db := by
  intro approver body approval intent _ _ hof _ hover
  rw [Bool.and_eq_true, List.all_eq_true, List.all_eq_true] at h
  have htime := of_decide_eq_true (h.1 approval hof.mem)
  have hquote := of_decide_eq_true (h.2 intent hof.intentMem)
  unfold approvalExpiryProblem at hover
  rw [if_neg (not_le.mpr htime), if_neg (not_le.mpr hquote)] at hover
  cases hover

namespace PurchaseSample

def rejectAs (actorId key role : String) (minutes : Int) : PurchaseTransaction :=
  callAt actorId key minutes (.rejectApproval ⟨[role], true⟩ "apr_k1" ⟨intentHash, role, none⟩)

/-- A rejection, and its retry in time -/
def rejectedTwice : List PurchaseTransaction :=
  [request, rejectAs "alice" "k2" "ops" 1, rejectAs "alice" "k2" "ops" 2]

/-- A rejection, and an approve call after the hour of the request -/
def rejectedThenLate : List PurchaseTransaction :=
  [request, rejectAs "alice" "k2" "ops" 1, approveAs "alice" "k3" "ops" 61]

end PurchaseSample

open PurchaseSample in
theorem approval_outcomes_stand_sample :
    (∀ before later, rejectedTwice = before ++ later →
      ∀ a ∈ (purchasesAfter service (locked ["ops"]) before).approvals, Ended a.status →
        a ∈ (purchasesAfter service (locked ["ops"]) rejectedTwice).approvals ∧
          ∀ i ∈ (purchasesAfter service (locked ["ops"]) rejectedTwice).intents,
            i.id = a.purchaseIntentId → i.approvalStatus = a.status) ∧
    ∀ before first between again, rejectedTwice = before ++ first :: between ++ [again] →
      Repeats first again →
        (∃ status payload db', transact service first (purchasesAfter service (locked ["ops"]) before) =
          .ok (.reply status payload, db')) →
            (purchasesAfter service (locked ["ops"]) rejectedTwice).core =
              (purchasesAfter service (locked ["ops"]) (before ++ first :: between)).core :=
  approval_outcomes_stand service (unrequested_locked ["ops"])
    ⟨findsNoOutcome_of_inTime (by decide +kernel), findsNoOutcome_of_inTime (by decide +kernel),
      findsNoOutcome_of_inTime (by decide +kernel), trivial⟩

open PurchaseSample in
/-- A late approve call turns a rejected request and its intent into expired ones. -/
theorem late_call_overwrites_rejection :
    Unrequested (locked ["ops"]).core ∧
    (purchasesAfter service (locked ["ops"]) (rejectedThenLate.take 2)).approvals.map
      (fun a => (a.id, a.status)) = [("apr_k1", .rejected)] ∧
    (purchasesAfter service (locked ["ops"]) rejectedThenLate).approvals.map
      (fun a => (a.id, a.status)) = [("apr_k1", .expired)] ∧
    (purchasesAfter service (locked ["ops"]) rejectedThenLate).intents.map
      (fun i => i.approvalStatus) = [.expired] :=
  ⟨unrequested_locked ["ops"], by decide +kernel, by decide +kernel, by decide +kernel⟩

end SiraApi
