-- SUMMARY: Whether the next action that a problem names can be taken: an expired request is not requested again, and a handoff that cannot be opened is not prepared again.
import SiraSeil.SiraApi.PaymentHandoffs
import SiraSeil.SiraApi.PurchaseRecords

/-!
# Next actions

A problem names the action that leads on from it. A request whose hour is over leaves its intent
expired, where no approval can be requested; a handoff whose time is over is still the handoff of
its approval, and a call that prepares one returns it. Both actions are named exactly when they
lead nowhere.
-/

namespace SiraApi

open Domain Persistence PurchaseDb PurchaseCore Raising

/-- `next_action` of the problems of approvals and handoffs, by their codes -/
def nextActions : List (String × String) :=
  [("STEP_UP_REQUIRED", "authenticate"), ("DECISION_SUPERSEDED", "review_current_decision"),
    ("QUOTE_EXPIRED", "refresh_quote"), ("APPROVAL_EXPIRED", "create_approval_request"),
    ("APPROVAL_STAGE_OUT_OF_ORDER", "complete_current_approval_stage"),
    ("APPROVAL_NOT_REVOCABLE", "poll_purchase_status"), ("APPROVAL_REQUIRED", "complete_approval"),
    ("HANDOFF_AUTHORITY_INVALID", "review_purchase_intent"),
    ("HANDOFF_NOT_OPENABLE", "create_payment_handoff")]

def nextAction : QualificationError → Option String
  | .api code _ _ => nextActions.lookup code
  | _ => none

/-- The decision of an intent is read, and is current. -/
def OnCurrent (organizationId : String) (db : PurchaseDb) (intent : PurchaseIntent) : Prop :=
  ∃ d, db.getDecision organizationId intent.decisionId = .ok d ∧
    requireCurrentDecision organizationId d db = .ok ()

/-- No record has the key of a call. -/
def NewKey (t : PurchaseTransaction) (operation : String) (db : PurchaseDb) : Prop :=
  recordOf ⟨t.organizationId, t.actorId, operation, t.idempotencyKey⟩ db.records = none

/-- A call claims its key for work that is still to be done. -/
def ClaimsWork (s : WorkflowService) (t : PurchaseTransaction) (operation : String)
    (request : Value) (db : PurchaseDb) : Prop :=
  ∃ requestHash claim claimed, contentDigest s.rt request = .ok requestHash ∧
    claimIdempotency ⟨t.organizationId, t.actorId, operation, t.idempotencyKey⟩ requestHash
      t.given.toGiven db.toWorkspace = .ok (claim, claimed) ∧ claim.replay = false

/-- A handoff that can be opened at a time -/
def Openable (x : PaymentHandoff) (now : Int) : Prop :=
  x.status = .ready ∧ now < x.expiresAt

/-- A call returns a handoff that can be opened. -/
def ReturnsOpenable (result : Qualified (PurchaseAnswer × PurchaseDb)) (now : Int) : Prop :=
  ∃ status payload db' x, result = .ok (.reply status payload, db') ∧ x ∈ db'.handoffs ∧
    payload = paymentHandoffView x ∧ Openable x now

/-- A call acts on an approval request of its tenant, whose intent is of a current decision and
    has a quote that stands. Another call requests an approval of the intent, under a new key and
    while the quote still stands. -/
structure RequestsAgain (db : PurchaseDb) (t again : PurchaseTransaction) (a : ApprovalRequest)
    (i : PurchaseIntent) : Prop where
  bound : BoundApproval db.core t.organizationId a i
  current : OnCurrent t.organizationId db i
  quote : t.given.quoteNow < i.quoteExpiresAt ∧ again.given.quoteNow < i.quoteExpiresAt
  call : again.call = .createApprovalRequest i.id
  tenant : again.organizationId = t.organizationId
  newKey : NewKey again "approval_requests.create" db

/-- A call opens a handoff that was never opened, of an intent of a current decision that is
    approved and has not expired. A later call prepares a handoff of the intent, under a new
    key. -/
structure HandsOffAgain (db : PurchaseDb) (t again : PurchaseTransaction) (x : PaymentHandoff)
    (a : ApprovalRequest) (i : PurchaseIntent) : Prop where
  mem : x ∈ db.handoffs
  call : t.call = .openPaymentHandoff x.id
  tenant : x.organizationId = t.organizationId
  closed : x.status ≠ .opened ∧ x.openedAt = none
  of : a.id = x.approvalRequestId
  bound : BoundApproval db.core t.organizationId a i
  current : OnCurrent t.organizationId db i
  approved : a.status = .approved ∧ i.approvalStatus = .approved
  inTime : approvalExpiryProblem a i t.given = none
  later : again.organizationId = t.organizationId ∧ t.given.now ≤ again.given.now
  newKey : NewKey again "payment_handoffs.create" db

/-- The request of an open call, as it is hashed -/
def openRequest (handoffId : String) : Value :=
  .obj [("handoff_id", .str handoffId), ("operation", .str "open")]

/-! ## Keys -/

section Keys

variable {s : WorkflowService} {t : PurchaseTransaction} {db db' : PurchaseDb}

theorem contentDigest_of_texts {rt : Runtime} {v : Value}
    (h : ∀ a ∈ v.atoms, ∃ text, a = .str text) : ∃ hash, contentDigest rt v = .ok hash := by
  have hnaive : v.atoms.any Atom.naive = false := by
    refine List.any_eq_false.mpr (fun a ha => ?_)
    obtain ⟨text, rfl⟩ := h a ha
    simp [Atom.naive]
  have hdomain : v.atoms.any Atom.outOfDomain = false := by
    refine List.any_eq_false.mpr (fun a ha => ?_)
    obtain ⟨text, rfl⟩ := h a ha
    simp [Atom.outOfDomain]
  unfold contentDigest contentHash
  rw [hnaive, hdomain]
  exact ⟨_, rfl⟩

theorem contentDigest_body (rt : Runtime) (approvalId : String) (body : ApprovalBody) :
    ∃ hash, contentDigest rt (body.toValue approvalId) = .ok hash := by
  refine contentDigest_of_texts (fun a ha => ?_)
  unfold ApprovalBody.toValue at ha
  cases hreason : body.reason with
  | none =>
    rw [hreason] at ha
    simp [Value.atoms, Value.fieldAtoms, Value.str] at ha
    rcases ha with rfl | rfl | rfl <;> exact ⟨_, rfl⟩
  | some reason =>
    rw [hreason] at ha
    simp [Value.atoms, Value.fieldAtoms, Value.str] at ha
    rcases ha with rfl | rfl | rfl | rfl <;> exact ⟨_, rfl⟩

theorem contentDigest_openRequest (rt : Runtime) (handoffId : String) :
    ∃ hash, contentDigest rt (openRequest handoffId) = .ok hash := by
  refine contentDigest_of_texts (fun a ha => ?_)
  simp [openRequest, Value.atoms, Value.fieldAtoms, Value.str] at ha
  rcases ha with rfl | rfl <;> exact ⟨_, rfl⟩

theorem work_of_newKey {operation requestHash : String} {status : Int}
    {work : PurchaseDb → Qualified (KeyedReply × PurchaseDb)} {answer : PurchaseAnswer}
    (hnew : NewKey t operation db)
    (h : keyed t.organizationId t.actorId operation t.idempotencyKey requestHash status work t.given
      db = .ok (answer, db')) :
    ∃ before reply after, before.core = db.core ∧ work before = .ok (reply, after) ∧
      answer = .reply reply.status reply.payload ∧ db'.core = after.core := by
  unfold keyed at h
  obtain ⟨⟨claim, claimed⟩, hclaim, h⟩ := bind_eq_ok.mp h
  have hreplay : claim.replay = false := by
    unfold claimIdempotency at hclaim
    unfold NewKey at hnew
    rw [hnew] at hclaim
    dsimp only at hclaim
    split at hclaim
    · cases hclaim
    · cases hclaim
      rfl
  dsimp only at h
  rw [hreplay, if_neg Bool.false_ne_true] at h
  obtain ⟨⟨reply, after⟩, hwork, h⟩ := bind_eq_ok.mp h
  obtain ⟨completed, -, h⟩ := bind_eq_ok.mp h
  cases h
  exact ⟨{ db with toWorkspace := claimed }, reply, after, rfl, hwork, rfl, rfl⟩

theorem keyed_ne_problem {operation requestHash : String} {status : Int}
    {work : PurchaseDb → Qualified (KeyedReply × PurchaseDb)} {e : QualificationError} :
    keyed t.organizationId t.actorId operation t.idempotencyKey requestHash status work t.given db ≠
      .ok (.problem e, db') := by
  intro h
  unfold keyed at h
  obtain ⟨⟨claim, claimed⟩, -, h⟩ := bind_eq_ok.mp h
  dsimp only at h
  split at h
  · cases h
  · obtain ⟨⟨reply, after⟩, -, h⟩ := bind_eq_ok.mp h
    obtain ⟨completed, -, h⟩ := bind_eq_ok.mp h
    cases h

end Keys

/-! ## Requesting again -/

section Requests

variable {s : WorkflowService} {t again : PurchaseTransaction} {db db' : PurchaseDb}
  {a : ApprovalRequest} {i : PurchaseIntent}

variable {organizationId : String} {approver : Approver} {body : ApprovalBody}

theorem getPurchaseIntent_of_mem (h : KeyedIds db.core) (hi : i ∈ db.intents)
    (htenant : i.organizationId = organizationId) :
    db.getPurchaseIntent organizationId i.id = .ok i := by
  have hrows : db.intents.filter (fun row =>
      row.id = i.id ∧ row.organizationId = organizationId) = [i] := by
    refine h.intents.filter_eq_singleton hi (decide_eq_true ⟨rfl, htenant⟩) (fun row hrow hsame => ?_)
    exact h.intents.eq hrow hi (of_decide_eq_true hsame).1
  unfold getPurchaseIntent
  rw [hrows]
  rfl

theorem approval?_of_mem (h : KeyedIds db.core) (ha : a ∈ db.approvals)
    (htenant : a.organizationId = organizationId) : db.approval? organizationId a.id = some a :=
  h.approvals.find?_eq ha (decide_eq_true ⟨rfl, htenant⟩) (fun _ _ hsame => (of_decide_eq_true hsame).1)

theorem currentApproval_of_bound (h : KeyedIds db.core)
    (hof : BoundApproval db.core organizationId a i) (hcurrent : OnCurrent organizationId db i) :
    currentApproval organizationId a.id db = .ok (a, i) := by
  obtain ⟨d, hdecision, hcurrent⟩ := hcurrent
  have happroval := approval?_of_mem h hof.mem hof.tenant
  have hintent := getPurchaseIntent_of_mem h hof.intentMem hof.intentTenant
  rw [hof.of] at hintent
  unfold currentApproval
  rw [happroval]
  simp only [firstOr, ok_bind, hintent, hdecision, hcurrent]
  rfl

theorem transact_of_decides (s : WorkflowService) (db : PurchaseDb) {approvalId : String}
    (hcall : Decides t.call approver approvalId body) (hverified : approver.stepUpVerified = true) :
    ∃ operation requestHash work, transact s t db = unlessExpired t.organizationId t.actorId
      approvalId operation t.idempotencyKey requestHash work t.given db := by
  obtain ⟨requestHash, hhash⟩ := contentDigest_body s.rt approvalId body
  rcases hcall with hcall | hcall
  · refine ⟨"approval_requests.approve", requestHash, fun approval intent =>
      approveWork t.organizationId t.actorId approver approval intent body t.given, ?_⟩
    unfold transact
    rw [hcall]
    dsimp only
    unfold approve requireStepUp
    rw [if_pos hverified, hhash]
    rfl
  · refine ⟨"approval_requests.reject", requestHash, fun approval intent =>
      rejectWork t.organizationId t.actorId approver approval intent body t.given, ?_⟩
    unfold transact
    rw [hcall]
    dsimp only
    unfold rejectApproval requireStepUp
    rw [if_pos hverified, hhash]
    rfl

theorem transact_of_unverified {approvalId : String} {result : PurchaseAnswer × PurchaseDb}
    (hcall : Decides t.call approver approvalId body)
    (hverified : approver.stepUpVerified ≠ true) : transact s t db ≠ .ok result := by
  intro h
  unfold transact at h
  rcases hcall with hcall | hcall
  · rw [hcall] at h
    dsimp only at h
    unfold approve at h
    exact hverified (requireStepUp_eq_ok (check_bind_eq_ok.mp h).1)
  · rw [hcall] at h
    dsimp only at h
    unfold rejectApproval at h
    exact hverified (requireStepUp_eq_ok (check_bind_eq_ok.mp h).1)

/-- The problem of a call that comes after the hour of the request -/
def approvalExpired : QualificationError :=
  .api "APPROVAL_EXPIRED" "This exact-hash approval request has expired." 409

theorem nextAction_approvalExpired : nextAction approvalExpired = some "create_approval_request" := by
  decide +kernel

theorem late_answer (h : KeyedIds db.core) (hcall : Decides t.call approver a.id body)
    (hverified : approver.stepUpVerified = true) (hof : BoundApproval db.core t.organizationId a i)
    (hcurrent : OnCurrent t.organizationId db i) (hlate : a.expiresAt ≤ t.given.now) :
    transact s t db = .ok (.problem approvalExpired, endApproval a.id i.id .expired db) := by
  obtain ⟨operation, requestHash, work, heq⟩ := transact_of_decides s db hcall hverified
  rw [heq]
  unfold unlessExpired
  rw [currentApproval_of_bound h hof hcurrent, ok_bind]
  dsimp only
  unfold approvalExpiryProblem
  rw [if_pos hlate]
  rfl

theorem inTime_answer (h : KeyedIds db.core) {e : QualificationError}
    (hcall : Decides t.call approver a.id body) (hverified : approver.stepUpVerified = true)
    (hof : BoundApproval db.core t.organizationId a i) (hcurrent : OnCurrent t.organizationId db i)
    (hquote : t.given.quoteNow < i.quoteExpiresAt)
    (htime : t.given.now < a.expiresAt) : transact s t db ≠ .ok (.problem e, db') := by
  obtain ⟨operation, requestHash, work, heq⟩ := transact_of_decides s db hcall hverified
  rw [heq]
  unfold unlessExpired
  rw [currentApproval_of_bound h hof hcurrent, ok_bind]
  dsimp only
  unfold approvalExpiryProblem
  rw [if_neg (not_le.mpr htime), if_neg (not_le.mpr hquote)]
  exact keyed_ne_problem

theorem request_refused {intentId : String} (hcall : again.call = .createApprovalRequest intentId)
    (hnew : NewKey again "approval_requests.create" db)
    (hstarted : ∀ row ∈ db.intents, row.id = intentId → row.approvalStatus ≠ .notRequested)
    {result : PurchaseAnswer × PurchaseDb} : transact s again db ≠ .ok result := by
  intro h
  unfold transact at h
  rw [hcall] at h
  dsimp only at h
  unfold createApprovalRequest at h
  obtain ⟨requestHash, -, h⟩ := bind_eq_ok.mp h
  obtain ⟨answer, db'⟩ := result
  obtain ⟨before, reply, after, hbefore, hwork, -, -⟩ := work_of_newKey hnew h
  unfold createApprovalRequestWork at hwork
  obtain ⟨intent, hintent, hwork⟩ := bind_eq_ok.mp hwork
  obtain ⟨decision, -, hwork⟩ := bind_eq_ok.mp hwork
  obtain ⟨-, hwork⟩ := check_bind_eq_ok.mp hwork
  rw [unless_throw_eq_ok, unless_throw_eq_ok, not_not] at hwork
  obtain ⟨-, hnone, -⟩ := hwork
  obtain ⟨hmem, hid, -⟩ := getPurchaseIntent_eq_ok (notFound_eq_ok hintent)
  have hrow : intent ∈ db.intents := by
    have hsame : before.intents = db.intents := congrArg PurchaseCore.intents hbefore
    exact hsame ▸ hmem
  exact hstarted intent hrow hid hnone

/-- The call that is named after the hour of a request works only if it is never named. -/
theorem request_again_iff (h : KeyedIds db.core) (hcall : Decides t.call approver a.id body)
    (hagain : RequestsAgain db t again a i) :
    (∀ e db', transact s t db = .ok (.problem e, db') →
      nextAction e = some "create_approval_request" →
        ∃ status payload db'', transact s again db' = .ok (.reply status payload, db'')) ↔
      (approver.stepUpVerified = true → t.given.now < a.expiresAt) := by
  constructor
  · intro hworks hverified
    by_contra hlate
    have hanswer := late_answer (s := s) h hcall hverified hagain.bound hagain.current (not_lt.mp hlate)
    obtain ⟨status, payload, db'', hdone⟩ := hworks _ _ hanswer nextAction_approvalExpired
    have hnew : NewKey again "approval_requests.create" (endApproval a.id i.id .expired db) := hagain.newKey
    refine request_refused hagain.call hnew (fun row hrow hid => ?_) hdone
    have hrow : row ∈ (withEnd db.core a.id i.id .expired).intents := hrow
    rcases Table.mem_update.mp hrow with ⟨-, -, -, rfl⟩ | ⟨-, hne⟩
    · nofun
    · exact absurd hid hne
  · intro htime e db' hdone
    by_cases hverified : approver.stepUpVerified = true
    · exact absurd hdone (inTime_answer h hcall hverified hagain.bound hagain.current hagain.quote.1
        (htime hverified))
    · exact absurd hdone (transact_of_unverified hcall hverified)

end Requests

/-! ## Preparing again -/

section Handoffs

variable {s : WorkflowService} {t again : PurchaseTransaction} {db db' : PurchaseDb}
  {core core' : PurchaseCore} {x : PaymentHandoff} {a : ApprovalRequest} {i : PurchaseIntent}

/-- A handoff passes its checks as it was prepared, and has the hash of its fields. -/
def Checked (s : WorkflowService) (x : PaymentHandoff) : Prop :=
  checkHandoff s { x with
    status := .ready
    openedAt := none } = .ok x.handoffHash

theorem checked_step (h : ∀ x ∈ core.handoffs, Checked s x) (hids : KeyedIds core)
    (hstep : PurchaseStep s t core core') : ∀ x ∈ core'.handoffs, Checked s x := by
  intro x' hx'
  rcases hids.handoffsFrom hstep with hfrom | ⟨approval, intent, handoffHash, -, -, -, -, hchecked, rfl⟩
  · obtain ⟨x, hx, hlater⟩ := hfrom.rows x' hx'
    have hold := h x hx
    rw [hlater.1]
    exact hold
  · rcases List.mem_append.mp hx' with hx' | hx'
    · exact h x' hx'
    · rw [List.mem_singleton.mp hx']
      exact hchecked

theorem Checked.of_closed (h : Checked s x) (hclosed : x.status ≠ .opened ∧ x.openedAt = none) :
    checkHandoff s x = .ok x.handoffHash := by
  unfold Checked at h
  rw [← h]
  unfold checkHandoff
  simp [hclosed.1, hclosed.2, handoffPayload]

/-- The problem of a handoff that cannot be opened -/
def notOpenable : QualificationError :=
  .api "HANDOFF_NOT_OPENABLE" "This payment handoff cannot be opened." 409

theorem nextAction_notOpenable : nextAction notOpenable = some "create_payment_handoff" := by
  decide +kernel

theorem openWork_of_approved (h : KeyedIds db.core) (hterms : HandoffTerms s db.core x)
    (hchecked : Checked s x) (hx : x ∈ db.handoffs) (htenant : x.organizationId = t.organizationId)
    (hclosed : x.status ≠ .opened ∧ x.openedAt = none) (hof : a.id = x.approvalRequestId)
    (hbound : BoundApproval db.core t.organizationId a i)
    (happroved : a.status = .approved ∧ i.approvalStatus = .approved) :
    ∃ done, openPaymentHandoffWork s t.organizationId x.id t.given db =
      if x.status ≠ .ready ∨ x.expiresAt ≤ t.given.now then .error notOpenable else .ok done := by
  obtain ⟨row, hrow, hrowId, hrowOf, -, hhash, -⟩ := hterms.approval
  obtain rfl : row = a := h.approvals.eq hrow hbound.mem (hrowId.trans hof.symm)
  obtain ⟨intent, hintent, hintentId, -, hintentHash, -⟩ := hterms.intent
  obtain rfl : intent = i :=
    h.intents.eq hintent hbound.intentMem (hintentId.trans (hrowOf.symm.trans hbound.of.symm))
  have hhandoff : db.handoff? t.organizationId x.id = some x :=
    h.handoffs.find?_eq hx (decide_eq_true ⟨rfl, htenant⟩)
      (fun _ _ hsame => (of_decide_eq_true hsame).1)
  have hread := getPurchaseIntent_of_mem h hbound.intentMem hbound.intentTenant
  have happroval := approval?_of_mem h hbound.mem hbound.tenant
  rw [hintentId] at hread
  rw [hof] at happroval
  unfold openPaymentHandoffWork
  rw [hhandoff]
  simp only [firstOr, ok_bind, hread, happroval, happroved.1, happroved.2, hhash, hintentHash,
    hchecked.of_closed hclosed, refuse, ne_eq, not_true_eq_false, or_self, if_false, decide_false]
  exact ⟨_, rfl⟩

/-- A call under its key fails in its claim, in its work, or as a conflict of its record. -/
theorem keyed_error {operation requestHash : String} {status : Int}
    {work : PurchaseDb → Qualified (KeyedReply × PurchaseDb)} {e : QualificationError}
    (h : keyed t.organizationId t.actorId operation t.idempotencyKey requestHash status work t.given
      db = .error e) :
    (∃ message, e = .persistenceConflict message) ∨ ∃ claim claimed,
      claimIdempotency ⟨t.organizationId, t.actorId, operation, t.idempotencyKey⟩ requestHash
        t.given.toGiven db.toWorkspace = .ok (claim, claimed) ∧ claim.replay = false ∧
          work { db with toWorkspace := claimed } = .error e := by
  unfold keyed at h
  cases hclaim : claimIdempotency ⟨t.organizationId, t.actorId, operation, t.idempotencyKey⟩
      requestHash t.given.toGiven db.toWorkspace with
  | error refused =>
    rw [hclaim] at h
    cases h
    unfold claimIdempotency at hclaim
    split at hclaim
    · split at hclaim
      · cases hclaim
        exact .inl ⟨_, rfl⟩
      · cases hclaim
    · dsimp only at hclaim
      split at hclaim
      · cases hclaim
        exact .inl ⟨_, rfl⟩
      · cases hclaim
  | ok claimed =>
    obtain ⟨claim, claimed⟩ := claimed
    rw [hclaim, ok_bind] at h
    dsimp only at h
    split at h
    · cases h
    · next hreplay =>
      cases hwork : work { db with toWorkspace := claimed } with
      | error e' =>
        rw [hwork] at h
        cases h
        exact .inr ⟨claim, claimed, rfl, Bool.eq_false_of_not_eq_true hreplay, hwork⟩
      | ok done =>
        obtain ⟨reply, after⟩ := done
        rw [hwork, ok_bind] at h
        dsimp only at h
        unfold completeIdempotency at h
        split at h
        · cases h
          exact .inl ⟨_, rfl⟩
        · cases h

theorem transact_open (db : PurchaseDb) {requestHash : String} (hcall : t.call = .openPaymentHandoff x.id)
    (hhash : contentDigest s.rt (openRequest x.id) = .ok requestHash) :
    transact s t db = keyed t.organizationId t.actorId "payment_handoffs.open" t.idempotencyKey
      requestHash 200 (openPaymentHandoffWork s t.organizationId x.id t.given) t.given db := by
  unfold transact
  rw [hcall]
  dsimp only
  unfold openPaymentHandoff
  unfold openRequest at hhash
  rw [hhash]
  rfl

theorem handOff_returns (hconsistent : Consistent db.core) (hkept : HandoffsKept s db.core)
    (hagain : HandsOffAgain db t again x a i) {status : Int} {payload : List (String × Value)}
    (h : handOffPurchase s again.organizationId again.actorId i.id again.idempotencyKey again.given
      db = .ok (.reply status payload, db')) :
    payload = paymentHandoffView x ∧ db'.handoffs = db.handoffs := by
  obtain ⟨hmem, -, htenant, -, hof, hbound, -, -, -, ⟨hsame, -⟩, hnew⟩ := hagain
  unfold handOffPurchase at h
  obtain ⟨⟨expiry, expired⟩, hexpiry, hrest⟩ := bind_eq_ok.mp h
  -- The first transaction found nothing expired.
  have hunchanged : expired = db ∨ ∃ problem, expiry = .problem problem := by
    unfold expirePurchaseApproval at hexpiry
    obtain ⟨intent, -, hexpiry⟩ := bind_eq_ok.mp hexpiry
    split at hexpiry
    · cases hexpiry
      exact .inl rfl
    · split at hexpiry
      · cases hexpiry
        exact .inl rfl
      · split at hexpiry
        · cases hexpiry
          exact .inl rfl
        · cases hexpiry
          exact .inr ⟨_, rfl⟩
  rcases hunchanged with rfl | ⟨problem, rfl⟩
  case inr => cases hrest
  have hcreate : createPaymentHandoff s again.organizationId again.actorId i.id
      again.idempotencyKey again.given expired = .ok (.reply status payload, db') := by
    dsimp only at hrest
    split at hrest
    · cases hrest
    · exact hrest
  unfold createPaymentHandoff at hcreate
  obtain ⟨requestHash, -, hcreate⟩ := bind_eq_ok.mp hcreate
  obtain ⟨before, reply, after, hbefore, hwork, hanswer, hafter⟩ := work_of_newKey hnew hcreate
  cases hanswer
  unfold createPaymentHandoffWork at hwork
  obtain ⟨intent, hintent, hwork⟩ := bind_eq_ok.mp hwork
  obtain ⟨decision, -, hwork⟩ := bind_eq_ok.mp hwork
  obtain ⟨-, hwork⟩ := check_bind_eq_ok.mp hwork
  rw [unless_throw_eq_ok] at hwork
  obtain ⟨-, hwork⟩ := hwork
  obtain ⟨approval, happroval, hdone⟩ := bind_eq_ok.mp hwork
  obtain ⟨hintentMem, hid, -⟩ := getPurchaseIntent_eq_ok (notFound_eq_ok hintent)
  obtain ⟨happroval, -⟩ := Option.filter_eq_some_iff.mp (firstOr_eq_ok happroval)
  obtain ⟨happrovalMem, -, happrovalOf, -⟩ := approvalOf_eq_some happroval
  rw [← hbefore] at hconsistent hkept hbound
  obtain rfl : intent = i := hconsistent.ids.intents.eq hintentMem hbound.intentMem hid
  obtain rfl : approval = a :=
    hconsistent.single.eq happrovalMem hbound.mem (happrovalOf.trans hbound.of)
  have hexisting : before.handoffs.find? (fun row => row.organizationId = again.organizationId ∧
      row.purchaseIntentId = intent.id ∧ row.approvalRequestId = approval.id) = some x := by
    have hpair : x.purchaseIntentId = intent.id ∧ x.approvalRequestId = approval.id := by
      refine ⟨?_, hof.symm⟩
      exact ((hkept.ofApproval hconsistent (hbefore ▸ hmem) hbound.mem).mpr hof.symm).trans
        hbound.of.symm
    refine hkept.single.find?_eq (hbefore ▸ hmem) (decide_eq_true ⟨htenant.trans hsame.symm, hpair⟩)
      (fun row hrow hfound => ?_)
    obtain ⟨-, hintent, happroval⟩ := of_decide_eq_true hfound
    rw [hintent, happroval, hpair.1, hpair.2]
  rw [hexisting] at hdone
  dsimp only at hdone
  split at hdone
  · cases hdone
  · cases hdone
    refine ⟨rfl, ?_⟩
    exact congrArg PurchaseCore.handoffs (hafter.trans hbefore)

/-- The call that is named for a handoff that cannot be opened works only if it is never named. -/
theorem hand_off_again_iff (hconsistent : Consistent db.core) (hkept : HandoffsKept s db.core)
    (hchecked : ∀ x ∈ db.handoffs, Checked s x) (hagain : HandsOffAgain db t again x a i) :
    (∀ e, transact s t db = .error e → nextAction e = some "create_payment_handoff" →
      ReturnsOpenable (handOffPurchase s again.organizationId again.actorId i.id
        again.idempotencyKey again.given db) again.given.now) ↔
      (ClaimsWork s t "payment_handoffs.open" (openRequest x.id) db → Openable x t.given.now) := by
  obtain ⟨requestHash, hhash⟩ := contentDigest_openRequest s.rt x.id
  have hopen := transact_open db hagain.call hhash
  have hwork : ∀ before : PurchaseDb, before.core = db.core →
      ∃ done, openPaymentHandoffWork s t.organizationId x.id t.given before =
        if x.status ≠ .ready ∨ x.expiresAt ≤ t.given.now then .error notOpenable else .ok done := by
    intro before hbefore
    refine openWork_of_approved (hbefore ▸ hconsistent.ids) (hbefore ▸ hkept.terms x hagain.mem)
      (hchecked x hagain.mem) ?_ hagain.tenant hagain.closed hagain.of (hbefore ▸ hagain.bound)
      hagain.approved
    have hsame : before.handoffs = db.handoffs := congrArg PurchaseCore.handoffs hbefore
    exact hsame ▸ hagain.mem
  constructor
  · rintro hworks ⟨claimedHash, claim, claimed, hclaimed, hclaim, hreplay⟩
    obtain rfl : requestHash = claimedHash := Except.ok.inj (hhash.symm.trans hclaimed)
    by_contra hclosed
    have hclosed : x.status ≠ .ready ∨ x.expiresAt ≤ t.given.now := by
      unfold Openable at hclosed
      rwa [not_and_or, not_lt] at hclosed
    obtain ⟨done, hdone⟩ := hwork { db with toWorkspace := claimed } rfl
    rw [if_pos hclosed] at hdone
    have hrefused : transact s t db = .error notOpenable := by
      rw [hopen]
      unfold keyed
      rw [hclaim, ok_bind]
      dsimp only
      rw [hreplay, if_neg Bool.false_ne_true, hdone]
      rfl
    obtain ⟨status, payload, db', y, hreturned, hy, hview, hready, htime⟩ :=
      hworks notOpenable hrefused nextAction_notOpenable
    obtain ⟨rfl, hsame⟩ := handOff_returns hconsistent hkept hagain hreturned
    -- What is returned is the handoff itself, which cannot be opened.
    have hid : x.id = y.id := by
      unfold paymentHandoffView at hview
      simpa [Value.str] using (List.cons.inj hview).1
    have hrow : y ∈ db.handoffs := hsame ▸ hy
    obtain rfl := hconsistent.ids.handoffs.eq hagain.mem hrow hid
    rcases hclosed with hstatus | hover
    · exact hstatus hready
    · exact absurd htime (not_lt.mpr (hover.trans hagain.later.2))
  · intro hready e hfails hnamed
    rw [hopen] at hfails
    rcases keyed_error hfails with ⟨message, rfl⟩ | ⟨claim, claimed, hclaim, hreplay, hrefused⟩
    · cases hnamed
    · obtain ⟨done, hdone⟩ := hwork { db with toWorkspace := claimed } rfl
      obtain ⟨hstatus, htime⟩ := hready ⟨requestHash, claim, claimed, hhash, hclaim, hreplay⟩
      rw [hrefused, if_neg (not_or.mpr ⟨not_not.mpr hstatus, not_le.mpr htime⟩)] at hdone
      cases hdone

end Handoffs

/-! ## Runs -/

/-- The action that a problem names works exactly when the problem is not named: before the hour of
    the request is over, and while the handoff can be opened. -/
structure NextActionsWorkInTime (s : WorkflowService) (db : PurchaseDb) : Prop where
  request : ∀ t again approver body a i, Decides t.call approver a.id body →
    RequestsAgain db t again a i →
      ((∀ e db', transact s t db = .ok (.problem e, db') →
        nextAction e = some "create_approval_request" →
          ∃ status payload db'', transact s again db' = .ok (.reply status payload, db'')) ↔
        (approver.stepUpVerified = true → t.given.now < a.expiresAt))
  handOff : ∀ t again x a i, HandsOffAgain db t again x a i →
    ((∀ e, transact s t db = .error e → nextAction e = some "create_payment_handoff" →
      ReturnsOpenable (handOffPurchase s again.organizationId again.actorId i.id
        again.idempotencyKey again.given db) again.given.now) ↔
      (ClaimsWork s t "payment_handoffs.open" (openRequest x.id) db → Openable x t.given.now))

/-- After every run the next actions work in time, and only then. -/
theorem next_actions_work_in_time (s : WorkflowService) {db : PurchaseDb}
    (hstart : Unrequested db.core) (run : List PurchaseTransaction) :
    NextActionsWorkInTime s (purchasesAfter s db run) := by
  have hconsistent := consistent_purchasesAfter (s := s) hstart run
  have hkept := handoffsKept_purchasesAfter (s := s) hstart run
  have hchecked : ∀ x ∈ (purchasesAfter s db run).core.handoffs, Checked s x := by
    refine (purchases_induction (I := fun core => ∀ x ∈ core.handoffs, Checked s x)
      hstart.consistent hstart.handoffsKept ?_
      (fun _ _ _ hconsistent _ hchecked hstep => checked_step hchecked hconsistent.ids hstep) run).2.2
    rw [hstart.handoffs]
    nofun
  exact ⟨fun t again approver body a i hcall hagain => request_again_iff hconsistent.ids hcall hagain,
    fun t again x a i hagain => hand_off_again_iff hconsistent hkept hchecked hagain⟩

namespace PurchaseSample

/-- The problem that an answer tells -/
def problem? : PurchaseAnswer → Option QualificationError
  | .problem e => some e
  | _ => none

/-- The approval request of the intent, an hour and two minutes after the first one -/
def requestAgain : PurchaseTransaction :=
  callAt "dana" "k9" 62 (.createApprovalRequest "pi_1")

end PurchaseSample

open PurchaseSample in
theorem next_actions_work_in_time_sample :
    NextActionsWorkInTime service (purchasesAfter service (locked ["ops"]) handedOff) :=
  next_actions_work_in_time service (unrequested_locked ["ops"]) handedOff

open PurchaseSample in
/-- An approve call after an hour says to request the approval again, which is refused. -/
theorem late_request_is_refused :
    Unrequested (locked ["ops"]).core ∧ ∃ e db',
      transact service (approveAs "alice" "k2" "ops" 61)
          (purchasesAfter service (locked ["ops"]) [request]) = .ok (.problem e, db') ∧
        nextAction e = some "create_approval_request" ∧
        transact service requestAgain db' = .error (.api "APPROVAL_ALREADY_STARTED"
          "Approval already exists for this exact Purchase Intent." 409) := by
  refine ⟨unrequested_locked ["ops"], ?_⟩
  generalize hresult : transact service (approveAs "alice" "k2" "ops" 61)
    (purchasesAfter service (locked ["ops"]) [request]) = result
  have hproblem : result.toOption.any (fun r => (problem? r.1).any (fun e =>
      nextAction e = some "create_approval_request")) = true := by
    rw [← hresult]
    decide +kernel
  have hrefused : result.toOption.any (fun r => error? (transact service requestAgain r.2) =
      some (.api "APPROVAL_ALREADY_STARTED"
        "Approval already exists for this exact Purchase Intent." 409)) = true := by
    rw [← hresult]
    decide +kernel
  obtain ⟨⟨answer, db'⟩, rfl, hnamed⟩ := exists_of_toOption_any hproblem
  obtain ⟨r, hr, hagain⟩ := exists_of_toOption_any hrefused
  obtain rfl := Except.ok.inj hr
  cases answer with
  | problem e =>
    exact ⟨e, db', rfl, of_decide_eq_true hnamed, error?_eq_some.mp (of_decide_eq_true hagain)⟩
  | _ => cases hnamed

end SiraApi
