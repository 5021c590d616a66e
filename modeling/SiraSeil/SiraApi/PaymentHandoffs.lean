-- SUMMARY: A payment handoff is opened at most once, in its time and while its approval and its intent stand; none can be opened once the approval was revoked or the decision replaced.
import SiraSeil.SiraApi.PurchaseInvariants

/-!
# Opening payment handoffs

An intent whose approval was revoked, or whose decision was replaced, is dead: it cannot be
approved again, and no handoff of it can be opened. Dead intents stay dead, so that the window
that a revocation or a supersession closes is closed for every later transaction.
-/

namespace SiraApi

open Domain Persistence PurchaseDb PurchaseCore

/-- An intent that cannot be approved, and of which no handoff can be opened. -/
structure Dead (intentId : String) (core : PurchaseCore) : Prop where
  intent : ∃ i ∈ core.intents, i.id = intentId ∧ ¬ ApprovalIsLive i.approvalStatus
  closed : ∀ x ∈ core.handoffs, x.purchaseIntentId = intentId → x.status ≠ .ready

/-- A handoff is opened while it can be: by its call, before it expires, with its approval and its
    intent approved for its hash. -/
structure OpenedAsApproved (t : PurchaseTransaction) (core : PurchaseCore) (x : PaymentHandoff) :
    Prop where
  called : t.call = .openPaymentHandoff x.id
  ready : x.status = .ready
  approval : ∃ a ∈ core.approvals, a.id = x.approvalRequestId ∧ a.status = .approved ∧
    a.intentHash = x.intentHash
  intent : ∃ i ∈ core.intents, i.id = x.purchaseIntentId ∧ i.approvalStatus = .approved ∧
    i.intentHash = x.intentHash
  inTime : t.given.now < x.expiresAt

section Steps

variable {s : WorkflowService} {t : PurchaseTransaction} {organizationId intentId : String}
  {core core' : PurchaseCore}

/-! ## Opened handoffs -/

theorem opened_of_retires (h : Retires organizationId core core') :
    ∀ x ∈ core'.handoffs, x.status = .opened → x ∈ core.handoffs :=
  h.preserves (I := fun c => ∀ x ∈ c.handoffs, x.status = .opened → x ∈ core.handoffs)
    (fun c c' hc hone => by
      cases hone with
      | of _ _ =>
        intro x hx hopened
        rcases mem_retire_handoffs hx with ⟨hx, -⟩ | ⟨r, -, -, -, rfl⟩
        · exact hc x hx hopened
        · cases hopened) (fun _ hx _ => hx)

variable {x : PaymentHandoff} {intent : PurchaseIntent}

theorem opened_of_withoutReady {approvalId : String} {handoffs : List PaymentHandoff}
    (hx : x ∈ withoutReady organizationId approvalId handoffs) (hopened : x.status = .opened) :
    x ∈ handoffs := by
  unfold withoutReady at hx
  split at hx
  · rcases Table.mem_update.mp hx with ⟨r, -, -, rfl⟩ | ⟨hx, -⟩
    · cases hopened
    · exact hx
  · exact hx

theorem opened_of_step (hstep : PurchaseStep s t core core') {x' : PaymentHandoff}
    (hx' : x' ∈ core'.handoffs) (hopened : x'.status = .opened) :
    x' ∈ core.handoffs ∨ ∃ x ∈ core.handoffs, OpenedAsApproved t core x ∧ x' = { x with
      status := .opened
      openedAt := some t.given.now } := by
  cases hstep with
  | accepts _ _ _ _ hretires =>
    have hbefore := opened_of_retires hretires x' hx' hopened
    exact .inl hbefore
  | selects _ _ _ _ hretires =>
    have hbefore := opened_of_retires hretires x' hx' hopened
    exact .inl hbefore
  | revokes => exact .inl (opened_of_withoutReady hx' hopened)
  | hands =>
    rcases List.mem_append.mp hx' with hx' | hx'
    · exact .inl hx'
    · rw [List.mem_singleton.mp hx'] at hopened
      cases hopened
  | opens hcall hhandoff hintent happroval happroved hhash hready htime =>
    rcases Table.mem_update.mp hx' with ⟨-, -, -, rfl⟩ | ⟨hx', -⟩
    · exact .inr ⟨_, hhandoff, ⟨hcall, hready, ⟨_, happroval.1, happroval.2, happroved.2, hhash.1⟩,
        ⟨_, hintent.1, hintent.2, happroved.1, hhash.2⟩, htime⟩, rfl⟩
    · exact .inl hx'
  | stays => exact .inl hx'
  | discovers => exact .inl hx'
  | locks => exact .inl hx'
  | requests => exact .inl hx'
  | stages => exact .inl hx'
  | rejects => exact .inl hx'
  | expires => exact .inl hx'

theorem HandoffsKept.closed_stays (h : HandoffsKept s core) (hids : KeyedIds core)
    (hstep : PurchaseStep s t core core') (hx : x ∈ core.handoffs)
    (hclosed : x.status ≠ .ready) : x ∈ core'.handoffs := by
  rcases hids.handoffsFrom hstep with hfrom | ⟨approval, intent, handoffHash, -, -, -, -, -, rfl⟩
  · have hpair : (x.purchaseIntentId, x.approvalRequestId) ∈
        core'.handoffs.map (fun x => (x.purchaseIntentId, x.approvalRequestId)) :=
      hfrom.pairs ▸ List.mem_map_of_mem hx
    obtain ⟨x', hx', hsame⟩ := List.mem_map.mp hpair
    obtain ⟨y, hy, hlater⟩ := hfrom.rows x' hx'
    have hown : y = x := by
      refine h.single.eq hy hx (Eq.trans ?_ hsame)
      rw [hlater.1]
    rw [hown] at hlater
    exact hlater.2 hclosed ▸ hx'
  · exact List.mem_append_left _ hx

/-! ## Dead intents -/

theorem Dead.retire (h : Dead intentId core) :
    Dead intentId (core.retire organizationId intent) where
  intent := by
    obtain ⟨i, hi, hid, hdead⟩ := h.intent
    unfold PurchaseCore.retire
    dsimp only
    split
    · exact Table.exists_update hi ⟨hid, hdead⟩ (fun _ => ⟨hid, by simp [ApprovalIsLive]⟩)
    · exact ⟨i, hi, hid, hdead⟩
  closed := by
    intro x hx hof hready
    rcases mem_retire_handoffs hx with ⟨hx, -⟩ | ⟨r, -, -, -, rfl⟩
    · exact h.closed x hx hof hready
    · cases hready

theorem dead_of_retires (hretires : Retires organizationId core core') (h : Dead intentId core) :
    Dead intentId core' :=
  hretires.preserves (fun c c' hc hone => by
    cases hone with
    | of _ _ => exact hc.retire) h

theorem exists_notLive {intents : List PurchaseIntent} {endedId : String} {status : ApprovalStatus}
    (hstatus : ¬ ApprovalIsLive status)
    (h : ∃ i ∈ intents, i.id = intentId ∧ ¬ ApprovalIsLive i.approvalStatus) :
    ∃ i ∈ Table.update (·.id) endedId (fun (i : PurchaseIntent) => { i with
      approvalStatus := status }) intents, i.id = intentId ∧ ¬ ApprovalIsLive i.approvalStatus := by
  obtain ⟨i, hi, hid, hdead⟩ := h
  exact Table.exists_update hi ⟨hid, hdead⟩ (fun _ => ⟨hid, hstatus⟩)

theorem Dead.intent_step (h : Dead intentId core) (hconsistent : Consistent core)
    (hstep : PurchaseStep s t core core') :
    ∃ i ∈ core'.intents, i.id = intentId ∧ ¬ ApprovalIsLive i.approvalStatus := by
  obtain ⟨i, hi, hid, hdead⟩ := h.intent
  cases hstep with
  | accepts _ _ _ _ hretires => exact (dead_of_retires hretires ⟨⟨i, hi, hid, hdead⟩, h.closed⟩).intent
  | selects _ _ _ _ hretires => exact (dead_of_retires hretires ⟨⟨i, hi, hid, hdead⟩, h.closed⟩).intent
  | locks => exact ⟨i, List.mem_append_left _ hi, hid, hdead⟩
  | requests _ hintent hnone =>
    refine ⟨i, Table.mem_update.mpr (.inr ⟨hi, fun hsame => hdead (.inl ?_)⟩), hid, hdead⟩
    rw [hconsistent.ids.intents.eq hi hintent hsame]
    exact hnone
  | stages _ hof _ hopen =>
    unfold withStage
    dsimp only
    split
    · refine ⟨i, Table.mem_update.mpr (.inr ⟨hi, fun hsame => hdead (.inr ?_)⟩), hid, hdead⟩
      rw [hconsistent.ids.intents.eq hi hof.intentMem hsame,
        (hconsistent.binds hof.mem hof.intentMem hof.of).status]
      exact hopen
    · exact ⟨i, hi, hid, hdead⟩
  | rejects => exact exists_notLive (by simp [ApprovalIsLive]) ⟨i, hi, hid, hdead⟩
  | revokes => exact exists_notLive (by simp [ApprovalIsLive]) ⟨i, hi, hid, hdead⟩
  | expires => exact exists_notLive (by simp [ApprovalIsLive]) ⟨i, hi, hid, hdead⟩
  | stays => exact ⟨i, hi, hid, hdead⟩
  | discovers => exact ⟨i, hi, hid, hdead⟩
  | hands => exact ⟨i, hi, hid, hdead⟩
  | opens => exact ⟨i, hi, hid, hdead⟩

theorem Dead.step (h : Dead intentId core) (hconsistent : Consistent core)
    (hstep : PurchaseStep s t core core') : Dead intentId core' where
  intent := h.intent_step hconsistent hstep
  closed := by
    intro x' hx' hof hready
    rcases hconsistent.ids.handoffsFrom hstep with hfrom |
      ⟨approval, intent, handoffHash, hbound, -, happroved, -, -, rfl⟩
    · obtain ⟨x, hx, hlater⟩ := hfrom.rows x' hx'
      have hxof : x.purchaseIntentId = intentId := by
        rw [hlater.1] at hof
        exact hof
      have hclosed := h.closed x hx hxof
      exact hclosed (hlater.2 hclosed ▸ hready)
    · rcases List.mem_append.mp hx' with hx' | hx'
      · exact h.closed x' hx' hof hready
      · -- A handoff is prepared for an approved intent, which is not dead.
        rw [List.mem_singleton.mp hx'] at hof
        obtain ⟨i, hi, hid, hdead⟩ := h.intent
        rw [hconsistent.ids.intents.eq hi hbound.intentMem (hid.trans hof.symm)] at hdead
        exact hdead (.inr (.inr happroved))

/-! ## What kills an intent -/

theorem HandoffsKept.tenant (h : HandoffsKept s core) (hids : KeyedIds core) {i : PurchaseIntent}
    (hx : x ∈ core.handoffs) (hi : i ∈ core.intents)
    (hof : x.purchaseIntentId = i.id) : x.organizationId = i.organizationId := by
  obtain ⟨row, hrow, hid, htenant, -⟩ := (h.terms x hx).intent
  rw [hids.intents.eq hrow hi (hid.trans hof)] at htenant
  exact htenant.symm

theorem dead_of_retired (hkept : HandoffsKept s core) (hids : KeyedIds core) {i : PurchaseIntent}
    (hi : i ∈ core.intents) (hretired : Retired i.organizationId i.id core) : Dead i.id core where
  intent := ⟨i, hi, rfl, hretired.dead i hi rfl⟩
  closed := fun x hx hof => hretired.closed x hx (hkept.tenant hids hx hi hof) hof

theorem HandoffsKept.ofApproval (h : HandoffsKept s core) (hconsistent : Consistent core)
    {a : ApprovalRequest} (hx : x ∈ core.handoffs) (ha : a ∈ core.approvals) :
    x.purchaseIntentId = a.purchaseIntentId ↔ x.approvalRequestId = a.id := by
  obtain ⟨row, hrow, hid, hof, -⟩ := (h.terms x hx).approval
  constructor
  · intro hintent
    rw [← hid, hconsistent.single.eq hrow ha (hof.trans hintent)]
  · intro happroval
    rw [← hof, hconsistent.ids.approvals.eq hrow ha (hid.trans happroval)]

/-- A revoked intent is dead: the one handoff of its approval that could be opened is
    cancelled. -/
theorem dead_of_revokes (hconsistent : Consistent core) (hkept : HandoffsKept s core)
    {approval : ApprovalRequest} {events : List ApprovalEvent}
    (hof : BoundApproval core organizationId approval intent) :
    Dead intent.id { withEnd core approval.id intent.id .revoked with
      approvalEvents := events
      handoffs := withoutReady organizationId approval.id core.handoffs } where
  intent := ⟨_, Table.mem_update.mpr (.inl ⟨intent, hof.intentMem, rfl, rfl⟩), rfl,
    by simp [ApprovalIsLive]⟩
  closed := by
    intro x hx hxof hready
    have hown : ∀ y ∈ core.handoffs, y.purchaseIntentId = intent.id →
        y.approvalRequestId = approval.id := fun y hy hyof =>
      (hkept.ofApproval hconsistent hy hof.mem).mp (hyof.trans hof.of)
    dsimp only at hx
    unfold withoutReady at hx
    split at hx
    · next handoff hfind =>
      rcases Table.mem_update.mp hx with ⟨r, -, -, rfl⟩ | ⟨hx, hne⟩
      · cases hready
      · have hfound := List.find?_some hfind
        obtain ⟨-, happroval, -⟩ := of_decide_eq_true hfound
        have hhandoff := List.mem_of_find?_eq_some hfind
        have hintent := (hkept.ofApproval hconsistent hhandoff hof.mem).mpr happroval
        have hsame : x = handoff := by
          refine hkept.single.eq hx hhandoff (Prod.ext ?_ ?_)
          · exact hxof.trans (hof.of.trans hintent.symm)
          · exact (hown x hx hxof).trans happroval.symm
        exact hne (congrArg _ hsame)
    · next hnone =>
      have htenant := hkept.tenant hconsistent.ids hx hof.intentMem hxof
      exact List.find?_eq_none.mp hnone x hx
        (decide_eq_true ⟨htenant.trans hof.intentTenant, hown x hx hxof, hready⟩)

/-- The intents of revoked and superseded approval requests are dead. -/
def EndedDead (core : PurchaseCore) : Prop :=
  ∀ a ∈ core.approvals, a.status = .revoked ∨ a.status = .superseded → Dead a.purchaseIntentId core

theorem EndedDead.congr (h : EndedDead core) (hintents : core'.intents = core.intents)
    (happrovals : core'.approvals = core.approvals) (hhandoffs : core'.handoffs = core.handoffs) :
    EndedDead core' := by
  intro a ha hended
  rw [happrovals] at ha
  obtain ⟨hintent, hclosed⟩ := h a ha hended
  exact ⟨hintents ▸ hintent, hhandoffs ▸ hclosed⟩

theorem HandoffsKept.retires (h : HandoffsKept s core) (hretires : Retires organizationId core core') :
    HandoffsKept s core' :=
  h.of_from (keepsTerms_retires hretires) (handoffsFrom_retires hretires)

theorem EndedDead.retire (h : EndedDead core) (hconsistent : Consistent core)
    (hkept : HandoffsKept s core) (hintent : intent ∈ core.intents)
    (htenant : intent.organizationId = organizationId) :
    EndedDead (core.retire organizationId intent) := by
  obtain ⟨i, hi, hlater⟩ := keepsTerms_retire.intents intent hintent
  have hid : i.id = intent.id := by
    rw [hlater]
  have hof : i.organizationId = organizationId := by
    rw [hlater]
    exact htenant
  have hdead : Dead i.id (core.retire organizationId intent) := by
    refine dead_of_retired (hkept.retires (.single (.of hintent htenant)))
      (hconsistent.retire hintent htenant).ids hi ?_
    rw [hof, hid]
    exact retired_retire hconsistent.ids.intents hintent
  intro a ha hended
  obtain ⟨r, hr, rfl | ⟨hrof, rfl⟩⟩ := mem_retire_approvals ha
  · exact (h a hr hended).retire
  · rw [hid] at hdead
    exact hrof.symm ▸ hdead

theorem endedDead_of_retires (hretires : Retires organizationId core core')
    (hconsistent : Consistent core) (hkept : HandoffsKept s core) (h : EndedDead core) :
    EndedDead core' :=
  (hretires.preserves (I := fun c => Consistent c ∧ HandoffsKept s c ∧ EndedDead c)
    (fun c c' hc hone => by
      obtain ⟨hconsistent, hkept, hdead⟩ := hc
      cases hone with
      | of hintent htenant =>
        exact ⟨hconsistent.retire hintent htenant, hkept.retires (.single (.of hintent htenant)),
          hdead.retire hconsistent hkept hintent htenant⟩) ⟨hconsistent, hkept, h⟩).2.2

theorem EndedDead.step (h : EndedDead core) (hconsistent : Consistent core)
    (hkept : HandoffsKept s core) (hstep : PurchaseStep s t core core') : EndedDead core' := by
  have hold : ∀ a ∈ core.approvals, a.status = .revoked ∨ a.status = .superseded →
      Dead a.purchaseIntentId core' := fun a ha hended => (h a ha hended).step hconsistent hstep
  intro a ha hended
  cases hstep with
  | accepts _ _ _ _ hretires =>
    exact endedDead_of_retires hretires (hconsistent.congr rfl rfl hconsistent.ids.handoffs)
      (hkept.of_from (.of_eq rfl rfl) (.refl _)) (h.congr rfl rfl rfl) a ha hended
  | selects _ _ _ _ hretires =>
    exact endedDead_of_retires hretires (hconsistent.congr rfl rfl hconsistent.ids.handoffs)
      (hkept.of_from (.of_eq rfl rfl) (.refl _)) (h.congr rfl rfl rfl) a ha hended
  | requests _ _ _ _ _ _ hpending =>
    rcases List.mem_append.mp ha with ha | ha
    · exact hold a ha hended
    · rw [List.mem_singleton.mp ha, hpending] at hended
      simp at hended
  | stages _ hof _ hopen _ hnext =>
    rcases Table.mem_update.mp ha with ⟨-, -, -, rfl⟩ | ⟨ha, -⟩
    · -- The row of a stage is pending or approved.
      obtain ⟨hnew, -⟩ := (hconsistent.stages _ hof.mem).withRole hnext
      rw [staged_eq hnew] at hended
      dsimp only at hended
      rcases hopen with hstatus | hstatus <;> rw [hstatus] at hended <;> split at hended <;>
        simp at hended
    · exact hold a ha hended
  | rejects =>
    rcases Table.mem_update.mp ha with ⟨row, hrow, hid, rfl⟩ | ⟨ha, -⟩
    · simp at hended
    · exact hold a ha hended
  | revokes _ hof =>
    rcases Table.mem_update.mp ha with ⟨row, hrow, hid, rfl⟩ | ⟨ha, -⟩
    · rw [hconsistent.ids.approvals.eq hrow hof.mem hid]
      exact hof.of ▸ dead_of_revokes hconsistent hkept hof
    · exact hold a ha hended
  | expires =>
    rcases Table.mem_update.mp ha with ⟨row, hrow, hid, rfl⟩ | ⟨ha, -⟩
    · simp at hended
    · exact hold a ha hended
  | stays => exact hold a ha hended
  | discovers => exact hold a ha hended
  | locks => exact hold a ha hended
  | hands => exact hold a ha hended
  | opens => exact hold a ha hended

end Steps

/-! ## Runs -/

/-- The intents of the decisions that a decision replaces -/
def OfReplaced (core : PurchaseCore) (d : DecisionRecord) (i : PurchaseIntent) : Prop :=
  i ∈ core.intents ∧ i.organizationId = d.organizationId ∧
    ∃ x ∈ core.decisions, x.id = i.decisionId ∧ x.organizationId = d.organizationId ∧
      x.purchaseRequestId = d.purchaseRequestId

/-- What holds of handoffs after a run, and of every transaction and every run that follow. -/
structure HandoffsStand (s : WorkflowService) (db : PurchaseDb) (run : List PurchaseTransaction) :
    Prop where
  kept : HandoffsKept s (purchasesAfter s db run).core
  /-- A handoff is opened as it was approved, and stays the row that it is then. -/
  openedOnce : ∀ t, ∀ x ∈ (purchasesAfter s db run).handoffs, x.status = .ready →
    ∀ x' ∈ (purchasesAfter s db (run ++ [t])).handoffs, x'.id = x.id → x'.status = .opened →
      OpenedAsApproved t (purchasesAfter s db run).core x ∧
        ∀ later, ∀ y ∈ (purchasesAfter s db (run ++ [t] ++ later)).handoffs, y.id = x.id → y = x'
  /-- A call that revokes leaves its approval revoked, unless its record answers for it. -/
  revokes : ∀ t approver approvalId body answer db',
    t.call = .revokeApproval approver approvalId body →
      transact s t (purchasesAfter s db run) = .ok (answer, db') →
        db'.core = (purchasesAfter s db run).core ∨
          ∃ a ∈ db'.approvals, a.id = approvalId ∧ a.status = .revoked
  /-- Of the intent of a revoked or superseded approval no handoff can be opened any more. -/
  ended : ∀ a ∈ (purchasesAfter s db run).approvals,
    a.status = .revoked ∨ a.status = .superseded →
      ∀ later, ∀ x ∈ (purchasesAfter s db (run ++ later)).handoffs,
        x.purchaseIntentId = a.purchaseIntentId → x.status ≠ .ready
  /-- A proposal that is accepted or a plan that is selected leaves no handoff of an intent of an
      earlier decision that could be opened. -/
  replaced : ∀ t answer db' d, transact s t (purchasesAfter s db run) = .ok (answer, db') →
    (∀ requestId artifacts, t.call ≠ .discover requestId artifacts) →
      d ∈ db'.decisions → d ∉ (purchasesAfter s db run).decisions →
        ∀ i, OfReplaced (purchasesAfter s db run).core d i →
          ∀ later, ∀ x ∈ (purchasesAfter s db (run ++ [t] ++ later)).handoffs,
            x.purchaseIntentId = i.id → x.status ≠ .ready

section Runs

variable {s : WorkflowService} {t : PurchaseTransaction} {db db' : PurchaseDb}
  {answer : PurchaseAnswer} {intentId : String}

theorem revoked_of_transact (hconsistent : Consistent db.core) {approver : Approver}
    {approvalId : String} {body : ApprovalBody}
    (hcall : t.call = .revokeApproval approver approvalId body)
    (h : transact s t db = .ok (answer, db')) :
    db'.core = db.core ∨ ∃ a ∈ db'.approvals, a.id = approvalId ∧ a.status = .revoked := by
  have hstep := transact_step hconsistent.ids h
  have happrovals : db'.approvals = db'.core.approvals := rfl
  rw [happrovals]
  generalize db'.core = core' at hstep
  cases hstep with
  | revokes hcall' hof =>
    rw [hcall] at hcall'
    cases hcall'
    exact .inr ⟨_, Table.mem_update.mpr (.inl ⟨_, hof.mem, rfl, rfl⟩), rfl, rfl⟩
  | expires _ _ hcause =>
    rcases hcause with ⟨_, _, hcall' | hcall', -⟩ | ⟨hcall', -⟩ <;>
      · rw [hcall] at hcall'
        cases hcall'
  | stays => exact .inl rfl
  | discovers hcall' => rw [hcall] at hcall'; cases hcall'
  | accepts hcall' => rw [hcall] at hcall'; cases hcall'
  | selects hcall' => rw [hcall] at hcall'; cases hcall'
  | locks hcall' => rw [hcall] at hcall'; cases hcall'
  | requests hcall' => rw [hcall] at hcall'; cases hcall'
  | stages hcall' => rw [hcall] at hcall'; cases hcall'
  | rejects hcall' => rw [hcall] at hcall'; cases hcall'
  | hands hcall' => rw [hcall] at hcall'; cases hcall'
  | opens hcall' => rw [hcall] at hcall'; cases hcall'

/-- A decision that a transaction other than a discovery appends leaves the intents of the
    earlier ones dead. -/
theorem dead_of_replaced (hconsistent : Consistent db.core) (hkept : HandoffsKept s db.core)
    (h : transact s t db = .ok (answer, db'))
    (hcall : ∀ requestId artifacts, t.call ≠ .discover requestId artifacts) {d : DecisionRecord}
    (hd : d ∈ db'.decisions) (hnew : d ∉ db.decisions) {i : PurchaseIntent}
    (hi : OfReplaced db.core d i) : Dead i.id db'.core := by
  have hstep := transact_step hconsistent.ids h
  have hdead : EarlierRetired db.core db'.core d → Dead i.id db'.core := by
    intro hretired
    obtain ⟨hmem, htenant, hearlier⟩ := hi
    obtain ⟨i', hi', hlater⟩ := (hconsistent.keepsTerms hstep).intents i hmem
    have hid : i'.id = i.id := by
      rw [hlater]
    have hof : i'.organizationId = i.organizationId := by
      rw [hlater]
    rw [← hid]
    refine dead_of_retired (hkept.step hconsistent hstep) (hconsistent.step hstep).ids hi' ?_
    rw [hid, hof, htenant]
    exact hretired i hmem htenant hearlier
  have happended : ∀ last, db'.decisions = db.decisions ++ [last] → d = last := by
    intro last heq
    rw [heq, List.mem_append, List.mem_singleton] at hd
    exact hd.resolve_left hnew
  have hsame : db'.decisions = db.decisions → Dead i.id db'.core := fun heq =>
    absurd (heq ▸ hd) hnew
  have hdecisions : db'.decisions = db'.core.decisions := rfl
  rw [hdecisions] at happended hsame
  clear hdecisions hd
  generalize db'.core = core' at hstep hdead happended hsame
  cases hstep with
  | discovers hcall' => exact absurd hcall' (hcall _ _)
  | accepts _ _ _ _ hretires hretired =>
    obtain rfl := happended _ hretires.frame.1
    exact hdead hretired
  | selects _ _ _ _ hretires hretired =>
    obtain rfl := happended _ hretires.frame.1
    exact hdead hretired
  | stays => exact hsame rfl
  | locks => exact hsame rfl
  | requests => exact hsame rfl
  | stages => exact hsame rfl
  | rejects => exact hsame rfl
  | revokes => exact hsame rfl
  | expires => exact hsame rfl
  | hands => exact hsame rfl
  | opens => exact hsame rfl

theorem Dead.run (h : Dead intentId db.core) (hconsistent : Consistent db.core)
    (hkept : HandoffsKept s db.core) (later : List PurchaseTransaction) :
    Dead intentId (purchasesAfter s db later).core :=
  (purchases_induction hconsistent hkept h
    (fun _ _ _ hconsistent _ hdead hstep => hdead.step hconsistent hstep) later).2.2

theorem closed_stays_run (hconsistent : Consistent db.core) (hkept : HandoffsKept s db.core)
    {x : PaymentHandoff} (hx : x ∈ db.handoffs) (hclosed : x.status ≠ .ready)
    (later : List PurchaseTransaction) : x ∈ (purchasesAfter s db later).handoffs :=
  (purchases_induction (I := fun core => x ∈ core.handoffs) hconsistent hkept hx
    (fun _ _ _ hconsistent hkept hx hstep =>
      hkept.closed_stays hconsistent.ids hstep hx hclosed) later).2.2

end Runs

/-- Payment handoffs are opened only as approved, in every run. -/
theorem payment_handoffs_stand (s : WorkflowService) {db : PurchaseDb}
    (hstart : Unrequested db.core) (run : List PurchaseTransaction) : HandoffsStand s db run := by
  have hconsistent := consistent_purchasesAfter (s := s) hstart run
  have hkept := handoffsKept_purchasesAfter (s := s) hstart run
  refine ⟨hkept, ?opened, fun t approver approvalId body answer db' hcall hdone =>
    revoked_of_transact hconsistent hcall hdone, ?ended, ?replaced⟩
  case opened =>
    intro t x hx hready x' hx' hid hopened
    have hconsistent' := consistent_purchasesAfter (s := s) hstart (run ++ [t])
    have hkept' := handoffsKept_purchasesAfter (s := s) hstart (run ++ [t])
    refine ⟨?_, fun later y hy hyid => ?_⟩
    · have hstep : x' ∈ (purchasesAfter s db run).handoffs ∨
          ∃ y ∈ (purchasesAfter s db run).handoffs,
            OpenedAsApproved t (purchasesAfter s db run).core y ∧ y.id = x'.id := by
        unfold purchasesAfter at hx' ⊢
        rw [Transactions.run_concat] at hx'
        rcases Transactions.after_cases (f := transact s) (Transactions.run (transact s) db run) t
          with ⟨answer, db', hdone, heq⟩ | ⟨e, -, heq⟩
        · rw [heq] at hx'
          rcases opened_of_step (transact_step hconsistent.ids hdone) hx' hopened with
            hbefore | ⟨y, hy, happroved, rfl⟩
          · exact .inl hbefore
          · exact .inr ⟨y, hy, happroved, rfl⟩
        · rw [heq] at hx'
          exact .inl hx'
      rcases hstep with hbefore | ⟨y, hy, happroved, hsame⟩
      · rw [hconsistent.ids.handoffs.eq hbefore hx hid, hready] at hopened
        cases hopened
      · rwa [hconsistent.ids.handoffs.eq hy hx (hsame.trans hid)] at happroved
    · have hclosed : x'.status ≠ .ready := by
        rw [hopened]
        nofun
      have hstays := closed_stays_run hconsistent' hkept' hx' hclosed later
      rw [← purchasesAfter_append] at hstays
      have hids := (consistent_purchasesAfter (s := s) hstart (run ++ [t] ++ later)).ids
      exact hids.handoffs.eq hy hstays (hyid.trans hid.symm)
  case ended =>
    intro a ha hended later x hx hof
    have hdead : EndedDead (purchasesAfter s db run).core := by
      refine (purchases_induction hstart.consistent hstart.handoffsKept ?_
        (fun _ _ _ hconsistent hkept hdead hstep => hdead.step hconsistent hkept hstep) run).2.2
      intro a ha
      rw [hstart.approvals] at ha
      cases ha
    rw [purchasesAfter_append] at hx
    exact ((hdead a ha hended).run hconsistent hkept later).closed x hx hof
  case replaced =>
    intro t answer db' d hdone hcall hd hnew i hi later x hx hof
    have hafter : purchasesAfter s db (run ++ [t]) = db' := by
      rw [purchasesAfter_append]
      exact Transactions.after_of_ok hdone
    have hdead := dead_of_replaced hconsistent hkept hdone hcall hd hnew hi
    have hconsistent' := consistent_purchasesAfter (s := s) hstart (run ++ [t])
    have hkept' := handoffsKept_purchasesAfter (s := s) hstart (run ++ [t])
    rw [purchasesAfter_append, hafter] at hx
    rw [hafter] at hconsistent' hkept'
    exact (hdead.run hconsistent' hkept' later).closed x hx hof

namespace PurchaseSample

def handOff (key : String) (minutes : Int) : PurchaseTransaction :=
  callAt "dana" key minutes (.createPaymentHandoff "pi_1")

def openHandoff (key handoffId : String) (minutes : Int) : PurchaseTransaction :=
  callAt "dana" key minutes (.openPaymentHandoff handoffId)

/-- An approval, and the handoff `phd_k3` that is opened under it -/
def handedOff : List PurchaseTransaction :=
  [request, approveAs "alice" "k2" "ops" 1, handOff "k3" 2, openHandoff "k4" "phd_k3" 3]

end PurchaseSample

open PurchaseSample in
theorem payment_handoffs_stand_sample : HandoffsStand service (locked ["ops"]) handedOff :=
  payment_handoffs_stand service (unrequested_locked ["ops"]) handedOff

end SiraApi
