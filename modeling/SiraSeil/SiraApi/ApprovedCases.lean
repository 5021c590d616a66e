-- SUMMARY: What is approved of a case: nothing before the case is, then one offer by one approval, and no later transaction changes either of them.
import SiraSeil.SiraApi.ExchangeAgreement

/-!
# Approved cases

A case that is approved for handoff has one approved offer and one approval, and no
later call changes either. Its handoffs are bound to both: they take over the amount
and expire with the earlier of the two. Nothing here depends on hashes being distinct.
-/

namespace SiraApi

open Domain Persistence Interleaving

/-! ## What was approved of a case -/

/-- The approved offers of a case. -/
def approvedOf (db : Db) (organizationId caseId : String) : List BilateralOfferVersion :=
  (db.offersOf organizationId caseId).filter (·.approvalStatus = .approved)

/-- Nothing is approved of a case before the case itself is, and then one offer is, by one
    approval that names it. -/
inductive ApprovalOf (db : Db) (c : BilateralExchangeCase) : Prop
  | pending (hstate : c.coordinatorState.state ≠ .approvedForHandoff)
      (hoffers : approvedOf db c.organizationId c.id = [])
      (happrovals : approvalsOf db c.organizationId c.id = [])
  | given {offer : BilateralOfferVersion} {approval : BilateralOfferApproval}
      (hstate : c.coordinatorState.state = .approvedForHandoff)
      (hoffers : approvedOf db c.organizationId c.id = [offer])
      (happrovals : approvalsOf db c.organizationId c.id = [approval])
      (hhash : approval.offerHash = offer.terms.offerHash)

/-- A handoff is bound to the approved offer of its case and to the approval of it. -/
structure Bound (db : Db) (h : BilateralExchangeHandoff) (c : BilateralExchangeCase)
    (offer : BilateralOfferVersion) (approval : BilateralOfferApproval) : Prop where
  mem : c ∈ db.cases
  organization : c.organizationId = h.organizationId
  caseId : c.id = h.caseId
  state : c.coordinatorState.state = .approvedForHandoff
  offers : approvedOf db c.organizationId c.id = [offer]
  approvals : approvalsOf db c.organizationId c.id = [approval]
  names : approval.offerHash = offer.terms.offerHash
  offerHash : h.offerHash = offer.terms.offerHash
  approvalHash : h.approvalHash = approval.approvalHash
  amount : h.amount = offer.terms.total
  currency : h.currency = offer.terms.currency
  beforeOffer : h.expiresAt.micros ≤ offer.terms.expiresAt.micros
  beforeApproval : h.expiresAt.micros ≤ approval.expiresAt.micros

/-- The tenant, the case and the offer of a handoff. -/
def slotOf (h : BilateralExchangeHandoff) : String × String × String :=
  (h.organizationId, h.caseId, h.offerHash)

/-- Approvals and handoffs as the operations leave them. -/
structure Handoffs (s : ExchangeService) (db : Db) : Prop where
  filed : Filed db
  approvals : ∀ c ∈ db.cases, ApprovalOf db c
  ids : Table.Keyed (·.handoffId) db.handoffs
  slots : Table.Keyed slotOf db.handoffs
  valid : ∀ h ∈ db.handoffs, ExchangePaymentHandoff.new s.rt s.https
    h.toExchangePaymentHandoffData = .ok h.toExchangePaymentHandoff
  live : ∀ h ∈ db.handoffs, h.status = .ready ∨ h.status = .opened
  bound : ∀ h ∈ db.handoffs, ∃ c offer approval, Bound db h c offer approval

/-- A handoff of the same contract, that may have been opened. -/
def Continues (h h' : BilateralExchangeHandoff) : Prop :=
  h' = { h with status := h'.status, openedAt := h'.openedAt }

/-- Approved cases stay as they are, with what was approved of them, and every handoff stays
    with its contract. -/
structure Preserves (db db' : Db) : Prop where
  cases : ∀ c ∈ db.cases, c.coordinatorState.state = .approvedForHandoff → c ∈ db'.cases ∧
    db'.offersOf c.organizationId c.id = db.offersOf c.organizationId c.id ∧
    approvalsOf db' c.organizationId c.id = approvalsOf db c.organizationId c.id
  handoffs : ∀ h ∈ db.handoffs, ∃ h' ∈ db'.handoffs, Continues h h'

section Approvals

variable {s : ExchangeService} {db db' prepared : Db} {c c' : BilateralExchangeCase}
  {organizationId caseId : String}

theorem Continues.refl (h : BilateralExchangeHandoff) : Continues h h :=
  rfl

theorem Continues.trans {h h' h'' : BilateralExchangeHandoff}
    (hfirst : Continues h h') (hsecond : Continues h' h'') : Continues h h'' := by
  unfold Continues at *
  rw [hsecond, hfirst]

theorem Preserves.refl (db : Db) : Preserves db db :=
  ⟨fun _ hc _ => ⟨hc, rfl, rfl⟩, fun h hh => ⟨h, hh, .refl h⟩⟩

theorem Preserves.trans {db'' : Db} (h : Preserves db db') (h' : Preserves db' db'') :
    Preserves db db'' := by
  constructor
  · intro c hc hstate
    obtain ⟨hc', hoffers, happrovals⟩ := h.cases c hc hstate
    obtain ⟨hc'', hoffers', happrovals'⟩ := h'.cases c hc' hstate
    exact ⟨hc'', hoffers'.trans hoffers, happrovals'.trans happrovals⟩
  · intro a ha
    obtain ⟨b, hb, hab⟩ := h.handoffs a ha
    obtain ⟨d, hd, hbd⟩ := h'.handoffs b hb
    exact ⟨d, hd, hab.trans hbd⟩

theorem approvedOf_congr (h : db'.offersOf organizationId caseId = db.offersOf organizationId caseId) :
    approvedOf db' organizationId caseId = approvedOf db organizationId caseId := by
  unfold approvedOf
  rw [h]

theorem ApprovalOf.congr (h : ApprovalOf db c)
    (hoffers : db'.offersOf c.organizationId c.id = db.offersOf c.organizationId c.id)
    (happrovals : approvalsOf db' c.organizationId c.id = approvalsOf db c.organizationId c.id) :
    ApprovalOf db' c := by
  cases h with
  | pending hstate hnone hnoapproval =>
    exact .pending hstate ((approvedOf_congr hoffers).trans hnone) (happrovals.trans hnoapproval)
  | given hstate hone happroval hhash =>
    exact .given hstate ((approvedOf_congr hoffers).trans hone) (happrovals.trans happroval) hhash

theorem Bound.preserved {h h' : BilateralExchangeHandoff} {offer : BilateralOfferVersion}
    {approval : BilateralOfferApproval} (hbound : Bound db h c offer approval)
    (hpreserves : Preserves db db') (hcontinues : Continues h h') :
    Bound db' h' c offer approval := by
  obtain ⟨hmem, hoffers, happrovals⟩ := hpreserves.cases c hbound.mem hbound.state
  rw [hcontinues]
  constructor
  · exact hmem
  · exact hbound.organization
  · exact hbound.caseId
  · exact hbound.state
  · rw [approvedOf_congr hoffers]
    exact hbound.offers
  · rw [happrovals]
    exact hbound.approvals
  · exact hbound.names
  · exact hbound.offerHash
  · exact hbound.approvalHash
  · exact hbound.amount
  · exact hbound.currency
  · exact hbound.beforeOffer
  · exact hbound.beforeApproval

/-! ## Tables without new handoffs -/

theorem Handoffs.congr (h : Handoffs s db) (hcases : db'.cases = db.cases)
    (hoffers : db'.offers = db.offers) (happrovals : db'.approvals = db.approvals)
    (hhandoffs : db'.handoffs = db.handoffs) : Handoffs s db' ∧ Preserves db db' := by
  have hpreserves : Preserves db db' := by
    constructor
    · intro c hc _
      exact ⟨hcases ▸ hc, offersOf_congr hoffers, approvalsOf_congr happrovals⟩
    · intro a ha
      exact ⟨a, hhandoffs ▸ ha, .refl a⟩
  refine ⟨⟨⟨?_, ?_, ?_⟩, ?_, ?_, ?_, ?_, ?_, ?_⟩, hpreserves⟩
  · exact hoffers ▸ h.filed.keyed
  · exact hoffers ▸ hcases ▸ h.filed.offered
  · exact happrovals ▸ hcases ▸ h.filed.approved
  · intro c hc
    exact (h.approvals c (hcases ▸ hc)).congr (offersOf_congr hoffers)
      (approvalsOf_congr happrovals)
  · exact hhandoffs ▸ h.ids
  · exact hhandoffs ▸ h.slots
  · exact hhandoffs ▸ h.valid
  · exact hhandoffs ▸ h.live
  · intro a ha
    obtain ⟨c, offer, approval, hbound⟩ := h.bound a (hhandoffs ▸ ha)
    exact ⟨c, offer, approval, hbound.preserved hpreserves (.refl a)⟩

/-- One case that was not approved moves on, with its approval, and the others stay. -/
structure Advances (db db' : Db) (c c' : BilateralExchangeCase) : Prop where
  mem : c' ∈ db'.cases
  id : c'.id = c.id
  organization : c'.organizationId = c.organizationId
  before : c.coordinatorState.state ≠ .approvedForHandoff
  approval : ApprovalOf db' c'
  cases : ∀ d ∈ db'.cases, d = c' ∨ d ∈ db.cases ∧ d.id ≠ c.id
  persists : ∀ d ∈ db.cases, d.id ≠ c.id → d ∈ db'.cases
  prepares : Prepares db db' c
  handoffs : db'.handoffs = db.handoffs

theorem Advances.preserves (h : Advances db db' c c') (hc : c ∈ db.cases)
    (hkeyed : Table.Keyed (·.id) db.cases) : Preserves db db' := by
  constructor
  · intro d hd hstate
    have hid : d.id ≠ c.id := by
      intro heq
      obtain rfl := hkeyed.eq hd hc heq
      exact h.before hstate
    exact ⟨h.persists d hd hid, h.prepares.offers _ _ hid, h.prepares.approvals _ _ hid⟩
  · intro a ha
    exact ⟨a, h.handoffs ▸ ha, .refl a⟩

theorem Advances.keeps (h : Advances db db' c c') (hc : c ∈ db.cases)
    (hkeyed : Table.Keyed (·.id) db.cases) (hhandoffs : Handoffs s db) :
    Handoffs s db' ∧ Preserves db db' := by
  have hpreserves := h.preserves hc hkeyed
  have hrow : ∀ d ∈ db.cases, ∃ d' ∈ db'.cases, d'.id = d.id ∧
      d'.organizationId = d.organizationId := by
    intro d hd
    by_cases hid : d.id = c.id
    · obtain rfl := hkeyed.eq hd hc hid
      exact ⟨c', h.mem, h.id, h.organization⟩
    · exact ⟨d, h.persists d hd hid, rfl, rfl⟩
  refine ⟨⟨⟨h.prepares.keyed, ?_, ?_⟩, ?_, ?_, ?_, ?_, ?_, ?_⟩, hpreserves⟩
  · intro o ho
    obtain ⟨d, hd, hid, horg⟩ := h.prepares.offered o ho
    obtain ⟨d', hd', hid', horg'⟩ := hrow d hd
    exact ⟨d', hd', hid'.trans hid, horg'.trans horg⟩
  · intro a ha
    obtain ⟨d, hd, hid, horg⟩ := h.prepares.approved a ha
    obtain ⟨d', hd', hid', horg'⟩ := hrow d hd
    exact ⟨d', hd', hid'.trans hid, horg'.trans horg⟩
  · intro d hd
    rcases h.cases d hd with rfl | ⟨hd, hid⟩
    · exact h.approval
    · exact (hhandoffs.approvals d hd).congr (h.prepares.offers _ _ hid)
        (h.prepares.approvals _ _ hid)
  · exact h.handoffs ▸ hhandoffs.ids
  · exact h.handoffs ▸ hhandoffs.slots
  · exact h.handoffs ▸ hhandoffs.valid
  · exact h.handoffs ▸ hhandoffs.live
  · intro a ha
    obtain ⟨d, offer, approval, hbound⟩ := hhandoffs.bound a (h.handoffs ▸ ha)
    exact ⟨d, offer, approval, hbound.preserved hpreserves (.refl a)⟩

end Approvals

/-! ## What the transactions do to approvals -/

section Transactions

variable {s : ExchangeService} {db db' prepared : Db} {c c' : BilateralExchangeCase}
  {caller : Commanding} {route : ExchangeRoute} {party : ExchangeParty}
  {compiled : CompiledTransition} {now : Datetime}

theorem mem_offersOf {organizationId caseId : String} {o : BilateralOfferVersion} :
    o ∈ db.offersOf organizationId caseId ↔
      o ∈ db.offers ∧ o.organizationId = organizationId ∧ o.terms.caseId = caseId := by
  unfold Db.offersOf
  rw [List.mem_filter, decide_eq_true_iff]

theorem approvedOf_eq_nil {organizationId caseId : String} :
    approvedOf db organizationId caseId = [] ↔
      ∀ o ∈ db.offersOf organizationId caseId, o.approvalStatus ≠ .approved := by
  unfold approvedOf
  rw [List.filter_eq_nil_iff]
  simp only [decide_eq_true_eq, ne_eq]

theorem applyAndPublish_handoffs {rt : Runtime} {organizationId commandOrganizationId : String}
    {command : PartyCommand rt}
    (h : applyAndPublish rt organizationId c command commandOrganizationId prepared =
      .ok (compiled, db')) : db'.handoffs = prepared.handoffs := by
  obtain ⟨transition, stateHash, between, record, happlied, hpublish⟩ := applyAndPublish_eq_ok h
  have hbetween : between.handoffs = prepared.handoffs := by rw [happlied.leaves]
  rcases publishProjection_eq_ok hpublish with ⟨rfl, -⟩ | ⟨rfl, -⟩
  · exact hbetween
  · exact hbetween

theorem storeOffer_handoffs {organizationId : String} {offer : OfferVersion}
    {record : BilateralOfferVersion} (h : storeOffer organizationId offer db = .ok (record, db')) :
    db'.handoffs = db.handoffs := by
  rcases storeOffer_eq_ok h with ⟨rfl, -⟩ | ⟨offers, -, -, -, rfl⟩
  · rfl
  · rfl

variable {command : PartyCommandData}

theorem Committed.not_approved (h : Committed db prepared db' c c' command)
    (hends : command.commandType.ends = false) :
    c.coordinatorState.state ≠ .approvedForHandoff := by
  intro hstate
  have htransition := h.transition hends
  rw [hstate, ExchangeState.transition?_of_terminal rfl] at htransition
  cases htransition

theorem Committed.approves (h : Committed db prepared db' c c' command)
    (hends : command.commandType.ends = false)
    (hstate : c'.coordinatorState.state = .approvedForHandoff) :
    command.commandType = .approveHandoff := by
  have htransition := h.transition hends
  rw [hstate] at htransition
  cases hbefore : c.coordinatorState.state <;> cases htype : command.commandType <;>
    simp_all [ExchangeState.transition?]

theorem Committed.advances (h : Committed db prepared db' c c' command)
    (hends : command.commandType.ends = false) (hprepares : Prepares db prepared c)
    (happroval : ApprovalOf prepared c')
    (hhandoffs : db'.handoffs = db.handoffs) : Advances db db' c c' where
  mem := h.mem
  id := h.id
  organization := h.organization
  before := h.not_approved hends
  approval := happroval.congr (offersOf_congr h.offers) (approvalsOf_congr h.approvals)
  cases := h.cases
  persists := h.persists
  prepares := {
    keyed := h.offers ▸ hprepares.keyed
    offered := h.offers ▸ hprepares.offered
    approved := h.approvals ▸ hprepares.approved
    offers := by
      intro organizationId caseId hne
      rw [offersOf_congr h.offers]
      exact hprepares.offers organizationId caseId hne
    approvals := by
      intro organizationId caseId hne
      rw [approvalsOf_congr h.approvals]
      exact hprepares.approvals organizationId caseId hne }
  handoffs := hhandoffs

theorem Handoffs.nothing_approved (h : Handoffs s db) (hc : c ∈ db.cases)
    (hstate : c.coordinatorState.state ≠ .approvedForHandoff) :
    approvedOf db c.organizationId c.id = [] ∧ approvalsOf db c.organizationId c.id = [] := by
  cases h.approvals c hc with
  | pending _ hoffers happrovals => exact ⟨hoffers, happrovals⟩
  | given hstate' => exact absurd hstate' hstate

theorem Committed.pending (h : Handoffs s db) (hc : c ∈ db.cases)
    (hcommitted : Committed db prepared db' c c' command) (hends : command.commandType.ends = false)
    (htype : command.commandType ≠ .approveHandoff)
    (hoffers : approvedOf prepared c.organizationId c.id = [])
    (happrovals : prepared.approvals = db.approvals) : ApprovalOf prepared c' := by
  have hnothing := h.nothing_approved hc (hcommitted.not_approved hends)
  apply ApprovalOf.pending (fun hstate => htype (hcommitted.approves hends hstate))
  · rw [hcommitted.organization, hcommitted.id]
    exact hoffers
  · rw [hcommitted.organization, hcommitted.id, approvalsOf_congr happrovals]
    exact hnothing.2

theorem advances_of_evidence {command : PartyCommand s.rt} (h : Consistent s.rt db)
    (hhandoffs : Handoffs s db) (htype : command.commandType = .publishEvidence)
    (htransaction : s.evidenceTransaction caller route command db = .ok (compiled, db')) :
    ∃ c ∈ db.cases, ∃ c', Advances db db' c c' := by
  obtain ⟨c, happlies⟩ := evidenceTransaction_eq_ok htransaction
  obtain ⟨commandOrganizationId, happly⟩ := happlies.applies
  obtain ⟨c', hcommitted⟩ := committed_of_applyAndPublish h happlies.mem ⟨rfl, rfl, rfl⟩ happly
  have hends : command.commandType.ends = false := by rw [htype]; rfl
  have hnothing := hhandoffs.nothing_approved happlies.mem (hcommitted.not_approved hends)
  have hpending := hcommitted.pending hhandoffs happlies.mem hends (by rw [htype]; decide)
    hnothing.1 rfl
  exact ⟨c, happlies.mem, c', hcommitted.advances hends (.same hhandoffs.filed rfl rfl) hpending
    (applyAndPublish_handoffs happly)⟩

theorem approvedOf_of_superseded {offer : OfferVersion} {offers : List BilateralOfferVersion}
    {organizationId caseId : String} (hpending : offer.approvalStatus = .pending)
    (hsupersede : supersedeLatest organizationId offer db = .ok offers)
    (hnone : approvedOf db organizationId caseId = [])
    (hoffers : prepared.offers = offers ++ [⟨organizationId, offer, offer.approvalStatus⟩]) :
    approvedOf prepared organizationId caseId = [] := by
  rw [approvedOf_eq_nil] at hnone ⊢
  intro o ho
  obtain ⟨ho, hkeys⟩ := mem_offersOf.mp ho
  rw [hoffers] at ho
  rcases List.mem_append.mp ho with ho | ho
  · rcases supersedeLatest_eq_ok hsupersede with ⟨-, -, rfl⟩ | ⟨latest, -, -, rfl⟩
    · exact hnone o (mem_offersOf.mpr ⟨ho, hkeys⟩)
    · rcases Table.mem_update.mp ho with ⟨a, -, -, rfl⟩ | ⟨ho, -⟩
      · exact OfferApprovalStatus.noConfusion
      · exact hnone o (mem_offersOf.mpr ⟨ho, hkeys⟩)
  · rw [List.mem_singleton.mp ho]
    show offer.approvalStatus ≠ .approved
    rw [hpending]
    exact OfferApprovalStatus.noConfusion

theorem advances_of_propose {proposal : Proposal} (h : Consistent s.rt db)
    (hhandoffs : Handoffs s db)
    (htransaction : s.proposeTransaction caller route party proposal db = .ok (compiled, db')) :
    ∃ c ∈ db.cases, ∃ c', Advances db db' c c' := by
  obtain ⟨c, command, commandType, offer, record, stored, appended, prepared, happlies, hbuild,
    hcommand, hstore, happend⟩ := proposeTransaction_eq_ok htransaction
  rw [← happlies.organization] at hstore happend
  obtain ⟨hproposal, hcase, -, -, hpending⟩ := buildOffer_eq_ok hbuild
  rw [← happlies.id] at hcase
  obtain ⟨htype, -, -⟩ := commandOf_eq_ok hcommand
  have hproposes : command.commandType = .proposeOffer ∨ command.commandType = .counterOffer := by
    rcases proposalStep_eq_ok hproposal with ⟨-, -, htype', -⟩ | ⟨latest, -, -, -, htype', -⟩
    · exact .inl (htype.trans htype')
    · exact .inr (htype.trans htype')
  have hends : command.commandType.ends = false := by
    rcases hproposes with htype | htype <;> rw [htype] <;> rfl
  have hno : command.commandType ≠ .approveHandoff := by
    rcases hproposes with htype | htype <;> rw [htype] <;> decide
  obtain ⟨commandOrganizationId, happly⟩ := happlies.applies
  have hprepared := appendCommand_frame happend
  have hsame : SameCases db prepared :=
    (sameCases_of_storeOffer hstore).trans (sameCases_of_appendCommand happend)
  obtain ⟨c', hcommitted⟩ := committed_of_applyAndPublish h happlies.mem hsame happly
  have hnothing := hhandoffs.nothing_approved happlies.mem (hcommitted.not_approved hends)
  have hkeeps : db'.handoffs = db.handoffs := by
    rw [applyAndPublish_handoffs happly, hprepared]
    show stored.handoffs = db.handoffs
    exact storeOffer_handoffs hstore
  refine ⟨c, happlies.mem, c', ?_⟩
  rcases storeOffer_eq_ok hstore with ⟨rfl, -⟩ | ⟨offers, hsupersede, hid, rfl, rfl⟩
  · -- The proposal was stored before.
    have hoffers : prepared.offers = stored.offers := by rw [hprepared]
    have happrovals : prepared.approvals = stored.approvals := by rw [hprepared]
    have hpending' := hcommitted.pending hhandoffs happlies.mem hends hno
      ((approvedOf_congr (offersOf_congr hoffers)).trans hnothing.1) happrovals
    exact hcommitted.advances hends (.same hhandoffs.filed hoffers happrovals) hpending' hkeeps
  · have hoffers : prepared.offers =
        offers ++ [⟨c.organizationId, offer, offer.approvalStatus⟩] := by rw [hprepared]
    have happrovals : prepared.approvals = db.approvals := by rw [hprepared]
    have hsuperseded : Prepares db { db with offers } c := by
      rcases supersedeLatest_eq_ok hsupersede with ⟨-, -, rfl⟩ | ⟨latest, hlatest, -, rfl⟩
      · exact .same hhandoffs.filed rfl rfl
      · rw [hcase] at hlatest
        exact .update hhandoffs.filed hlatest rfl rfl
    have hprepares : Prepares db prepared c := by
      apply hsuperseded.append happlies.mem _ hcase _ hoffers happrovals
      · rfl
      · exact hid
    have hpending' := hcommitted.pending hhandoffs happlies.mem hends hno
      (approvedOf_of_superseded hpending hsupersede hnothing.1 hoffers) happrovals
    exact hcommitted.advances hends hprepares hpending' hkeeps

theorem advances_of_accept {offerHash : String} (h : Consistent s.rt db)
    (hhandoffs : Handoffs s db)
    (htransaction : s.acceptTransaction caller route party offerHash now db =
      .ok (compiled, db')) :
    ∃ c ∈ db.cases, ∃ c', Advances db db' c c' := by
  obtain ⟨c, command, latest, appended, prepared, happlies, -, -, -, hcommand, happend⟩ :=
    acceptTransaction_eq_ok htransaction
  obtain ⟨htype, -, -⟩ := commandOf_eq_ok hcommand
  have hends : command.commandType.ends = false := by rw [htype]; split <;> rfl
  have hno : command.commandType ≠ .approveHandoff := by rw [htype]; split <;> decide
  obtain ⟨commandOrganizationId, happly⟩ := happlies.applies
  have hprepared := appendCommand_frame happend
  have hoffers : prepared.offers = db.offers := by rw [hprepared]
  have happrovals : prepared.approvals = db.approvals := by rw [hprepared]
  obtain ⟨c', hcommitted⟩ := committed_of_applyAndPublish h happlies.mem
    (sameCases_of_appendCommand happend) happly
  have hnothing := hhandoffs.nothing_approved happlies.mem (hcommitted.not_approved hends)
  have hpending := hcommitted.pending hhandoffs happlies.mem hends hno
    ((approvedOf_congr (offersOf_congr hoffers)).trans hnothing.1) happrovals
  have hkeeps : db'.handoffs = db.handoffs := by
    rw [applyAndPublish_handoffs happly, hprepared]
  exact ⟨c, happlies.mem, c',
    hcommitted.advances hends (.same hhandoffs.filed hoffers happrovals) hpending hkeeps⟩

theorem advances_of_approve {offerHash : String} {approvalExpiresAt approvedAt : Datetime}
    (h : Consistent s.rt db) (hhandoffs : Handoffs s db)
    (htransaction : s.approveTransaction caller route offerHash approvalExpiresAt approvedAt db =
      .ok (compiled, db')) :
    ∃ c ∈ db.cases, ∃ c', Advances db db' c c' := by
  obtain ⟨c, command, approvalHash, record, approved, appended, prepared, happlies, happrove, -,
    hcommand, happend⟩ := approveTransaction_eq_ok htransaction
  obtain ⟨htype, -, -⟩ := commandOf_eq_ok hcommand
  have hends : command.commandType.ends = false := by rw [htype]; rfl
  obtain ⟨commandOrganizationId, happly⟩ := happlies.applies
  have hprepared := appendCommand_frame happend
  obtain ⟨c', hcommitted⟩ := committed_of_applyAndPublish h happlies.mem
    ((sameCases_of_approveOffer happrove).trans (sameCases_of_appendCommand happend)) happly
  have hmoved := hcommitted.transition hends
  rw [htype] at hmoved
  obtain ⟨-, hstate'⟩ := transition?_approveHandoff hmoved
  obtain ⟨hnone, hnoapproval⟩ :=
    hhandoffs.nothing_approved happlies.mem (hcommitted.not_approved hends)
  have hcase : (s.approvalOf caller offerHash approvalExpiresAt approvedAt).caseId = c.id :=
    happlies.id.symm
  rw [← happlies.organization] at happrove
  refine ⟨c, happlies.mem, c', ?_⟩
  rcases approveOffer_eq_ok happrove with ⟨-, hmem, horg, hrecord, -⟩ |
    ⟨latest, hlatest, hhash, horg, hrecord, hrecordHash, rfl⟩
  · -- Nothing was approved before the agreement is.
    have hof : record ∈ approvalsOf db c.organizationId c.id := by
      unfold approvalsOf
      rw [List.mem_filter]
      exact ⟨hmem, by simp [horg, hrecord, hcase]⟩
    rw [hnoapproval] at hof
    exact absurd hof List.not_mem_nil
  · rw [hcase] at hlatest hrecord
    have hoffers : prepared.offers =
        Table.update (·.id) latest.id (·.withStatus .approved) db.offers := by rw [hprepared]
    have happrovals : prepared.approvals = db.approvals ++ [record] := by rw [hprepared]
    have hhandoffs' : prepared.handoffs = db.handoffs := by rw [hprepared]
    have hupdated : Prepares db { db with
        offers := Table.update (·.id) latest.id (·.withStatus .approved) db.offers } c :=
      .update hhandoffs.filed hlatest rfl rfl
    -- The latest offer is the only one that is approved now.
    have hone : approvedOf prepared c.organizationId c.id = [latest.withStatus .approved] := by
      have hids : Table.Keyed (·.id) (db.offersOf c.organizationId c.id) :=
        hhandoffs.filed.keyed.filter _
      unfold approvedOf
      rw [offersOf_update hoffers]
      apply Table.filter_update_eq_singleton hids (Table.latest_mem hlatest)
      · intro o ho
        exact decide_eq_false (approvedOf_eq_nil.mp hnone o ho)
      · rfl
    have hgiven : ApprovalOf prepared c' := by
      refine @ApprovalOf.given _ _ (latest.withStatus .approved) record hstate' ?_ ?_
        (hrecordHash.trans hhash)
      · rw [hcommitted.organization, hcommitted.id]
        exact hone
      · rw [hcommitted.organization, hcommitted.id, approvalsOf_append happrovals ⟨horg, hrecord⟩,
          hnoapproval, List.nil_append]
    exact hcommitted.advances hends
      (hupdated.approve happlies.mem horg hrecord hoffers happrovals) hgiven
      ((applyAndPublish_handoffs happly).trans hhandoffs')

theorem advances_of_transaction {work : Work s.rt} (h : Consistent s.rt db)
    (hhandoffs : Handoffs s db) (htyped : (Stage.work caller route party work).Typed)
    (htransaction : s.transaction caller route party work now db = .ok (compiled, db')) :
    ∃ c ∈ db.cases, ∃ c', Advances db db' c c' := by
  cases work with
  | evidence command => exact advances_of_evidence h hhandoffs htyped htransaction
  | proposal proposal => exact advances_of_propose h hhandoffs htransaction
  | acceptance offerHash => exact advances_of_accept h hhandoffs htransaction
  | approval offerHash approvalExpiresAt approvedAt =>
    exact advances_of_approve h hhandoffs htransaction

end Transactions

/-! ## Opening a case -/

section Opening

variable {s : ExchangeService} {db db' : Db} {now : Datetime}

theorem keeps_of_createCase {organizationId caseId sellerOrganizationId : String}
    {record : BilateralExchangeCase} (hhandoffs : Handoffs s db)
    (hcreate : createCase s.rt organizationId caseId sellerOrganizationId db = .ok (record, db')) :
    Handoffs s db' ∧ Preserves db db' := by
  rcases createCase_eq_ok hcreate with ⟨-, -, -, rfl⟩ | ⟨hfresh, hnew, rfl⟩
  · exact hhandoffs.congr rfl rfl rfl rfl
  · have hin : ∀ c ∈ db.cases, c ∈ db.cases ++ [record] := fun c hc => List.mem_append_left _ hc
    have hpreserves : Preserves db { db with cases := db.cases ++ [record] } :=
      ⟨fun c hc _ => ⟨hin c hc, rfl, rfl⟩, fun a ha => ⟨a, ha, .refl a⟩⟩
    refine ⟨⟨⟨hhandoffs.filed.keyed, ?_, ?_⟩, ?_, hhandoffs.ids, hhandoffs.slots,
      hhandoffs.valid, hhandoffs.live, ?_⟩, hpreserves⟩
    · intro o ho
      obtain ⟨c, hc, hkeys⟩ := hhandoffs.filed.offered o ho
      exact ⟨c, hin c hc, hkeys⟩
    · intro a ha
      obtain ⟨c, hc, hkeys⟩ := hhandoffs.filed.approved a ha
      exact ⟨c, hin c hc, hkeys⟩
    · intro c hc
      rcases List.mem_append.mp hc with hc | hc
      · exact (hhandoffs.approvals c hc).congr rfl rfl
      · obtain rfl := List.mem_singleton.mp hc
        apply ApprovalOf.pending
        · rw [hfresh.coordinator]
          exact ExchangeState.noConfusion
        · rw [approvedOf_eq_nil]
          intro o ho
          obtain ⟨ho, -, hcase⟩ := mem_offersOf.mp ho
          obtain ⟨d, hd, hid, -⟩ := hhandoffs.filed.offered o ho
          exact absurd (hid.trans (hcase.trans hfresh.id)) (hnew d hd)
        · refine List.filter_eq_nil_iff.mpr (fun a ha hkeys => ?_)
          obtain ⟨d, hd, hid, -⟩ := hhandoffs.filed.approved a ha
          have hkeys : a.organizationId = c.organizationId ∧ a.caseId = c.id := by
            simpa using hkeys
          exact hnew d hd (hid.trans (hkeys.2.trans hfresh.id))
    · intro a ha
      obtain ⟨c, offer, approval, hbound⟩ := hhandoffs.bound a ha
      exact ⟨c, offer, approval, hbound.preserved hpreserves (.refl a)⟩

theorem keeps_of_createCaseTransaction {request : CreateCase} {sellerOrganizationId : String}
    {opening : Opening} (h : Consistent s.rt db) (hhandoffs : Handoffs s db)
    (htransaction : s.createCaseTransaction request sellerOrganizationId now db =
      .ok (opening, db')) : Handoffs s db' ∧ Preserves db db' := by
  obtain ⟨c, created, hcreate, hcases⟩ := createCaseTransaction_eq_ok htransaction
  obtain ⟨hcreated, -, hmem⟩ := h.create hcreate
  obtain ⟨hhandoffs', hpreserves⟩ := keeps_of_createCase hhandoffs hcreate
  rcases hcases with ⟨-, -, rfl⟩ |
    ⟨-, command, compiled, prepared, commandOrganizationId, -, htype, hprepared, happly⟩
  · exact ⟨hhandoffs', hpreserves⟩
  · have hsame : SameCases created prepared := by
      rw [hprepared]
      exact ⟨rfl, rfl, rfl⟩
    have hoffers : prepared.offers = created.offers := by rw [hprepared]
    have happrovals : prepared.approvals = created.approvals := by rw [hprepared]
    have hkeeps : db'.handoffs = created.handoffs := by
      rw [applyAndPublish_handoffs happly, hprepared]
    rw [← createCase_organization hcreate] at happly
    obtain ⟨c', hcommitted⟩ := committed_of_applyAndPublish hcreated hmem hsame happly
    have hends : command.commandType.ends = false := by rw [htype]; rfl
    have hnothing := hhandoffs'.nothing_approved hmem (hcommitted.not_approved hends)
    have hpending := hcommitted.pending hhandoffs' hmem hends (by rw [htype]; decide)
      ((approvedOf_congr (offersOf_congr hoffers)).trans hnothing.1) happrovals
    have hadvances := hcommitted.advances hends (.same hhandoffs'.filed hoffers happrovals)
      hpending hkeeps
    obtain ⟨hhandoffs'', hpreserves'⟩ := hadvances.keeps hmem hcreated.keyed hhandoffs'
    exact ⟨hhandoffs'', hpreserves.trans hpreserves'⟩

end Opening

end SiraApi
