-- SUMMARY: Handoffs in every run: they carry exactly what was approved, keep their hash and open only in time.
import SiraSeil.SiraApi.ApprovedCases

/-!
# Handoffs

A handoff is prepared from the approved offer of its case and opened at most until the
first of offer, approval and handoff expires. Its row keeps its contract, whatever
calls run and whichever of them crash.
-/

namespace SiraApi

open Domain Persistence Interleaving Raising

/-! ## Preparing and opening handoffs -/

/-- The contract of a handoff for an approved offer, at a time. -/
def ExchangeService.handoffData (s : ExchangeService) (caseId : String) (route : ExchangeRoute)
    (offer : BilateralOfferVersion) (approval : BilateralOfferApproval) (offerHash : String)
    (now : Datetime) : ExchangePaymentHandoffData where
  handoffId := stableId s.rt "xhandoff" [caseId, offerHash]
  caseId := caseId
  offerHash := offerHash
  approvalHash := approval.approvalHash
  destinationUrl := route.merchantUrl
  recipient := route.merchantName
  amount := offer.terms.total
  currency := offer.terms.currency
  reference := "SIRA-" ++ caseId
  createdAt := now
  expiresAt := ⟨min (min (Datetime.plus now (15 * 60)).micros offer.terms.expiresAt.micros)
    approval.expiresAt.micros, true⟩

/-- A handoff can be prepared for an offer of a case: the case is approved at the expected
    version, and the offer is, by an approval that names it. -/
structure Payable (route : ExchangeRoute) (caseId : String) (expectedVersion : Nat)
    (offerHash : String) (db : Db) (exchange : BilateralExchangeCase)
    (offer : BilateralOfferVersion) (approval : BilateralOfferApproval) : Prop where
  validTenant : tenant route.buyerOrganizationId = .ok ()
  found : getCase route.buyerOrganizationId caseId db = .ok exchange
  version : exchange.version = expectedVersion
  state : exchange.state = .approvedForHandoff
  foundOffer : (db.offersOf route.buyerOrganizationId caseId).find? (fun o =>
    o.terms.offerHash = offerHash) = some offer
  foundApproval : (approvalsOf db route.buyerOrganizationId caseId).find? (fun a =>
    a.offerHash = offerHash) = some approval
  approved : offer.approvalStatus = .approved

section Preparing

variable {s : ExchangeService} {db db' : Db} {caller : Caller} {route : ExchangeRoute}
  {expectedVersion : Nat} {offerHash handoffId handoffHash : String} {now : Datetime}
  {record : BilateralExchangeHandoff}

theorem find?_approvalsOf {organizationId caseId : String} :
    (approvalsOf db organizationId caseId).find? (fun a => a.offerHash = offerHash) =
      db.approvals.find? (fun a => a.organizationId = organizationId ∧ a.caseId = caseId ∧
        a.offerHash = offerHash) := by
  unfold approvalsOf
  rw [List.find?_filter]
  congr 1
  funext a
  simp [and_assoc]

/-- A handoff is prepared exactly when the case allows it and its contract can be stored. -/
theorem createHandoffTransaction_eq_ok {result : BilateralExchangeHandoff × Db} :
    s.createHandoffTransaction caller route expectedVersion offerHash now db = .ok result ↔
      ∃ exchange offer approval handoff,
        Payable route caller.caseId expectedVersion offerHash db exchange offer approval ∧
        ExchangePaymentHandoff.new s.rt s.https
          (s.handoffData caller.caseId route offer approval offerHash now) = .ok handoff ∧
        storeHandoff route.buyerOrganizationId handoff db = .ok result := by
  unfold ExchangeService.createHandoffTransaction
  rw [← find?_approvalsOf]
  constructor
  · intro h
    obtain ⟨⟨⟩, htenant, h⟩ := bind_eq_ok.mp h
    obtain ⟨exchange, hget, h⟩ := bind_eq_ok.mp h
    dsimp only at h
    split at h
    · cases h
    · next hready =>
      simp only [not_or, not_not] at hready
      split at h
      · next offer approval hoffer happroval =>
        split at h
        · cases h
        · next happroved =>
          obtain ⟨handoff, hnew, h⟩ := bind_eq_ok.mp h
          exact ⟨exchange, offer, approval, handoff, ⟨htenant, hget, hready.1, hready.2, hoffer,
            happroval, not_not.mp happroved⟩, hnew, h⟩
      · cases h
  · rintro ⟨exchange, offer, approval, handoff, hpayable, hnew, hstore⟩
    rw [hpayable.validTenant, ok_bind, hpayable.found, ok_bind]
    rw [if_neg (by simp [hpayable.version, hpayable.state]), hpayable.foundOffer, hpayable.foundApproval]
    dsimp only
    rw [if_neg (not_not.mpr hpayable.approved)]
    unfold ExchangeService.handoffData at hnew
    rw [hnew, ok_bind]
    exact hstore

theorem openHandoffTransaction_eq_ok
    (h : s.openHandoffTransaction caller route handoffId handoffHash now db = .ok (record, db')) :
    openHandoff s.rt route.buyerOrganizationId s.https handoffId handoffHash now db =
      .ok (record, db') ∧ record.caseId = caller.caseId := by
  unfold ExchangeService.openHandoffTransaction at h
  obtain ⟨-, -, h⟩ := bind_eq_ok.mp h
  obtain ⟨⟨opened, db''⟩, hopen, h⟩ := bind_eq_ok.mp h
  dsimp only at h
  split at h
  · cases h
  · next hcase =>
    cases h
    exact ⟨hopen, not_not.mp hcase⟩

theorem Payable.given {caseId : String} {exchange : BilateralExchangeCase}
    {offer : BilateralOfferVersion} {approval : BilateralOfferApproval}
    (h : Payable route caseId expectedVersion offerHash db exchange offer approval)
    (hconsistent : Consistent s.rt db) (hhandoffs : Handoffs s db) :
    exchange ∈ db.cases ∧ exchange.organizationId = route.buyerOrganizationId ∧
      exchange.id = caseId ∧ exchange.coordinatorState.state = .approvedForHandoff ∧
      approvedOf db exchange.organizationId exchange.id = [offer] ∧
      approvalsOf db exchange.organizationId exchange.id = [approval] ∧
      approval.offerHash = offer.terms.offerHash ∧ offer.terms.offerHash = offerHash := by
  obtain ⟨hmem, horg, hid⟩ := getCase_eq_ok h.found
  have hstate : exchange.coordinatorState.state = .approvedForHandoff :=
    (hconsistent.linearized exchange hmem).state.symm.trans h.state
  have hfoundOffer := h.foundOffer
  have hfoundApproval := h.foundApproval
  rw [← horg, ← hid] at hfoundOffer hfoundApproval
  have hoffer : offer ∈ approvedOf db exchange.organizationId exchange.id := by
    unfold approvedOf
    rw [List.mem_filter]
    exact ⟨List.mem_of_find?_eq_some hfoundOffer, decide_eq_true h.approved⟩
  have happroval := List.mem_of_find?_eq_some hfoundApproval
  have hhash : offer.terms.offerHash = offerHash := by
    simpa using List.find?_some hfoundOffer
  cases hhandoffs.approvals exchange hmem with
  | pending hstate' => exact absurd hstate hstate'
  | given _ hoffers happrovals hnames =>
    rw [hoffers] at hoffer
    rw [happrovals] at happroval
    obtain rfl := List.mem_singleton.mp hoffer
    obtain rfl := List.mem_singleton.mp happroval
    exact ⟨hmem, horg, hid, hstate, hoffers, happrovals, hnames, hhash⟩

theorem keeps_of_createHandoff (h : Consistent s.rt db) (hhandoffs : Handoffs s db)
    (htransaction : s.createHandoffTransaction caller route expectedVersion offerHash now db =
      .ok (record, db')) :
    Handoffs s db' ∧ Preserves db db' ∧ record ∈ db'.handoffs := by
  obtain ⟨exchange, offer, approval, handoff, hpayable, hnew, hstore⟩ :=
    createHandoffTransaction_eq_ok.mp htransaction
  obtain ⟨hmem, horg, hid, hstate, hoffers, happrovals, hnames, hhash⟩ := hpayable.given h hhandoffs
  obtain ⟨hvalid, hhashed, hdata⟩ := ExchangePaymentHandoff.new_eq_ok.mp hnew
  rcases storeHandoff_eq_ok hstore with ⟨rfl, hrecord, -⟩ | ⟨hslot, hids, hrow, rfl⟩
  · exact ⟨hhandoffs, .refl db', hrecord⟩
  · have hin : record ∈ db.handoffs ++ [record] :=
      List.mem_append_right _ (List.mem_singleton_self record)
    have hpreserves : Preserves db { db with handoffs := db.handoffs ++ [record] } :=
      ⟨fun c hc _ => ⟨hc, rfl, rfl⟩, fun a ha => ⟨a, List.mem_append_left _ ha, .refl a⟩⟩
    -- The row has the contract that was made of the approved offer.
    have hcontract : record.toExchangePaymentHandoff = handoff := by rw [hrow]
    have hfields : record.toExchangePaymentHandoffData =
        s.handoffData caller.caseId route offer approval offerHash now := by rw [hcontract, hdata]
    have hbound : Bound { db with handoffs := db.handoffs ++ [record] } record exchange offer
        approval := by
      constructor
      · exact hmem
      · rw [hrow]
        exact horg
      · rw [hfields]
        exact hid
      · exact hstate
      · exact hoffers
      · exact happrovals
      · exact hnames
      · rw [hfields]
        exact hhash.symm
      · rw [hfields]
        rfl
      · rw [hfields]
        rfl
      · rw [hfields]
        rfl
      · rw [hfields]
        exact (min_le_left _ _).trans (min_le_right _ _)
      · rw [hfields]
        exact min_le_right _ _
    refine ⟨⟨⟨hhandoffs.filed.keyed, hhandoffs.filed.offered, hhandoffs.filed.approved⟩, ?_, ?_, ?_,
      ?_, ?_, ?_⟩, hpreserves, hin⟩
    · intro c hc
      exact (hhandoffs.approvals c hc).congr rfl rfl
    · apply hhandoffs.ids.append
      intro r hr
      rw [hcontract]
      exact hids r hr
    · apply hhandoffs.slots.append
      intro r hr heq
      apply hslot r hr
      rw [hrow] at heq
      simpa [slotOf] using heq
    · intro a ha
      rcases List.mem_append.mp ha with ha | ha
      · exact hhandoffs.valid a ha
      · rw [List.mem_singleton.mp ha, hcontract, hdata]
        exact hnew
    · intro a ha
      rcases List.mem_append.mp ha with ha | ha
      · exact hhandoffs.live a ha
      · rw [List.mem_singleton.mp ha, hfields]
        exact .inl rfl
    · intro a ha
      rcases List.mem_append.mp ha with ha | ha
      · obtain ⟨c, o, p, hbound'⟩ := hhandoffs.bound a ha
        exact ⟨c, o, p, hbound'.preserved hpreserves (.refl a)⟩
      · rw [List.mem_singleton.mp ha]
        exact ⟨exchange, offer, approval, hbound⟩

theorem valid_opened {h : BilateralExchangeHandoff} {current opened : ExchangePaymentHandoff}
    (hnow : now.aware = true)
    (hvalid : ExchangePaymentHandoff.new s.rt s.https h.toExchangePaymentHandoffData =
      .ok h.toExchangePaymentHandoff)
    (hcurrent : ExchangePaymentHandoff.new s.rt s.https h.toExchangePaymentHandoffData =
      .ok current)
    (hopened : current.openAt now = .ok opened) :
    ExchangePaymentHandoff.new s.rt s.https { h.toExchangePaymentHandoffData with
        status := opened.status, openedAt := opened.openedAt } =
      .ok { h.toExchangePaymentHandoff with
        status := opened.status, openedAt := opened.openedAt } := by
  obtain rfl := Except.ok.inj (hvalid.symm.trans hcurrent)
  rcases (ExchangePaymentHandoff.openAt_eq_ok hnow).mp hopened with ⟨-, rfl⟩ | ⟨-, -, rfl⟩
  · exact hvalid
  · obtain ⟨hvalidated, hhash, -⟩ := ExchangePaymentHandoff.new_eq_ok.mp hvalid
    exact ExchangePaymentHandoff.new_eq_ok.mpr
      ⟨ExchangePaymentHandoffData.validate_opened hnow hvalidated, hhash, rfl⟩

theorem status_of_openAt {current opened : ExchangePaymentHandoff} (hnow : now.aware = true)
    (hopened : current.openAt now = .ok opened) : opened.status = .opened := by
  rcases (ExchangePaymentHandoff.openAt_eq_ok hnow).mp hopened with ⟨hstatus, rfl⟩ | ⟨-, -, rfl⟩
  · exact hstatus
  · rfl

theorem keeps_of_openHandoff (hnow : now.aware = true) (hhandoffs : Handoffs s db)
    (htransaction : s.openHandoffTransaction caller route handoffId handoffHash now db =
      .ok (record, db')) : Handoffs s db' ∧ Preserves db db' := by
  obtain ⟨hopen, -⟩ := openHandoffTransaction_eq_ok htransaction
  obtain ⟨stored, current, opened, hmem, -, -, -, hcurrent, hopened, -, rfl⟩ :=
    openHandoff_eq_ok hopen
  have hpreserves : Preserves db { db with
      handoffs := Table.update (·.handoffId) stored.handoffId
        (fun h => { h with status := opened.status, openedAt := opened.openedAt })
        db.handoffs } := by
    refine ⟨fun c hc _ => ⟨hc, rfl, rfl⟩, fun a ha => ?_⟩
    by_cases hid : a.handoffId = stored.handoffId
    · exact ⟨_, Table.mem_update.mpr (.inl ⟨a, ha, hid, rfl⟩), rfl⟩
    · exact ⟨a, Table.mem_update.mpr (.inr ⟨ha, hid⟩), .refl a⟩
  refine ⟨⟨⟨hhandoffs.filed.keyed, hhandoffs.filed.offered, hhandoffs.filed.approved⟩, ?_, ?_, ?_,
    ?_, ?_, ?_⟩, hpreserves⟩
  · intro c hc
    exact (hhandoffs.approvals c hc).congr rfl rfl
  · exact hhandoffs.ids.update (fun _ => rfl)
  · exact hhandoffs.slots.update (fun _ => rfl)
  · intro a ha
    rcases Table.mem_update.mp ha with ⟨b, hb, hid, rfl⟩ | ⟨ha, -⟩
    · obtain rfl := hhandoffs.ids.eq hb hmem hid
      exact valid_opened hnow (hhandoffs.valid b hb) hcurrent hopened
    · exact hhandoffs.valid a ha
  · intro a ha
    rcases Table.mem_update.mp ha with ⟨b, hb, -, rfl⟩ | ⟨ha, -⟩
    · have hstatus : opened.status = .opened := status_of_openAt hnow hopened
      exact .inr hstatus
    · exact hhandoffs.live a ha
  · intro a ha
    rcases Table.mem_update.mp ha with ⟨b, hb, -, rfl⟩ | ⟨ha, -⟩
    · obtain ⟨c, offer, approval, hbound⟩ := hhandoffs.bound b hb
      exact ⟨c, offer, approval, hbound.preserved hpreserves rfl⟩
    · obtain ⟨c, offer, approval, hbound⟩ := hhandoffs.bound a ha
      exact ⟨c, offer, approval, hbound.preserved hpreserves (.refl a)⟩

end Preparing

/-! ## Steps and runs -/

section Runs

variable {s : ExchangeService} {store : Store} {stage : Stage s.rt}

theorem createCaseTransaction_handoffs {request : CreateCase} {sellerOrganizationId : String}
    {now : Datetime} {db db' : Db} {opening : Opening}
    (h : s.createCaseTransaction request sellerOrganizationId now db = .ok (opening, db')) :
    db'.handoffs = db.handoffs := by
  obtain ⟨existing, created, hcreate, hcases⟩ := createCaseTransaction_eq_ok h
  have hcreated : created.handoffs = db.handoffs := by
    rcases createCase_eq_ok hcreate with ⟨-, -, -, rfl⟩ | ⟨-, -, rfl⟩
    · rfl
    · rfl
  rcases hcases with ⟨-, -, rfl⟩ |
    ⟨-, command, compiled, prepared, commandOrganizationId, -, -, hprepared, happly⟩
  · exact hcreated
  · rw [applyAndPublish_handoffs happly, hprepared]
    exact hcreated

/-- What a step does to the handoffs: nothing, or it prepares one, or it opens one. -/
inductive HandoffStep (s : ExchangeService) (time : Int) (store : Store) :
    Stage s.rt → Stage s.rt × Store → Prop
  | same {stage : Stage s.rt} {after : Stage s.rt × Store} (hstep : Step s store stage after)
      (hhandoffs : after.2.db.handoffs = store.db.handoffs) :
    HandoffStep s time store stage after
  | prepares {caller : Caller} {route : ExchangeRoute} {expectedVersion : Nat}
      {offerHash : String} {startedAt : Datetime} {record : BilateralExchangeHandoff} {db' : Db}
      (htransaction : s.createHandoffTransaction caller route expectedVersion offerHash startedAt
        store.db = .ok (record, db')) :
    HandoffStep s time store (.createHandoff caller route expectedVersion offerHash startedAt)
      (.returned (.handoff record), { store with db := db' })
  | opens {caller : Caller} {route : ExchangeRoute} {handoffId handoffHash : String}
      {record : BilateralExchangeHandoff} {db' : Db}
      (htransaction : s.openHandoffTransaction caller route handoffId handoffHash ⟨time, true⟩
        store.db = .ok (record, db')) :
    HandoffStep s time store (.openHandoff caller route handoffId handoffHash)
      (.returned (.handoff record), { store with db := db' })

theorem handoffStep_next (time : Int) (htyped : stage.Typed) (h : Consistent s.rt store.db)
    (hhandoffs : Handoffs s store.db) :
    HandoffStep s time store stage (s.next stage time store) := by
  have hstep := step_next stage time store
  cases stage with
  | createCase request binding startedAt =>
    refine .same hstep ?_
    unfold ExchangeService.next
    dsimp only
    split
    · rfl
    · next opening db' htransaction =>
      split
      · exact createCaseTransaction_handoffs htransaction
      · exact createCaseTransaction_handoffs htransaction
  | view route party =>
    refine .same hstep ?_
    unfold ExchangeService.next
    dsimp only
    split <;> rfl
  | read route party =>
    refine .same hstep ?_
    unfold ExchangeService.next
    dsimp only
    split <;> rfl
  | replay caller route party work =>
    refine .same hstep ?_
    unfold ExchangeService.next
    dsimp only
    split <;> rfl
  | append caller route party command =>
    refine .same hstep ?_
    unfold ExchangeService.next
    dsimp only
    split
    · rfl
    · next record db' happend =>
      obtain ⟨-, -, happend⟩ := bind_eq_ok.mp happend
      rw [appendCommand_frame happend]
  | work caller route party work =>
    refine .same hstep ?_
    unfold ExchangeService.next
    dsimp only
    split
    · rfl
    · next compiled db' htransaction =>
      obtain ⟨c, -, c', hadvances⟩ := advances_of_transaction h hhandoffs htyped htransaction
      exact hadvances.handoffs
  | publish organizationId shown ending =>
    refine .same hstep ?_
    unfold ExchangeService.next
    dsimp only
    split
    · rfl
    · next record db' hpublish =>
      obtain ⟨-, -, hpublish⟩ := bind_eq_ok.mp hpublish
      rw [finishWith_db]
      rcases publishProjection_eq_ok hpublish with ⟨rfl, -⟩ | ⟨rfl, -⟩
      · rfl
      · rfl
  | createHandoff caller route expectedVersion offerHash startedAt =>
    unfold ExchangeService.next at hstep ⊢
    dsimp only at hstep ⊢
    split at hstep
    · exact .same hstep rfl
    · next record db' htransaction => exact .prepares htransaction
  | openHandoff caller route handoffId handoffHash =>
    unfold ExchangeService.next at hstep ⊢
    dsimp only at hstep ⊢
    split at hstep
    · exact .same hstep rfl
    · next record db' htransaction => exact .opens htransaction
  | returned reply => exact .same hstep rfl
  | raised error => exact .same hstep rfl

theorem HandoffStep.keeps {time : Int} {after : Stage s.rt × Store}
    (hstep : HandoffStep s time store stage after) (h : Consistent s.rt store.db)
    (hhandoffs : Handoffs s store.db) (htyped : stage.Typed) :
    (Handoffs s after.2.db ∧ Preserves store.db after.2.db) ∧ after.1.Typed := by
  cases hstep with
  | prepares htransaction =>
    obtain ⟨hhandoffs', hpreserves, -⟩ := keeps_of_createHandoff h hhandoffs htransaction
    exact ⟨⟨hhandoffs', hpreserves⟩, trivial⟩
  | opens htransaction => exact ⟨keeps_of_openHandoff rfl hhandoffs htransaction, trivial⟩
  | same hstep hsame =>
    cases hstep with
    | idle hfrom hto => exact ⟨hhandoffs.congr rfl rfl rfl rfl, hto.typed⟩
    | @proceeds caller route party work stage' hto =>
      refine ⟨hhandoffs.congr rfl rfl rfl rfl, ?_⟩
      rcases hto with ⟨command, rfl, rfl⟩ | rfl
      · exact htyped
      · cases work with
        | evidence command => exact htyped
        | _ => exact trivial
    | opens htransaction hcompiled =>
      exact ⟨keeps_of_createCaseTransaction h hhandoffs htransaction, trivial⟩
    | reopens htransaction hcompiled =>
      exact ⟨keeps_of_createCaseTransaction h hhandoffs htransaction,
        (finishWith_idle _ _ _).typed⟩
    | appends happend =>
      refine ⟨?_, htyped⟩
      rw [appendCommand_frame happend]
      exact hhandoffs.congr rfl rfl rfl rfl
    | works htransaction =>
      obtain ⟨c, hc, c', hadvances⟩ := advances_of_transaction h hhandoffs htyped htransaction
      exact ⟨hadvances.keeps hc h.keyed hhandoffs, trivial⟩
    | publishes hpublish =>
      obtain ⟨-, -, hpublish⟩ := bind_eq_ok.mp hpublish
      refine ⟨?_, (finishWith_idle _ _ _).typed⟩
      rcases publishProjection_eq_ok hpublish with ⟨rfl, -⟩ | ⟨rfl, -⟩
      · exact hhandoffs.congr rfl rfl rfl rfl
      · exact hhandoffs.congr rfl rfl rfl rfl
    | withholds hpublish => exact ⟨hhandoffs.congr rfl rfl rfl rfl, trivial⟩
    | hands hfrom => exact ⟨hhandoffs.congr rfl rfl rfl hsame, trivial⟩

theorem handoffs_empty (s : ExchangeService) : Handoffs s {} where
  filed := agreement_empty.filed
  approvals := fun _ h => nomatch h
  ids := Table.keyed_nil
  slots := Table.keyed_nil
  valid := fun _ h => nomatch h
  live := fun _ h => nomatch h
  bound := fun _ h => nomatch h

/-- Every step is allowed. -/
def AnyStep (s : ExchangeService) (_ : Stage s.rt) (_ : Int) (_ : Store) : Prop :=
  True

theorem handoffs_outline (s : ExchangeService) :
    System.Outline s.system (AnyStep s)
      (fun store => Consistent s.rt store.db ∧ Handoffs s store.db)
      (fun store stage => stage.Waits store.db ∧ stage.Typed) where
  start := fun store request time _ => ⟨start_waits request time store, start_typed request time store⟩
  store := by
    intro store stage time hstore hstage _
    have hstep := handoffStep_next time hstage.2 hstore.1 hstore.2
    exact ⟨((step_next stage time store).consistent hstore.1 hstage.1).1,
      (hstep.keeps hstore.1 hstore.2 hstage.2).1.1⟩
  own := by
    intro store stage time hstore hstage _
    have hstep := handoffStep_next time hstage.2 hstore.1 hstore.2
    exact ⟨((step_next stage time store).consistent hstore.1 hstage.1).2.2,
      (hstep.keeps hstore.1 hstore.2 hstage.2).2⟩
  other := by
    intro store stage other time hstore hstage hother _
    have hextends := ((step_next stage time store).consistent hstore.1 hstage.1).2.1
    exact ⟨hother.1.mono hextends, hother.2⟩

theorem along_any (w : World Store (Stage s.rt)) (events : List (Event Request Int)) :
    s.system.Along (System.StepsMeet (AnyStep s)) w events := by
  apply System.along_of_forall
  intro w e
  cases e with
  | start | crash => exact trivial
  | advance => exact fun _ _ => trivial

theorem handoffs_of_run (s : ExchangeService) (events : List (Event Request Int)) :
    (Consistent s.rt (s.tablesAfter events) ∧ Handoffs s (s.tablesAfter events)) ∧
      ∀ stage ∈ (s.system.run ⟨{}, []⟩ events).calls,
        stage.Waits (s.tablesAfter events) ∧ stage.Typed :=
  (handoffs_outline s).run ⟨consistent_empty, handoffs_empty s⟩ (by simp) (along_any _ events)

theorem preserves_of_run {w : World Store (Stage s.rt)}
    (hstore : Consistent s.rt w.store.db ∧ Handoffs s w.store.db)
    (hcalls : ∀ stage ∈ w.calls, stage.Waits w.store.db ∧ stage.Typed)
    (later : List (Event Request Int)) :
    Preserves w.store.db (s.system.run w later).store.db := by
  apply (handoffs_outline s).run_related (R := fun store store' => Preserves store.db store'.db)
    (fun store => .refl _) (fun _ _ _ h h' => h.trans h') _ hstore hcalls (along_any w later)
  intro store stage time hstore hstage _
  exact ((handoffStep_next time hstage.2 hstore.1 hstore.2).keeps hstore.1 hstore.2 hstage.2).1.2

end Runs

/-! ## Handoffs are opened only as approved -/

section Opened

variable {s : ExchangeService}

theorem tablesAfter_concat (events : List (Event Request Int)) (e : Event Request Int) :
    s.tablesAfter (events ++ [e]) =
      (s.system.step (s.system.run ⟨{}, []⟩ events) e).store.db := by
  unfold ExchangeService.tablesAfter
  rw [System.run_append]
  rfl

theorem opened_of_openHandoff {db db' : Db} {caller : Caller} {route : ExchangeRoute}
    {handoffId handoffHash : String} {now : Datetime} {record h h' : BilateralExchangeHandoff}
    (hnow : now.aware = true) (hhandoffs : Handoffs s db)
    (htransaction : s.openHandoffTransaction caller route handoffId handoffHash now db =
      .ok (record, db'))
    (hh : h ∈ db.handoffs) (hh' : h' ∈ db'.handoffs) (hid : h'.handoffId = h.handoffId)
    (hready : h.status = .ready) (hopened : h'.status = .opened) :
    now.micros < h.expiresAt.micros := by
  obtain ⟨hopen, -⟩ := openHandoffTransaction_eq_ok htransaction
  obtain ⟨stored, current, opened, hmem, -, -, -, hcurrent, hat, -, rfl⟩ := openHandoff_eq_ok hopen
  rcases Table.mem_update.mp hh' with ⟨b, hb, hbid, rfl⟩ | ⟨hh', -⟩
  · obtain rfl := hhandoffs.ids.eq hb hmem hbid
    obtain rfl := hhandoffs.ids.eq hb hh hid
    obtain rfl := Except.ok.inj ((hhandoffs.valid b hb).symm.trans hcurrent)
    rcases (ExchangePaymentHandoff.openAt_eq_ok hnow).mp hat with ⟨hstatus, -⟩ | ⟨-, hexpires, -⟩
    · rw [hready] at hstatus
      cases hstatus
    · exact hexpires
  · -- The row was not touched.
    obtain rfl := hhandoffs.ids.eq hh' hh hid
    rw [hready] at hopened
    cases hopened

theorem HandoffStep.opened {time : Int} {store : Store} {stage : Stage s.rt}
    {after : Stage s.rt × Store} {h h' : BilateralExchangeHandoff}
    (hstep : HandoffStep s time store stage after) (hhandoffs : Handoffs s store.db)
    (hhandoffs' : Handoffs s after.2.db) (hh : h ∈ store.db.handoffs)
    (hh' : h' ∈ after.2.db.handoffs) (hid : h'.handoffId = h.handoffId)
    (hready : h.status = .ready) (hopened : h'.status = .opened) :
    time < h.expiresAt.micros := by
  have hchanged : h ∉ after.2.db.handoffs := by
    intro hsame
    obtain rfl := hhandoffs'.ids.eq hsame hh' hid.symm
    rw [hready] at hopened
    cases hopened
  cases hstep with
  | same hstep hsame => exact absurd (hsame ▸ hh) hchanged
  | prepares htransaction =>
    obtain ⟨exchange, offer, approval, handoff, -, -, hstore⟩ :=
      createHandoffTransaction_eq_ok.mp htransaction
    rcases storeHandoff_eq_ok hstore with ⟨rfl, -⟩ | ⟨-, -, -, rfl⟩
    · exact absurd hh hchanged
    · exact absurd (List.mem_append_left _ hh) hchanged
  | opens htransaction =>
    exact opened_of_openHandoff rfl hhandoffs htransaction hh hh' hid hready hopened

/-- In every run a handoff keeps its id and its hash, alone under its id. A handoff that
    becomes open by an event does so at a time before the offer, the approval and the
    handoff itself expire, its case is approved, and it is bound to what was approved of
    it. -/
theorem handoffs_opened_as_approved (s : ExchangeService) (events : List (Event Request Int)) :
    (∀ later, ∀ h ∈ (s.tablesAfter events).handoffs,
      ∃ h' ∈ (s.tablesAfter (events ++ later)).handoffs,
        h'.handoffId = h.handoffId ∧ h'.handoffHash = h.handoffHash ∧
        ∀ other ∈ (s.tablesAfter (events ++ later)).handoffs,
          other.handoffId = h.handoffId → other = h') ∧
    (∀ e, ∀ h ∈ (s.tablesAfter events).handoffs, ∀ h' ∈ (s.tablesAfter (events ++ [e])).handoffs,
      h'.handoffId = h.handoffId → h.status = .ready → h'.status = .opened →
      ∃ i time c offer approval, e = .advance i time ∧
        Bound (s.tablesAfter events) h c offer approval ∧
        time < offer.terms.expiresAt.micros ∧ time < approval.expiresAt.micros ∧
        time < h.expiresAt.micros) := by
  obtain ⟨hstore, hcalls⟩ := handoffs_of_run s events
  constructor
  · intro later h hh
    have hpreserves : Preserves (s.tablesAfter events) (s.tablesAfter (events ++ later)) := by
      have hlater := preserves_of_run hstore hcalls later
      unfold ExchangeService.tablesAfter
      rw [System.run_append]
      exact hlater
    obtain ⟨h', hh', hcontinues⟩ := hpreserves.handoffs h hh
    have hid : h'.handoffId = h.handoffId := by rw [hcontinues]
    have hhash : h'.handoffHash = h.handoffHash := by rw [hcontinues]
    refine ⟨h', hh', hid, hhash, ?_⟩
    intro other hother hotherId
    exact (handoffs_of_run s (events ++ later)).1.2.ids.eq hother hh' (hotherId.trans hid.symm)
  · intro e h hh h' hh' hid hready hopened
    have hhandoffs' := (handoffs_of_run s (events ++ [e])).1.2
    rw [tablesAfter_concat] at hh' hhandoffs'
    have hsame : h ∉ (s.system.step (s.system.run ⟨{}, []⟩ events) e).store.db.handoffs := by
      intro hsame
      obtain rfl := hhandoffs'.ids.eq hsame hh' hid.symm
      rw [hready] at hopened
      cases hopened
    cases e with
    | start request time => exact absurd hh hsame
    | crash i => exact absurd hh hsame
    | advance i time =>
      simp only [System.step] at hh' hhandoffs' hsame
      split at hh'
      · next stage hi =>
        simp only [hi] at hhandoffs'
        have htyped := (hcalls stage (List.mem_of_getElem? hi)).2
        have hstep := handoffStep_next time htyped hstore.1 hstore.2
        have hexpires : time < h.expiresAt.micros :=
          hstep.opened hstore.2 hhandoffs' hh hh' hid hready hopened
        obtain ⟨c, offer, approval, hbound⟩ := hstore.2.bound h hh
        exact ⟨i, time, c, offer, approval, rfl, hbound, hexpires.trans_le hbound.beforeOffer,
          hexpires.trans_le hbound.beforeApproval, hexpires⟩
      · next hnone =>
        simp only [hnone] at hsame
        exact absurd hh hsame

end Opened

end SiraApi
