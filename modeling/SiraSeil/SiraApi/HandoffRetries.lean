-- SUMMARY: When a handoff that was prepared once is obtained a second time: only at the same instant, since its hash covers the clock.
import SiraSeil.SiraApi.ExchangeHandoffs

/-!
# Preparing a handoff again

The id of a handoff is that of its offer, but its contract names the time at which it
was prepared, and the store takes no second contract for one offer. A caller that
lost the response can only obtain the handoff by a call that reads the same clock.
-/

namespace SiraApi

open Domain Persistence Interleaving Raising

/-! ## Preparing a handoff a second time -/

/-- A world as runs leave it. -/
structure Sound (s : ExchangeService) (w : World Store (Stage s.rt)) : Prop where
  consistent : Consistent s.rt w.store.db
  handoffs : Handoffs s w.store.db
  calls : ∀ stage ∈ w.calls, stage.Waits w.store.db ∧ stage.Typed

theorem Sound.run {s : ExchangeService} {w : World Store (Stage s.rt)} (h : Sound s w)
    (events : List (Event Request Int)) : Sound s (s.system.run w events) := by
  obtain ⟨⟨hconsistent, hhandoffs⟩, hcalls⟩ := (handoffs_outline s).run
    ⟨h.consistent, h.handoffs⟩ h.calls (along_any w events)
  exact ⟨hconsistent, hhandoffs, hcalls⟩

/-- `create_handoff` returns a handoff at a time, and `open_handoff` can open it then. -/
def ObtainsHandoff (s : ExchangeService) (caller : Caller) (route : ExchangeRoute)
    (expectedVersion : Nat) (offerHash : String) (now : Datetime) (db : Db) : Prop :=
  ∃ record db' opened,
    s.createHandoffTransaction caller route expectedVersion offerHash now db = .ok (record, db') ∧
    s.openHandoffTransaction caller route record.handoffId record.handoffHash now db' = .ok opened

/-- No stored handoff has the hash of the contract that a call makes without having its
    content. -/
def DistinctHandoffHashes (s : ExchangeService) (caseId : String) (route : ExchangeRoute)
    (expectedVersion : Nat) (offerHash : String) (now : Datetime) (db : Db) : Prop :=
  ∀ exchange offer approval,
    Payable route caseId expectedVersion offerHash db exchange offer approval →
    ∀ h ∈ db.handoffs,
      contentHash s.rt h.hashPayload =
        contentHash s.rt (s.handoffData caseId route offer approval offerHash now).hashPayload →
      h.hashPayload = (s.handoffData caseId route offer approval offerHash now).hashPayload

section Again

variable {s : ExchangeService} {db db₁ db₂ : Db} {caller caller₂ : Caller}
  {route route₂ : ExchangeRoute} {expectedVersion : Nat} {offerHash caseId : String}
  {now : Datetime} {record : BilateralExchangeHandoff}

/-- Contracts with one content were made at one time for one merchant, and expire together. -/
theorem ExchangePaymentHandoffData.eq_of_hashPayload {p q : ExchangePaymentHandoffData}
    (h : p.hashPayload = q.hashPayload) :
    p.createdAt = q.createdAt ∧ p.expiresAt = q.expiresAt ∧
      p.destinationUrl = q.destinationUrl ∧ p.recipient = q.recipient := by
  simp only [ExchangePaymentHandoffData.hashPayload, Value.obj.injEq, List.cons.injEq,
    Prod.mk.injEq, Value.atom.injEq, Atom.str.injEq, Atom.datetime.injEq] at h
  grind

theorem Payable.preserved {exchange : BilateralExchangeCase} {offer : BilateralOfferVersion}
    {approval : BilateralOfferApproval}
    (h : Payable route caseId expectedVersion offerHash db exchange offer approval)
    (hconsistent : Consistent s.rt db) (hhandoffs : Handoffs s db)
    (hconsistent₂ : Consistent s.rt db₂) (hpreserves : Preserves db db₂)
    (hbuyer : route₂.buyerOrganizationId = route.buyerOrganizationId) :
    Payable route₂ caseId expectedVersion offerHash db₂ exchange offer approval := by
  obtain ⟨hmem, horg, hid, hstate, -⟩ := h.given hconsistent hhandoffs
  obtain ⟨hmem₂, hoffers, happrovals⟩ := hpreserves.cases exchange hmem hstate
  rw [horg, hid] at hoffers happrovals
  constructor
  · rw [hbuyer]
    exact h.validTenant
  · have hfind : db₂.cases.find? (fun c => c.organizationId = route.buyerOrganizationId ∧
        c.id = caseId) = some exchange := by
      apply hconsistent₂.keyed.find?_eq hmem₂
      · simp [horg, hid]
      · intro c _ hc
        have hc : c.organizationId = route.buyerOrganizationId ∧ c.id = caseId := by
          simpa using hc
        exact hc.2.trans hid.symm
    unfold getCase
    rw [hbuyer, hfind]
  · exact h.version
  · exact h.state
  · rw [hbuyer, hoffers]
    exact h.foundOffer
  · rw [hbuyer, happrovals]
    exact h.foundApproval
  · exact h.approved

theorem Payable.eq {exchange exchange' : BilateralExchangeCase}
    {offer offer' : BilateralOfferVersion} {approval approval' : BilateralOfferApproval}
    (h : Payable route caseId expectedVersion offerHash db exchange offer approval)
    (h' : Payable route caseId expectedVersion offerHash db exchange' offer' approval') :
    offer = offer' ∧ approval = approval' :=
  ⟨Option.some.inj (h.foundOffer.symm.trans h'.foundOffer),
    Option.some.inj (h.foundApproval.symm.trans h'.foundApproval)⟩

/-- The handoff that a call returns is stored for its offer, with the hash of the contract
    that the call makes. -/
theorem stored_of_createHandoff
    (h : s.createHandoffTransaction caller route expectedVersion offerHash now db =
      .ok (record, db₁)) :
    ∃ exchange offer approval handoff,
      Payable route caller.caseId expectedVersion offerHash db exchange offer approval ∧
      ExchangePaymentHandoff.new s.rt s.https
        (s.handoffData caller.caseId route offer approval offerHash now) = .ok handoff ∧
      slotOf record = (route.buyerOrganizationId, caller.caseId, offerHash) ∧
      record.handoffHash = handoff.handoffHash ∧ record ∈ db₁.handoffs := by
  obtain ⟨exchange, offer, approval, handoff, hpayable, hnew, hstore⟩ :=
    createHandoffTransaction_eq_ok.mp h
  obtain ⟨-, -, hdata⟩ := ExchangePaymentHandoff.new_eq_ok.mp hnew
  have hcase : handoff.caseId = caller.caseId := by rw [hdata]; rfl
  have hoffer : handoff.offerHash = offerHash := by rw [hdata]; rfl
  refine ⟨exchange, offer, approval, handoff, hpayable, hnew, ?_⟩
  rcases storeHandoff_eq_ok hstore with ⟨rfl, hmem, horg, hc, ho, hhash⟩ | ⟨-, -, rfl, rfl⟩
  · refine ⟨?_, hhash, hmem⟩
    unfold slotOf
    rw [horg, hc, ho, hcase, hoffer]
  · refine ⟨?_, rfl, List.mem_append_right _ (List.mem_singleton_self _)⟩
    unfold slotOf
    rw [← hcase, ← hoffer]

theorem exists_openHandoffTransaction (hhandoffs : Handoffs s db) (hnow : now.aware = true)
    (htenant : tenant route.buyerOrganizationId = .ok ()) (hmem : record ∈ db.handoffs)
    (horg : record.organizationId = route.buyerOrganizationId)
    (hcase : record.caseId = caller.caseId) (hexpires : now.micros < record.expiresAt.micros) :
    ∃ opened, s.openHandoffTransaction caller route record.handoffId record.handoffHash now db =
      .ok opened := by
  have hfind : db.handoffs.find? (fun h => h.organizationId = route.buyerOrganizationId ∧
      h.handoffId = record.handoffId) = some record := by
    apply hhandoffs.ids.find?_eq hmem
    · simp [horg]
    · intro r _ hr
      have hr : r.organizationId = route.buyerOrganizationId ∧
          r.handoffId = record.handoffId := by simpa using hr
      exact hr.2
  obtain ⟨opened, hopened⟩ : ∃ opened,
      record.toExchangePaymentHandoff.openAt now = .ok opened := by
    rcases hhandoffs.live record hmem with hready | hopen
    · exact ⟨_, (ExchangePaymentHandoff.openAt_eq_ok hnow).mpr (.inr ⟨hready, hexpires, rfl⟩)⟩
    · exact ⟨_, (ExchangePaymentHandoff.openAt_eq_ok hnow).mpr (.inl ⟨hopen, rfl⟩)⟩
  unfold ExchangeService.openHandoffTransaction openHandoff
  rw [htenant, ok_bind, hfind]
  dsimp only
  rw [if_neg (not_not.mpr rfl), hhandoffs.valid record hmem, ok_bind,
    ensure_eq_ok.mpr (decide_eq_true rfl), ok_bind, hopened]
  rw [ok_bind, pure_bind]
  dsimp only
  rw [if_neg (not_not.mpr hcase)]
  exact ⟨_, rfl⟩

/-- A call obtains a handoff again exactly when it makes the stored contract once more. -/
theorem obtainsHandoff_iff (hconsistent : Consistent s.rt db) (hhandoffs : Handoffs s db)
    (hconsistent₂ : Consistent s.rt db₂) (hhandoffs₂ : Handoffs s db₂)
    (hpreserves : Preserves db db₂) {t₁ t₂ : Int}
    (hfirst : s.createHandoffTransaction caller route expectedVersion offerHash ⟨t₁, true⟩ db =
      .ok (record, db₁))
    (hlater : ∃ h ∈ db₂.handoffs, Continues record h)
    (hcase : caller₂.caseId = caller.caseId)
    (hbuyer : route₂.buyerOrganizationId = route.buyerOrganizationId)
    (hfree₁ : DistinctHandoffHashes s caller.caseId route expectedVersion offerHash ⟨t₁, true⟩ db₂)
    (hfree₂ : DistinctHandoffHashes s caller.caseId route₂ expectedVersion offerHash ⟨t₂, true⟩
      db₂) :
    ObtainsHandoff s caller₂ route₂ expectedVersion offerHash ⟨t₂, true⟩ db₂ ↔
      t₁ = t₂ ∧ route₂.merchantUrl = route.merchantUrl ∧
        route₂.merchantName = route.merchantName := by
  obtain ⟨exchange, offer, approval, handoff, hpayable, hnew, hslot, hhash, -⟩ :=
    stored_of_createHandoff hfirst
  obtain ⟨hvalid, hhashed, hdata⟩ := ExchangePaymentHandoff.new_eq_ok.mp hnew
  obtain ⟨stored, hstored, hcontinues⟩ := hlater
  have hstoredSlot : slotOf stored = (route.buyerOrganizationId, caller.caseId, offerHash) := by
    rw [hcontinues]
    exact hslot
  obtain ⟨horg, hkeys⟩ := Prod.mk.inj hstoredSlot
  obtain ⟨hstoredCase, hstoredOffer⟩ := Prod.mk.inj hkeys
  have hstoredHash : stored.handoffHash = handoff.handoffHash := by
    rw [hcontinues]
    exact hhash
  obtain ⟨-, hstoredHashed, -⟩ := ExchangePaymentHandoff.new_eq_ok.mp
    (hhandoffs₂.valid stored hstored)
  have hpayable₁ := hpayable.preserved hconsistent hhandoffs hconsistent₂ hpreserves rfl
  have hpayable₂ := hpayable.preserved hconsistent hhandoffs hconsistent₂ hpreserves hbuyer
  -- What is stored is the contract of the first call.
  have hcontract : stored.hashPayload =
      (s.handoffData caller.caseId route offer approval offerHash ⟨t₁, true⟩).hashPayload := by
    apply hfree₁ _ _ _ hpayable₁ stored hstored
    rw [hstoredHashed, hhashed, hstoredHash]
  obtain ⟨hcreated, hexpires, hurl, hname⟩ :=
    ExchangePaymentHandoffData.eq_of_hashPayload hcontract
  constructor
  · rintro ⟨again, db', opened, hagain, -⟩
    obtain ⟨exchange', offer', approval', handoff', hpayable', hnew', hstore'⟩ :=
      createHandoffTransaction_eq_ok.mp hagain
    rw [hcase] at hpayable' hnew'
    obtain ⟨rfl, rfl⟩ := hpayable₂.eq hpayable'
    obtain ⟨-, hhashed', hdata'⟩ := ExchangePaymentHandoff.new_eq_ok.mp hnew'
    rw [hbuyer] at hstore'
    have hkeys' : stored.organizationId = route.buyerOrganizationId ∧
        stored.caseId = handoff'.caseId ∧ stored.offerHash = handoff'.offerHash := by
      rw [hdata']
      exact ⟨horg, hstoredCase, hstoredOffer⟩
    rw [storeHandoff_of_mem hstored hkeys' hhandoffs₂.slots] at hstore'
    split at hstore'
    · cases hstore'
    · next hsame =>
      have hcontract' : stored.hashPayload =
          (s.handoffData caller.caseId route₂ offer approval offerHash ⟨t₂, true⟩).hashPayload := by
        apply hfree₂ _ _ _ hpayable₂ stored hstored
        rw [hstoredHashed, hhashed', not_not.mp hsame]
      obtain ⟨hcreated', -, hurl', hname'⟩ :=
        ExchangePaymentHandoffData.eq_of_hashPayload hcontract'
      have htimes := congrArg Datetime.micros (hcreated.symm.trans hcreated')
      exact ⟨htimes, hurl'.symm.trans hurl, hname'.symm.trans hname⟩
  · rintro ⟨rfl, hsameUrl, hsameName⟩
    have hsame : s.handoffData caller₂.caseId route₂ offer approval offerHash ⟨t₁, true⟩ =
        s.handoffData caller.caseId route offer approval offerHash ⟨t₁, true⟩ := by
      unfold ExchangeService.handoffData
      rw [hcase, hsameUrl, hsameName]
    have hkeys' : stored.organizationId = route.buyerOrganizationId ∧
        stored.caseId = handoff.caseId ∧ stored.offerHash = handoff.offerHash := by
      rw [hdata]
      exact ⟨horg, hstoredCase, hstoredOffer⟩
    have hagain : s.createHandoffTransaction caller₂ route₂ expectedVersion offerHash ⟨t₁, true⟩
        db₂ = .ok (stored, db₂) := by
      apply createHandoffTransaction_eq_ok.mpr
      refine ⟨exchange, offer, approval, handoff, hcase ▸ hpayable₂, ?_, ?_⟩
      · rw [hsame]
        exact hnew
      · rw [hbuyer, storeHandoff_of_mem hstored hkeys' hhandoffs₂.slots]
        exact if_neg (not_not.mpr hstoredHash)
    have hnotExpired : t₁ < stored.expiresAt.micros := by
      rw [hexpires]
      exact ExchangePaymentHandoffData.expires_of_validate hvalid
    obtain ⟨opened, hopened⟩ : ∃ opened, s.openHandoffTransaction caller₂ route₂ stored.handoffId
        stored.handoffHash ⟨t₁, true⟩ db₂ = .ok opened :=
      exists_openHandoffTransaction hhandoffs₂ rfl hpayable₂.validTenant hstored
        (horg.trans hbuyer.symm) (hstoredCase.trans hcase.symm) hnotExpired
    exact ⟨stored, db₂, opened, hagain, hopened⟩

theorem store_of_next {w : World Store (Stage s.rt)} {i : Nat} {given : Int}
    {stage stage' : Stage s.rt} {store : Store} (hcall : w.calls[i]? = some stage)
    (hnext : s.next stage given w.store = (stage', store)) :
    (s.system.run w [.advance i given]).store = store := by
  rw [System.run_advance hcall]
  exact congrArg Prod.snd hnext

theorem distinctHandoffHashes_of_first (hnone : db.handoffs = [])
    (hfirst : s.createHandoffTransaction caller route expectedVersion offerHash now db =
      .ok (record, db₁)) :
    DistinctHandoffHashes s caller.caseId route expectedVersion offerHash now db₁ := by
  obtain ⟨exchange, offer, approval, handoff, hpayable, hnew, hstore⟩ :=
    createHandoffTransaction_eq_ok.mp hfirst
  obtain ⟨-, -, hdata⟩ := ExchangePaymentHandoff.new_eq_ok.mp hnew
  rcases storeHandoff_eq_ok hstore with ⟨-, hmem, -⟩ | ⟨-, -, hrow, rfl⟩
  · rw [hnone] at hmem
    exact absurd hmem List.not_mem_nil
  · intro exchange' offer' approval' hpayable' h hh _
    obtain rfl : offer = offer' :=
      Option.some.inj (hpayable.foundOffer.symm.trans hpayable'.foundOffer)
    obtain rfl : approval = approval' :=
      Option.some.inj (hpayable.foundApproval.symm.trans hpayable'.foundApproval)
    rw [hnone, List.nil_append] at hh
    rw [List.mem_singleton.mp hh, hrow, hdata]

end Again

/-- After a call has prepared a handoff at one time, a call at another time obtains a handoff
    that it could open exactly when both times are the same and both routes name the same
    merchant, whatever ran in between. -/
theorem handoff_obtained_again_iff (s : ExchangeService) (w : World Store (Stage s.rt))
    (hw : Sound s w) (i : Nat) (caller caller₂ : Caller) (route route₂ : ExchangeRoute)
    (expectedVersion : Nat) (offerHash : String) (t₁ t₂ given : Int)
    (record : BilateralExchangeHandoff) (later : List (Event Request Int))
    (hcall : w.calls[i]? = some (.createHandoff caller route expectedVersion offerHash ⟨t₁, true⟩))
    (hfirst : (s.next (.createHandoff caller route expectedVersion offerHash ⟨t₁, true⟩) given
      w.store).1 = .returned (.handoff record))
    (hcase : caller₂.caseId = caller.caseId)
    (hbuyer : route₂.buyerOrganizationId = route.buyerOrganizationId)
    (hfree₁ : DistinctHandoffHashes s caller.caseId route expectedVersion offerHash ⟨t₁, true⟩
      (s.system.run w (.advance i given :: later)).store.db)
    (hfree₂ : DistinctHandoffHashes s caller.caseId route₂ expectedVersion offerHash ⟨t₂, true⟩
      (s.system.run w (.advance i given :: later)).store.db) :
    ObtainsHandoff s caller₂ route₂ expectedVersion offerHash ⟨t₂, true⟩
        (s.system.run w (.advance i given :: later)).store.db ↔
      t₁ = t₂ ∧ route₂.merchantUrl = route.merchantUrl ∧
        route₂.merchantName = route.merchantName := by
  have hpreserves : Preserves w.store.db (s.system.run w (.advance i given :: later)).store.db :=
    preserves_of_run ⟨hw.consistent, hw.handoffs⟩ hw.calls _
  have hlast := hw.run (.advance i given :: later)
  obtain ⟨db₁, htransaction, hmem⟩ : ∃ db₁,
      s.createHandoffTransaction caller route expectedVersion offerHash ⟨t₁, true⟩ w.store.db =
        .ok (record, db₁) ∧ (s.system.step w (.advance i given)).store.db = db₁ := by
    simp only [System.step, hcall]
    unfold ExchangeService.next at hfirst
    dsimp only at hfirst
    split at hfirst
    · cases hfirst
    · next stored db₁ htransaction =>
      cases hfirst
      refine ⟨db₁, htransaction, ?_⟩
      show (s.next _ given w.store).2.db = db₁
      unfold ExchangeService.next
      dsimp only
      rw [htransaction]
  have hstored : ∃ h ∈ (s.system.run w (.advance i given :: later)).store.db.handoffs,
      Continues record h := by
    have hstep := hw.run [.advance i given]
    have hlater := preserves_of_run ⟨hstep.consistent, hstep.handoffs⟩ hstep.calls later
    apply hlater.handoffs record
    show record ∈ (s.system.step w (.advance i given)).store.db.handoffs
    rw [hmem]
    exact (keeps_of_createHandoff hw.consistent hw.handoffs htransaction).2.2
  exact obtainsHandoff_iff hw.consistent hw.handoffs hlast.consistent hlast.handoffs hpreserves
    htransaction hstored hcase hbuyer hfree₁ hfree₂

/-! ## A lost response -/

namespace Sample

def agreedOffer : OfferVersion where
  offerId := "offer_case"
  caseId := "case"
  version := 1
  proposer := .buyer
  recipient := .seller
  changedTerms := []
  rationale := "Two seats."
  currency := "USD"
  lines := [⟨"seat", "Seat", 2, 5000⟩]
  total := 10000
  expiresAt := ⟨1893456000000000, true⟩
  requirementHash := "sha256:0000000000000000000000000000000000000000000000000000000000000001"
  evidenceHash := "sha256:0000000000000000000000000000000000000000000000000000000000000002"
  offerHash := "sha256:74280b027430f2c80ef789da429c6be53b29087c476c0ba3d1a662bc55dacb14"

def offerApproval : BilateralOfferApproval where
  organizationId := "org-buyer"
  approvalId := "approval_case"
  caseId := "case"
  offerHash := agreedOffer.offerHash
  approverId := "buyer"
  approvedAt := ⟨1892000000000000, true⟩
  expiresAt := ⟨1893000000000000, true⟩
  approvalHash := "sha256:d6b30cef8ee16e30373152ed8b675d591d6b7d6dbfe6bdb80bef287bb6d91624"

/-- The commands that led to the approval, with their parties and payloads. -/
def history : List (CommandType × ExchangeParty × Fields) :=
  [(.releaseRequirement, .buyer, [("envelope_hash", .str agreedOffer.requirementHash)]),
    (.publishEvidence, .seller, [("evidence_hash", .str agreedOffer.evidenceHash)]),
    (.proposeOffer, .buyer, agreedOffer.toJson),
    (.acceptOffer, .seller, [("offer_hash", .str agreedOffer.offerHash)]),
    (.approveHandoff, .system, [("offer_hash", .str agreedOffer.offerHash),
      ("approval_id", .str offerApproval.approvalId),
      ("approval_hash", .str offerApproval.approvalHash)])]

def transitionAt (sequence : Nat) (entry : CommandType × ExchangeParty × Fields)
    (previousState nextState : ExchangeState) : BilateralTransition where
  organizationId := "org-buyer"
  caseId := "case"
  sequence := sequence
  command := {
    id := "command_" ++ String.ofList (List.replicate sequence 'i')
    caseId := "case"
    party := entry.2.1
    actorId := if entry.2.1 = .seller then "seller" else "buyer"
    commandType := entry.1
    expectedVersion := sequence
    idempotencyKey := "key"
    payload := entry.2.2 }
  commandOrganizationId := if entry.2.1 = .seller then "org-seller" else "org-buyer"
  previousState := previousState
  nextState := nextState
  transitionHash := "sha256:transition"

def approvedCase : BilateralExchangeCase where
  id := "case"
  organizationId := "org-buyer"
  sellerOrganizationId := "org-seller"
  state := .approvedForHandoff
  version := 6
  coordinatorState := {
    caseId := "case"
    state := .approvedForHandoff
    version := 6
    requirement := some [("envelope_hash", .str agreedOffer.requirementHash)]
    evidence := some [("evidence_hash", .str agreedOffer.evidenceHash)]
    currentOffer := some agreedOffer.toJson
    approval := some [("offer_hash", .str agreedOffer.offerHash),
      ("approval_id", .str offerApproval.approvalId),
      ("approval_hash", .str offerApproval.approvalHash)]
    lastCommandId := some "command_iiiii" }
  stateHash := "sha256:state"
  lastCommandId := some "command_iiiii"

/-- The tables when the case has just been approved. -/
def approvedTables : Db where
  cases := [approvedCase]
  transitions := (List.range' 1 5).zipWith (fun sequence entry =>
    transitionAt sequence entry .created .approvedForHandoff) history
  offers := [⟨"org-buyer", agreedOffer, .approved⟩]
  approvals := [offerApproval]

def approvedRoute : ExchangeRoute where
  caseId := "case"
  candidateId := "candidate"
  productId := "product"
  merchantName := "Seller"
  merchantUrl := "https://seller.example"
  buyerOrganizationId := "org-buyer"
  sellerOrganizationId := "org-seller"
  developmentGuestOrganizationId := none
  expiresAt := ⟨1893456000000000, true⟩

def buyerCaller : Caller where
  organizationId := "org-buyer"
  actorId := "buyer"
  party := some .buyer
  caseId := "case"
  routeCapability := approvedRoute
  guestIdentity := false

/-- The handoff of the approved offer is prepared at a time. -/
def prepareAt (time : Int) (db : Db) : Exchanged (BilateralExchangeHandoff × Db) :=
  service.createHandoffTransaction buyerCaller approvedRoute 6 agreedOffer.offerHash ⟨time, true⟩ db

/-- Ten days before the approval expires. -/
def handoffTime : Int := 1892136000000000

def approvedWorld : World Store (Stage service.rt) where
  store := ⟨approvedTables, [approvedRoute]⟩
  calls := [.createHandoff buyerCaller approvedRoute 6 agreedOffer.offerHash ⟨handoffTime, true⟩]

theorem consistent_approvedTables : Consistent service.rt approvedTables where
  keyed := List.nodup_singleton _
  linearized := by
    intro c hc
    obtain rfl := List.mem_singleton.mp hc
    constructor
    · rfl
    · rfl
    · rfl
    · rfl
    · rfl
    · decide
    · decide
  placed := by
    intro t ht
    refine ⟨approvedCase, List.mem_singleton_self _, ?_⟩
    simp only [approvedTables, history, List.range', List.zipWith, List.mem_cons, List.not_mem_nil,
      or_false] at ht
    rcases ht with rfl | rfl | rfl | rfl | rfl <;> exact ⟨rfl, rfl⟩
  shown := fun _ h => nomatch h

theorem handoffs_approvedTables : Handoffs service approvedTables where
  filed := {
    keyed := List.nodup_singleton _
    offered := by
      intro o ho
      obtain rfl := List.mem_singleton.mp ho
      exact ⟨approvedCase, List.mem_singleton_self _, rfl, rfl⟩
    approved := by
      intro a ha
      obtain rfl := List.mem_singleton.mp ha
      exact ⟨approvedCase, List.mem_singleton_self _, rfl, rfl⟩ }
  approvals := by
    intro c hc
    obtain rfl := List.mem_singleton.mp hc
    exact @ApprovalOf.given _ _ ⟨"org-buyer", agreedOffer, .approved⟩ offerApproval
      rfl rfl rfl rfl
  ids := Table.keyed_nil
  slots := Table.keyed_nil
  valid := fun _ h => nomatch h
  live := fun _ h => nomatch h
  bound := fun _ h => nomatch h

theorem sound_approvedWorld : Sound service approvedWorld where
  consistent := consistent_approvedTables
  handoffs := handoffs_approvedTables
  calls := by
    intro stage hstage
    obtain rfl := List.mem_singleton.mp hstage
    exact ⟨trivial, trivial⟩

end Sample

theorem sample_handoffs :
    (Sample.prepareAt Sample.handoffTime Sample.approvedTables).toOption.any (fun first =>
      !(Sample.prepareAt (Sample.handoffTime + 1000000) first.2).isOk) = true := by
  decide +kernel

/-- The response to a call that has prepared a handoff is lost. A second later, long before the
    offer and the approval expire, the same call is refused. -/
theorem lost_handoff_is_refused :
    Sample.approvedCase.state = .approvedForHandoff ∧
    (∀ o ∈ Sample.approvedTables.offers, Sample.handoffTime + 1000000 < o.terms.expiresAt.micros) ∧
    (∀ a ∈ Sample.approvedTables.approvals, Sample.handoffTime + 1000000 < a.expiresAt.micros) ∧
    ∃ record db, Sample.prepareAt Sample.handoffTime Sample.approvedTables = .ok (record, db) ∧
      ∀ result, Sample.prepareAt (Sample.handoffTime + 1000000) db ≠ .ok result := by
  obtain ⟨⟨record, db⟩, hfirst, hsecond⟩ := exists_of_toOption_any sample_handoffs
  refine ⟨rfl, ?_, ?_, record, db, hfirst, ?_⟩
  · intro o ho
    obtain rfl := List.mem_singleton.mp ho
    decide
  · intro a ha
    obtain rfl := List.mem_singleton.mp ha
    decide
  · intro result hresult
    rw [hresult] at hsecond
    cases hsecond

/-- At the same instant the handoff is obtained again. -/
theorem handoff_obtained_again_iff_sample :
    ObtainsHandoff Sample.service Sample.buyerCaller Sample.approvedRoute 6
      Sample.agreedOffer.offerHash ⟨Sample.handoffTime, true⟩
      (Sample.service.system.run Sample.approvedWorld [.advance 0 0]).store.db := by
  obtain ⟨⟨record, db⟩, hfirst, -⟩ := exists_of_toOption_any sample_handoffs
  have hfirst : Sample.service.createHandoffTransaction Sample.buyerCaller Sample.approvedRoute 6
      Sample.agreedOffer.offerHash ⟨Sample.handoffTime, true⟩ Sample.approvedWorld.store.db =
      .ok (record, db) := hfirst
  have hnext : Sample.service.next (.createHandoff Sample.buyerCaller Sample.approvedRoute 6
      Sample.agreedOffer.offerHash ⟨Sample.handoffTime, true⟩) 0 Sample.approvedWorld.store =
      (.returned (.handoff record), { Sample.approvedWorld.store with db }) := by
    unfold ExchangeService.next
    dsimp only
    rw [hfirst]
  have hdb : (Sample.service.system.run Sample.approvedWorld [.advance 0 0]).store.db = db := by
    rw [store_of_next rfl hnext]
  have hfree : DistinctHandoffHashes Sample.service Sample.buyerCaller.caseId Sample.approvedRoute
      6 Sample.agreedOffer.offerHash ⟨Sample.handoffTime, true⟩
      (Sample.service.system.run Sample.approvedWorld [.advance 0 0]).store.db := by
    rw [hdb]
    exact distinctHandoffHashes_of_first rfl hfirst
  exact (handoff_obtained_again_iff Sample.service Sample.approvedWorld Sample.sound_approvedWorld
    0 Sample.buyerCaller Sample.buyerCaller Sample.approvedRoute Sample.approvedRoute 6
    Sample.agreedOffer.offerHash Sample.handoffTime Sample.handoffTime 0 record [] rfl
    (congrArg Prod.fst hnext) rfl rfl hfree hfree).mpr ⟨rfl, rfl, rfl⟩

end SiraApi
