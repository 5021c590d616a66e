-- SUMMARY: Every run of the exchange service keeps cases, transitions and projections consistent, and whether the seller's projections catch up with the coordinator.
import SiraSeil.Persistence.CommandLog
import SiraSeil.SiraApi.ExchangeService

/-!
# Runs of the exchange service

However the transactions of the calls are interleaved and whichever calls crash,
the transitions of a case remain the log that its coordinator replays, and every
projection, published or waiting for its publication, shows a state of that log.
-/

namespace SiraApi

open Domain Persistence Interleaving Raising

/-- A projection that waits for its publication shows a state of its case. -/
def Stage.Waits {rt : Runtime} (db : Db) : Stage rt → Prop
  | .publish _ shown _ => ShownIn rt db shown
  | _ => True

section Transactions

variable {s : ExchangeService} {caller : Commanding} {route : ExchangeRoute}
  {party : ExchangeParty} {db db' prepared : Db} {compiled : CompiledTransition}
  {now : Datetime} {exchange : BilateralExchangeCase} {command : PartyCommand s.rt}

theorem sameCases_of_appendCommand {organizationId : String} {data : PartyCommandData}
    {record : BilateralPartyCommand}
    (h : appendCommand s.rt organizationId data db = .ok (record, db')) : SameCases db db' := by
  rw [appendCommand_frame h]
  exact ⟨rfl, rfl, rfl⟩

theorem sameCases_of_storeOffer {organizationId : String} {offer : OfferVersion}
    {record : BilateralOfferVersion}
    (h : storeOffer organizationId offer db = .ok (record, db')) : SameCases db db' := by
  rcases storeOffer_eq_ok h with ⟨rfl, -⟩ | ⟨offers, -, -, -, rfl⟩
  · exact ⟨rfl, rfl, rfl⟩
  · exact ⟨rfl, rfl, rfl⟩

theorem sameCases_of_approveOffer {organizationId : String} {approval : OfferApproval}
    {record : BilateralOfferApproval}
    (h : approveOffer s.rt organizationId approval now db = .ok (record, db')) :
    SameCases db db' := by
  rcases approveOffer_eq_ok h with ⟨rfl, -⟩ | ⟨latest, -, -, -, -, -, rfl⟩
  · exact ⟨rfl, rfl, rfl⟩
  · exact ⟨rfl, rfl, rfl⟩

/-- What a transaction of the buyer's tenant keeps and what it leaves to publish. -/
structure Keeps (rt : Runtime) (db db' : Db) (shown : PartyProjection) : Prop where
  consistent : Consistent rt db'
  grows : Extends db db'
  shown : ShownIn rt db' shown

theorem Applies.keeps {caseId : String} (h : Consistent s.rt db) (hsame : SameCases db prepared)
    (happlies : Applies s route caseId exchange command db prepared compiled db') :
    Keeps s.rt db db' compiled.sellerProjection := by
  obtain ⟨commandOrganizationId, happly⟩ := happlies.applies
  obtain ⟨hconsistent, hextends, hshown⟩ :=
    (h.congr hsame).apply (hsame.cases ▸ happlies.mem) happly
  exact ⟨hconsistent, hsame.extends.trans hextends, hshown⟩

theorem transaction_eq_ok {work : Work s.rt}
    (h : s.transaction caller route party work now db = .ok (compiled, db')) :
    ∃ exchange command prepared, SameCases db prepared ∧
      Applies s route caller.caseId exchange command db prepared compiled db' := by
  cases work with
  | evidence command =>
    obtain ⟨exchange, happlies⟩ := evidenceTransaction_eq_ok h
    exact ⟨exchange, command, db, ⟨rfl, rfl, rfl⟩, happlies⟩
  | proposal proposal =>
    obtain ⟨exchange, command, commandType, offer, record, stored, appended, prepared, happlies, -,
      -, hstore, happend⟩ := proposeTransaction_eq_ok h
    exact ⟨exchange, command, prepared,
      (sameCases_of_storeOffer hstore).trans (sameCases_of_appendCommand happend), happlies⟩
  | acceptance offerHash =>
    obtain ⟨exchange, command, latest, appended, prepared, happlies, -, -, -, -, happend⟩ :=
      acceptTransaction_eq_ok h
    exact ⟨exchange, command, prepared, sameCases_of_appendCommand happend, happlies⟩
  | approval offerHash approvalExpiresAt approvedAt =>
    obtain ⟨exchange, command, approvalHash, record, approved, appended, prepared, happlies,
      happrove, -, -, happend⟩ := approveTransaction_eq_ok h
    exact ⟨exchange, command, prepared,
      (sameCases_of_approveOffer happrove).trans (sameCases_of_appendCommand happend), happlies⟩

theorem keeps_of_transaction {work : Work s.rt} (h : Consistent s.rt db)
    (htransaction : s.transaction caller route party work now db = .ok (compiled, db')) :
    Keeps s.rt db db' compiled.sellerProjection := by
  obtain ⟨exchange, command, prepared, hsame, happlies⟩ := transaction_eq_ok htransaction
  exact happlies.keeps h hsame

end Transactions

/-! ## What a request starts -/

/-- All that a request can start: the stage at which its call begins. -/
inductive Starts (s : ExchangeService) (issued : List ExchangeRoute) (now : Datetime) :
    Request → Stage s.rt → Prop
  | createCase {request : CreateCase} {binding : SellerPrincipalBinding}
      (hparty : request.party = some .buyer)
      (hbinding : s.sellerDirectory request.candidateId = some binding) :
    Starts s issued now (.createCase request) (.createCase request binding now)
  | viewCase {caller : Caller} {route : ExchangeRoute} {party : ExchangeParty}
      (hdecode : s.decodeRoute issued caller now = .ok (route, party)) :
    Starts s issued now (.viewCase caller) (.read route party)
  | publishEvidence {caller : Commanding} {summary : String} {publishedSpanIds : List String}
      {spans : List EvidenceSpan} {route : ExchangeRoute} {party : ExchangeParty}
      {command : PartyCommand s.rt}
      (hdecode : s.decodeRoute issued caller.toCaller now = .ok (route, party))
      (hparty : party = .seller)
      (hcommand : s.evidenceCommand caller summary publishedSpanIds spans = .ok command) :
    Starts s issued now (.publishEvidence caller summary publishedSpanIds spans)
      (.replay caller route party (.evidence command))
  | proposeOffer {caller : Commanding} {proposal : Proposal} {route : ExchangeRoute}
      {party : ExchangeParty}
      (hdecode : s.decodeRoute issued caller.toCaller now = .ok (route, party)) :
    Starts s issued now (.proposeOffer caller proposal)
      (.replay caller route party (.proposal proposal))
  | acceptOffer {caller : Commanding} {offerHash : String} {route : ExchangeRoute}
      {party : ExchangeParty}
      (hdecode : s.decodeRoute issued caller.toCaller now = .ok (route, party)) :
    Starts s issued now (.acceptOffer caller offerHash)
      (.replay caller route party (.acceptance offerHash))
  | approveOffer {caller : Commanding} {offerHash : String} {approvalExpiresAt : Datetime}
      {route : ExchangeRoute} {party : ExchangeParty}
      (hdecode : s.decodeRoute issued caller.toCaller now = .ok (route, party))
      (hparty : party = .buyer) :
    Starts s issued now (.approveOffer caller offerHash approvalExpiresAt)
      (.replay caller route party (.approval offerHash approvalExpiresAt now))
  | createHandoff {caller : Caller} {expectedVersion : Nat} {offerHash : String}
      {route : ExchangeRoute} {party : ExchangeParty}
      (hdecode : s.decodeRoute issued caller now = .ok (route, party)) (hparty : party = .buyer) :
    Starts s issued now (.createHandoff caller expectedVersion offerHash)
      (.createHandoff caller route expectedVersion offerHash now)
  | openHandoff {caller : Caller} {handoffId handoffHash : String} {route : ExchangeRoute}
      {party : ExchangeParty}
      (hdecode : s.decodeRoute issued caller now = .ok (route, party)) (hparty : party = .buyer) :
    Starts s issued now (.openHandoff caller handoffId handoffHash)
      (.openHandoff caller route handoffId handoffHash)

section Starts

variable {s : ExchangeService} {now : Datetime} {issued : List ExchangeRoute}

theorem startCreateCase_eq_ok {request : CreateCase} {stage : Stage s.rt}
    (h : s.startCreateCase request now = .ok stage) :
    ∃ binding, request.party = some .buyer ∧
      s.sellerDirectory request.candidateId = some binding ∧
      stage = .createCase request binding now := by
  unfold ExchangeService.startCreateCase at h
  dsimp only at h
  split at h
  · cases h
  · next hparty =>
    split at h
    · cases h
    · next binding hbinding =>
      split at h
      · cases h
      · cases h
        exact ⟨binding, not_not.mp hparty, hbinding, rfl⟩

theorem starts_of_startRequest {request : Request} {stage : Stage s.rt}
    (h : s.startRequest issued now request = .ok stage) : Starts s issued now request stage := by
  cases request with
  | createCase request =>
    obtain ⟨binding, hparty, hbinding, rfl⟩ := startCreateCase_eq_ok h
    exact .createCase hparty hbinding
  | viewCase caller =>
    obtain ⟨⟨route, party⟩, hdecode, h⟩ := bind_eq_ok.mp h
    cases h
    exact .viewCase hdecode
  | publishEvidence caller summary publishedSpanIds spans =>
    obtain ⟨⟨route, party⟩, hdecode, h⟩ := bind_eq_ok.mp h
    dsimp only at h
    split at h
    · cases h
    · next hparty =>
      obtain ⟨-, -, h⟩ := bind_eq_ok.mp h
      obtain ⟨command, hcommand, h⟩ := bind_eq_ok.mp h
      cases h
      exact .publishEvidence hdecode (not_not.mp hparty) hcommand
  | proposeOffer caller proposal =>
    obtain ⟨⟨route, party⟩, hdecode, h⟩ := bind_eq_ok.mp h
    cases h
    exact .proposeOffer hdecode
  | acceptOffer caller offerHash =>
    obtain ⟨⟨route, party⟩, hdecode, h⟩ := bind_eq_ok.mp h
    cases h
    exact .acceptOffer hdecode
  | approveOffer caller offerHash approvalExpiresAt =>
    obtain ⟨⟨route, party⟩, hdecode, h⟩ := bind_eq_ok.mp h
    dsimp only at h
    split at h
    · cases h
    · next hparty =>
      cases h
      exact .approveOffer hdecode (not_not.mp hparty)
  | createHandoff caller expectedVersion offerHash =>
    obtain ⟨⟨route, party⟩, hdecode, h⟩ := bind_eq_ok.mp h
    dsimp only at h
    split at h
    · cases h
    · next hparty =>
      cases h
      exact .createHandoff hdecode (not_not.mp hparty)
  | openHandoff caller handoffId handoffHash =>
    obtain ⟨⟨route, party⟩, hdecode, h⟩ := bind_eq_ok.mp h
    dsimp only at h
    split at h
    · cases h
    · next hparty =>
      cases h
      exact .openHandoff hdecode (not_not.mp hparty)

theorem start_cases (request : Request) (time : Int) (store : Store) :
    ∃ stage, s.system.start request time store = stage ∧
      (Starts s store.issued ⟨time, true⟩ request stage ∨ ∃ error, stage = .raised error) := by
  refine ⟨_, rfl, ?_⟩
  show Starts s store.issued ⟨time, true⟩ request
      (ExchangeService.stageOf (s.startRequest store.issued ⟨time, true⟩ request)) ∨
    ∃ error, ExchangeService.stageOf (s.startRequest store.issued ⟨time, true⟩ request) =
      .raised error
  cases hstart : s.startRequest store.issued ⟨time, true⟩ request with
  | ok stage => exact .inl (starts_of_startRequest hstart)
  | error error => exact .inr ⟨error, rfl⟩

end Starts

/-! ## What a step can do -/

/-- The call waits for the publication of a projection. -/
def Stage.Publishes {rt : Runtime} : Stage rt → Prop
  | .publish .. => True
  | _ => False

/-- The call writes nothing any more. -/
def Stage.Idle {rt : Runtime} : Stage rt → Prop
  | .view .. | .read .. | .returned _ | .raised _ => True
  | _ => False

/-- All that one step of a call can do: the stage and the store it leads to. -/
inductive Step (s : ExchangeService) (store : Store) : Stage s.rt → Stage s.rt × Store → Prop
  /-- The call reads, ends, or its transaction raises. -/
  | idle {stage stage' : Stage s.rt} (hfrom : ¬ stage.Publishes) (hto : stage'.Idle) :
    Step s store stage (stage', store)
  /-- The command of the call was not applied before. -/
  | proceeds {caller : Commanding} {route : ExchangeRoute} {party : ExchangeParty}
      {work : Work s.rt} {stage' : Stage s.rt}
      (hto : (∃ command, work = .evidence command ∧
        stage' = .append caller route party command) ∨ stage' = .work caller route party work) :
    Step s store (.replay caller route party work) (stage', store)
  /-- A case is opened, and its requirement released. -/
  | opens {request : CreateCase} {binding : SellerPrincipalBinding} {startedAt : Datetime}
      {opening : Opening} {db' : Db} {compiled : CompiledTransition}
      (htransaction : s.createCaseTransaction request binding.sellerOrganizationId startedAt
        store.db = .ok (opening, db'))
      (hcompiled : opening.compiled = some compiled) :
    Step s store (.createCase request binding startedAt)
      (.publish binding.sellerOrganizationId compiled.sellerProjection
        (.issue (s.routeOf request binding opening.expiresAt) opening.buyerProjection),
        { store with db := db' })
  /-- The case was released already. -/
  | reopens {request : CreateCase} {binding : SellerPrincipalBinding} {startedAt : Datetime}
      {opening : Opening} {db' : Db}
      (htransaction : s.createCaseTransaction request binding.sellerOrganizationId startedAt
        store.db = .ok (opening, db'))
      (hcompiled : opening.compiled = none) :
    Step s store (.createCase request binding startedAt)
      (s.finishWith (.issue (s.routeOf request binding opening.expiresAt) opening.buyerProjection)
        store db')
  /-- The seller's tenant takes the command that publishes evidence. -/
  | appends {caller : Commanding} {route : ExchangeRoute} {party : ExchangeParty}
      {command : PartyCommand s.rt} {record : BilateralPartyCommand} {db' : Db}
      (happend : appendCommand s.rt route.sellerOrganizationId command.toPartyCommandData
        store.db = .ok (record, db')) :
    Step s store (.append caller route party command)
      (.work caller route party (.evidence command), { store with db := db' })
  /-- A command is applied in the buyer's tenant. -/
  | works {caller : Commanding} {route : ExchangeRoute} {party : ExchangeParty}
      {work : Work s.rt} {time : Int} {compiled : CompiledTransition} {db' : Db}
      (htransaction : s.transaction caller route party work ⟨time, true⟩ store.db =
        .ok (compiled, db')) :
    Step s store (.work caller route party work)
      (.publish route.sellerOrganizationId compiled.sellerProjection
        (.show (s.selected work party compiled)), { store with db := db' })
  /-- The seller's tenant takes a projection. -/
  | publishes {organizationId : String} {shown : PartyProjection} {ending : Ending}
      {record : BilateralPartyProjection} {db' : Db}
      (hpublish : ExchangeService.publishTransaction organizationId shown store.db =
        .ok (record, db')) :
    Step s store (.publish organizationId shown ending) (s.finishWith ending store db')
  /-- The publication of a projection raises. -/
  | withholds {organizationId : String} {shown : PartyProjection} {ending : Ending}
      {error : ExchangeError}
      (hpublish : ExchangeService.publishTransaction organizationId shown store.db =
        .error error) :
    Step s store (.publish organizationId shown ending) (.raised error, store)
  /-- A handoff is stored or opened. -/
  | hands {stage : Stage s.rt} {reply : Reply} {handoffs : List BilateralExchangeHandoff}
      (hfrom : ¬ stage.Publishes) :
    Step s store stage (.returned reply, { store with db := { store.db with handoffs } })

section Steps

variable {s : ExchangeService}

theorem createHandoffTransaction_frame {caller : Caller} {route : ExchangeRoute}
    {expectedVersion : Nat} {offerHash : String} {now : Datetime} {db db' : Db}
    {record : BilateralExchangeHandoff}
    (h : s.createHandoffTransaction caller route expectedVersion offerHash now db =
      .ok (record, db')) : db' = { db with handoffs := db'.handoffs } := by
  unfold ExchangeService.createHandoffTransaction at h
  obtain ⟨-, -, h⟩ := bind_eq_ok.mp h
  obtain ⟨exchange, -, h⟩ := bind_eq_ok.mp h
  dsimp only at h
  split at h
  · cases h
  · split at h
    · split at h
      · cases h
      · obtain ⟨handoff, -, h⟩ := bind_eq_ok.mp h
        exact storeHandoff_frame h
    · cases h

theorem openHandoffTransaction_frame {caller : Caller} {route : ExchangeRoute}
    {handoffId handoffHash : String} {now : Datetime} {db db' : Db}
    {record : BilateralExchangeHandoff}
    (h : s.openHandoffTransaction caller route handoffId handoffHash now db = .ok (record, db')) :
    db' = { db with handoffs := db'.handoffs } := by
  unfold ExchangeService.openHandoffTransaction at h
  obtain ⟨-, -, h⟩ := bind_eq_ok.mp h
  obtain ⟨⟨opened, db''⟩, hopen, h⟩ := bind_eq_ok.mp h
  dsimp only at h
  split at h
  · cases h
  · cases h
    exact openHandoff_frame hopen

theorem step_next (stage : Stage s.rt) (time : Int) (store : Store) :
    Step s store stage (s.next stage time store) := by
  cases stage with
  | createCase request binding startedAt =>
    unfold ExchangeService.next
    dsimp only
    split
    · exact .idle not_false trivial
    · next opening db' htransaction =>
      split
      · next compiled hcompiled => exact .opens htransaction hcompiled
      · next hcompiled => exact .reopens htransaction hcompiled
  | view route party =>
    unfold ExchangeService.next
    dsimp only
    split
    · exact .idle not_false trivial
    · exact .idle not_false trivial
  | read route party =>
    unfold ExchangeService.next
    dsimp only
    split
    · exact .idle not_false trivial
    · exact .idle not_false trivial
  | replay caller route party work =>
    unfold ExchangeService.next
    dsimp only
    split
    · exact .idle not_false trivial
    · exact .idle not_false trivial
    · exact .proceeds (.inl ⟨_, rfl, rfl⟩)
    · exact .proceeds (.inr rfl)
  | append caller route party command =>
    unfold ExchangeService.next
    dsimp only
    split
    · exact .idle not_false trivial
    · next record db' happend =>
      obtain ⟨-, -, happend⟩ := bind_eq_ok.mp happend
      exact .appends happend
  | work caller route party work =>
    unfold ExchangeService.next
    dsimp only
    split
    · exact .idle not_false trivial
    · next compiled db' htransaction => exact .works htransaction
  | publish organizationId shown ending =>
    unfold ExchangeService.next
    dsimp only
    split
    · next error hpublish => exact .withholds hpublish
    · next record db' hpublish => exact .publishes hpublish
  | createHandoff caller route expectedVersion offerHash startedAt =>
    unfold ExchangeService.next
    dsimp only
    split
    · exact .idle not_false trivial
    · next record db' htransaction =>
      rw [createHandoffTransaction_frame htransaction]
      exact .hands not_false
  | openHandoff caller route handoffId handoffHash =>
    unfold ExchangeService.next
    dsimp only
    split
    · exact .idle not_false trivial
    · next record db' htransaction =>
      rw [openHandoffTransaction_frame htransaction]
      exact .hands not_false
  | returned reply => exact .idle not_false trivial
  | raised error => exact .idle not_false trivial

@[simp] theorem finishWith_db (ending : Ending) (store : Store) (db : Db) :
    (s.finishWith ending store db).2.db = db := rfl

theorem finishWith_idle (ending : Ending) (store : Store) (db : Db) :
    (s.finishWith ending store db).1.Idle := by
  unfold ExchangeService.finishWith ExchangeService.finish
  cases ending with
  | «show» projection => exact trivial
  | issue route projection =>
    dsimp only
    split
    · exact trivial
    · exact trivial

theorem Stage.Idle.waits {rt : Runtime} {stage : Stage rt} {db : Db} (h : stage.Idle) :
    stage.Waits db := by
  cases stage with
  | publish organizationId shown ending => exact absurd h not_false
  | _ => exact trivial

theorem Stage.Waits.mono {rt : Runtime} {stage : Stage rt} {db db' : Db} (h : stage.Waits db)
    (hextends : Extends db db') : stage.Waits db' := by
  cases stage with
  | publish organizationId shown ending => exact ShownIn.mono h hextends
  | _ => exact trivial

theorem createCaseTransaction_consistent {request : CreateCase} {sellerOrganizationId : String}
    {now : Datetime} {db db' : Db} {opening : Opening} (h : Consistent s.rt db)
    (htransaction : s.createCaseTransaction request sellerOrganizationId now db =
      .ok (opening, db')) :
    Consistent s.rt db' ∧ Extends db db' ∧
      ∀ compiled, opening.compiled = some compiled → ShownIn s.rt db' compiled.sellerProjection := by
  obtain ⟨existing, created, hcreate, hcases⟩ := createCaseTransaction_eq_ok htransaction
  obtain ⟨hconsistent, hextends, hmem⟩ := h.create hcreate
  rcases hcases with ⟨-, hcompiled, rfl⟩ |
    ⟨-, command, compiled, prepared, commandOrganizationId, hcompiled, -, hprepared, happly⟩
  · refine ⟨hconsistent, hextends, ?_⟩
    rw [hcompiled]
    exact fun _ hnone => nomatch hnone
  · have hsame : SameCases created prepared := by
      rw [hprepared]
      exact ⟨rfl, rfl, rfl⟩
    have horg : existing.organizationId = request.organizationId := createCase_organization hcreate
    obtain ⟨hconsistent', hextends', hshown⟩ :=
      (hconsistent.congr hsame).apply (hsame.cases ▸ hmem) (horg ▸ happly)
    refine ⟨hconsistent', hextends.trans (hsame.extends.trans hextends'), ?_⟩
    intro other hother
    rw [hcompiled] at hother
    exact Option.some.inj hother ▸ hshown

theorem Step.consistent {store : Store} {stage : Stage s.rt} {after : Stage s.rt × Store}
    (hstep : Step s store stage after) (h : Consistent s.rt store.db)
    (hwaits : stage.Waits store.db) :
    Consistent s.rt after.2.db ∧ Extends store.db after.2.db ∧ after.1.Waits after.2.db := by
  cases hstep with
  | idle hfrom hto => exact ⟨h, Extends.refl _, hto.waits⟩
  | proceeds hto =>
    rcases hto with ⟨command, rfl, rfl⟩ | rfl
    · exact ⟨h, Extends.refl _, trivial⟩
    · exact ⟨h, Extends.refl _, trivial⟩
  | opens htransaction hcompiled =>
    obtain ⟨hconsistent, hextends, hshown⟩ := createCaseTransaction_consistent h htransaction
    exact ⟨hconsistent, hextends, hshown _ hcompiled⟩
  | reopens htransaction hcompiled =>
    obtain ⟨hconsistent, hextends, -⟩ := createCaseTransaction_consistent h htransaction
    exact ⟨hconsistent, hextends, (finishWith_idle _ _ _).waits⟩
  | appends happend =>
    have hsame := sameCases_of_appendCommand happend
    exact ⟨h.congr hsame, hsame.extends, trivial⟩
  | works htransaction =>
    have hkeeps := keeps_of_transaction h htransaction
    exact ⟨hkeeps.consistent, hkeeps.grows, hkeeps.shown⟩
  | publishes hpublish =>
    obtain ⟨-, -, hpublish⟩ := bind_eq_ok.mp hpublish
    obtain ⟨hconsistent, hextends⟩ := h.publish hwaits hpublish
    exact ⟨hconsistent, hextends, (finishWith_idle _ _ _).waits⟩
  | withholds hpublish => exact ⟨h, Extends.refl _, trivial⟩
  | hands hfrom =>
    have hsame : ∀ handoffs, SameCases store.db { store.db with handoffs } :=
      fun handoffs => ⟨rfl, rfl, rfl⟩
    exact ⟨h.congr (hsame _), (hsame _).extends, trivial⟩

end Steps

end SiraApi
