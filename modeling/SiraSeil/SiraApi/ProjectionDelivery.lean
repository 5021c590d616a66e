-- SUMMARY: The seller's view catches up with the coordinator unless a call ends between its commit and its publication, and a retry does not repair that.
import SiraSeil.Domain.Digests
import SiraSeil.SiraApi.ExchangeRuns

/-!
# Delivery of projections

A command commits in the buyer's tenant, and its call then publishes the projection
in the seller's tenant. While no call ends between the two, every version of a case
is published or some call is about to publish it. A call that crashes there leaves a
version that is never published: its retry finds the command applied, or the case
released, and returns without publishing anything.
-/

namespace SiraApi

open Domain Persistence Interleaving Raising

/-! ## Routes lead to their cases -/

/-- The case of a route has the tenants that the route names. -/
def Matches (db : Db) (route : ExchangeRoute) : Prop :=
  ∃ c ∈ db.cases, c.id = route.caseId ∧ c.organizationId = route.buyerOrganizationId ∧
    c.sellerOrganizationId = route.sellerOrganizationId

/-- The route that a call works with, or that it is about to issue, leads to its case. -/
def Stage.Routed {rt : Runtime} (db : Db) : Stage rt → Prop
  | .replay caller route _ _ => Matches db route ∧ route.caseId = caller.caseId
  | .append caller route _ _ => Matches db route ∧ route.caseId = caller.caseId
  | .work caller route _ _ => Matches db route ∧ route.caseId = caller.caseId
  | .publish _ _ (.issue route _) => Matches db route
  | _ => True

/-- Every issued route leads to its case, and every case was released. -/
structure Issued (store : Store) : Prop where
  routes : ∀ route ∈ store.issued, Matches store.db route
  released : ∀ c ∈ store.db.cases, 1 < c.version

theorem Matches.mono {db db' : Db} {route : ExchangeRoute} (h : Matches db route)
    (hextends : Extends db db') : Matches db' route := by
  obtain ⟨c, hc, hid, horg, hseller⟩ := h
  obtain ⟨c', hc', hid', horg', hseller', -⟩ := hextends c hc
  exact ⟨c', hc', hid'.trans hid, horg'.trans horg, hseller'.trans hseller⟩

theorem Stage.Routed.mono {rt : Runtime} {stage : Stage rt} {db db' : Db} (h : stage.Routed db)
    (hextends : Extends db db') : stage.Routed db' := by
  cases stage with
  | replay caller route party work => exact ⟨h.1.mono hextends, h.2⟩
  | append caller route party command => exact ⟨h.1.mono hextends, h.2⟩
  | work caller route party work => exact ⟨h.1.mono hextends, h.2⟩
  | publish organizationId shown ending =>
    cases ending with
    | issue route projection => exact Matches.mono h hextends
    | «show» projection => exact trivial
  | _ => exact trivial

theorem Stage.waits_of_not_publishes {rt : Runtime} {stage : Stage rt} {db : Db}
    (h : ¬ stage.Publishes) : stage.Waits db := by
  cases stage with
  | publish organizationId shown ending => exact absurd trivial h
  | _ => exact trivial

theorem Stage.Idle.routed {rt : Runtime} {stage : Stage rt} {db : Db} (h : stage.Idle) :
    stage.Routed db := by
  cases stage with
  | replay caller route party work => exact absurd h not_false
  | append caller route party command => exact absurd h not_false
  | work caller route party work => exact absurd h not_false
  | publish organizationId shown ending => exact absurd h not_false
  | _ => exact trivial

section Routes

variable {s : ExchangeService} {store : Store}

/-- What a route was checked for: that it was issued, for the case and the party of its
    caller. -/
structure Decoded (issued : List ExchangeRoute) (caller : Caller) (route : ExchangeRoute)
    (party : ExchangeParty) : Prop where
  issued : route ∈ issued
  token : caller.routeCapability = route
  caseId : route.caseId = caller.caseId
  party : caller.party = some party

theorem verifiedParty_eq_ok {claimed : Option ExchangeParty} {party : ExchangeParty}
    (h : verifiedParty claimed = .ok party) : claimed = some party := by
  unfold verifiedParty at h
  split at h
  · cases h
    rfl
  · cases h
    rfl
  · cases h

theorem decodeRoute_eq_ok {issued : List ExchangeRoute} {caller : Caller} {now : Datetime}
    {route : ExchangeRoute} {party : ExchangeParty}
    (h : s.decodeRoute issued caller now = .ok (route, party)) :
    Decoded issued caller route party := by
  unfold ExchangeService.decodeRoute at h
  obtain ⟨verified, hverified, h⟩ := bind_eq_ok.mp h
  obtain ⟨decoded, hdecode, h⟩ := bind_eq_ok.mp h
  dsimp only at h
  split at h
  · cases h
  · next hcase =>
    split at h
    · cases h
    · cases h
      -- What decrypts was encrypted before.
      cases hroute : ExchangeRoute.decode issued caller.routeCapability caller.organizationId now with
      | error e =>
        rw [hroute] at hdecode
        cases hdecode
      | ok decoded =>
        rw [hroute] at hdecode
        obtain rfl := Except.ok.inj hdecode
        obtain ⟨hissued, htoken⟩ := ExchangeRoute.decode_eq_ok hroute
        exact ⟨hissued, htoken, not_not.mp hcase, verifiedParty_eq_ok hverified⟩

theorem matches_of_decodeRoute {caller : Caller} {now : Datetime} {route : ExchangeRoute}
    {party : ExchangeParty} (h : Issued store)
    (hdecode : s.decodeRoute store.issued caller now = .ok (route, party)) :
    Matches store.db route ∧ route.caseId = caller.caseId :=
  ⟨h.routes route (decodeRoute_eq_ok hdecode).issued, (decodeRoute_eq_ok hdecode).caseId⟩

theorem start_routed (request : Request) (time : Int) (h : Issued store) :
    (s.system.start request time store).Routed store.db ∧
      ¬ (s.system.start request time store).Publishes := by
  obtain ⟨stage, hstage, hstarts | ⟨error, rfl⟩⟩ := start_cases request time store
  · rw [hstage]
    cases hstarts with
    | createCase hparty hbinding => exact ⟨trivial, not_false⟩
    | viewCase hdecode => exact ⟨trivial, not_false⟩
    | publishEvidence hdecode hparty hcommand => exact ⟨matches_of_decodeRoute h hdecode, not_false⟩
    | proposeOffer hdecode => exact ⟨matches_of_decodeRoute h hdecode, not_false⟩
    | acceptOffer hdecode => exact ⟨matches_of_decodeRoute h hdecode, not_false⟩
    | approveOffer hdecode hparty => exact ⟨matches_of_decodeRoute h hdecode, not_false⟩
    | createHandoff hdecode hparty => exact ⟨trivial, not_false⟩
    | openHandoff hdecode hparty => exact ⟨trivial, not_false⟩
  · rw [hstage]
    exact ⟨trivial, not_false⟩

end Routes

/-! ## Commits in the buyer's tenant -/

/-- A commit moves one case to the next version and leaves the projection of that version
    for the seller. -/
structure Commits (db db' : Db) (sellerOrganizationId : String) (shown : PartyProjection) :
    Prop where
  cases : ∀ d ∈ db'.cases, d ∈ db.cases ∨
    (d.id = shown.caseId ∧ d.sellerOrganizationId = sellerOrganizationId ∧
      d.version = shown.version ∧ (shown.version = 2 ∨ ∃ c ∈ db.cases, c.id = d.id ∧
        c.sellerOrganizationId = sellerOrganizationId ∧ c.version + 1 = shown.version))
  party : shown.party = .seller
  version : 1 < shown.version
  projections : ∀ p ∈ db.projections, p ∈ db'.projections

section Commits

variable {s : ExchangeService} {store : Store} {db db' : Db}

theorem commits_of_transaction {caller : Commanding} {route : ExchangeRoute}
    {party : ExchangeParty} {work : Work s.rt} {now : Datetime} {compiled : CompiledTransition}
    (h : Consistent s.rt db) (hreleased : ∀ c ∈ db.cases, 1 < c.version)
    (hroute : Matches db route ∧ route.caseId = caller.caseId)
    (htransaction : s.transaction caller route party work now db = .ok (compiled, db')) :
    Commits db db' route.sellerOrganizationId compiled.sellerProjection := by
  obtain ⟨exchange, command, prepared, hsame, happlies⟩ := transaction_eq_ok htransaction
  obtain ⟨commandOrganizationId, happly⟩ := happlies.applies
  have hprepared := h.congr hsame
  have hmem : exchange ∈ prepared.cases := hsame.cases ▸ happlies.mem
  obtain ⟨hnext, hcase, hparty, hversion⟩ := hprepared.sellerProjection hmem happly
  -- The route and the command lead to one case.
  have hseller : exchange.sellerOrganizationId = route.sellerOrganizationId := by
    obtain ⟨⟨c, hc, hid, -, hseller⟩, hroutecase⟩ := hroute
    obtain rfl := h.keyed.eq hc happlies.mem (hid.trans (hroutecase.trans happlies.id.symm))
    exact hseller
  have hpositive := hreleased exchange happlies.mem
  constructor
  · intro d hd
    rcases hprepared.mem_cases hmem happly hd with ⟨hd, -⟩ | ⟨stateHash, rfl⟩
    · exact .inl (hsame.cases ▸ hd)
    · refine .inr ⟨hcase.symm, hseller, hnext.trans hversion.symm, .inr ?_⟩
      exact ⟨exchange, happlies.mem, rfl, hseller, hversion.symm⟩
  · exact hparty
  · omega
  · intro p hp
    exact mem_projections_applyAndPublish happly (hsame.projections ▸ hp)

theorem commits_of_createCaseTransaction {request : CreateCase}
    {binding : SellerPrincipalBinding} {now : Datetime} {opening : Opening}
    {compiled : CompiledTransition} (h : Consistent s.rt db)
    (hreleased : ∀ c ∈ db.cases, 1 < c.version)
    (htransaction : s.createCaseTransaction request binding.sellerOrganizationId now db =
      .ok (opening, db')) (hcompiled : opening.compiled = some compiled) :
    Commits db db' binding.sellerOrganizationId compiled.sellerProjection ∧
      ∀ expiresAt, Matches db' (s.routeOf request binding expiresAt) := by
  obtain ⟨existing, created, hcreate, hcases⟩ := createCaseTransaction_eq_ok htransaction
  rcases hcases with ⟨-, hnone, -⟩ |
    ⟨hversion, command, compiled', prepared, commandOrganizationId, hsome, -, hprepared, happly⟩
  · rw [hcompiled] at hnone
    cases hnone
  · obtain rfl := Option.some.inj (hcompiled.symm.trans hsome)
    have hsame : SameCases created prepared := by
      rw [hprepared]
      exact ⟨rfl, rfl, rfl⟩
    obtain ⟨hconsistent, -, hmem⟩ := h.create hcreate
    have horg := createCase_organization hcreate
    rw [← horg] at happly
    have hkept := hconsistent.congr hsame
    have hmem' : existing ∈ prepared.cases := hsame.cases ▸ hmem
    obtain ⟨hnext, hcase, hparty, hshown⟩ := hkept.sellerProjection hmem' happly
    rcases createCase_eq_ok hcreate with ⟨hold, -⟩ | ⟨hfresh, -, hcreated⟩
    · exact absurd (hreleased existing hold) hversion
    · obtain ⟨c', hc', hid, horg', hseller, -⟩ :=
        (hsame.extends.trans (hkept.apply hmem' happly).2.1) existing hmem
      refine ⟨?_, fun _ => ⟨c', hc', hid.trans hfresh.id, horg'.trans horg,
        hseller.trans hfresh.seller⟩⟩
      have htwo : compiled.sellerProjection.version = 2 := by rw [hshown, hfresh.version]
      constructor
      · intro d hd
        rcases hkept.mem_cases hmem' happly hd with ⟨hd, hne⟩ | ⟨stateHash, rfl⟩
        · rw [hsame.cases, hcreated] at hd
          rcases List.mem_append.mp hd with hd | hd
          · exact .inl hd
          · rw [List.mem_singleton.mp hd] at hne
            exact absurd rfl hne
        · exact .inr ⟨hcase.symm, hfresh.seller, hnext.trans hshown.symm, .inl htwo⟩
      · exact hparty
      · omega
      · intro p hp
        apply mem_projections_applyAndPublish happly
        rw [hsame.projections, hcreated]
        exact hp

theorem reopened_of_createCaseTransaction {request : CreateCase} {sellerOrganizationId : String}
    {now : Datetime} {opening : Opening}
    (htransaction : s.createCaseTransaction request sellerOrganizationId now db =
      .ok (opening, db')) (hcompiled : opening.compiled = none) :
    db' = db ∧ ∃ c ∈ db.cases, c.id = s.caseIdOf request sellerOrganizationId ∧
      c.organizationId = request.organizationId := by
  obtain ⟨existing, created, hcreate, hcases⟩ := createCaseTransaction_eq_ok htransaction
  rcases hcases with ⟨hversion, -, rfl⟩ |
    ⟨-, command, compiled, prepared, commandOrganizationId, hsome, -⟩
  · rcases createCase_eq_ok hcreate with ⟨hmem, hid, horg, rfl⟩ | ⟨hfresh, -⟩
    · exact ⟨rfl, existing, hmem, hid, horg⟩
    · rw [hfresh.version] at hversion
      exact absurd hversion (lt_irrefl 1)
  · rw [hcompiled] at hsome
    cases hsome

end Commits

/-! ## Unbroken runs -/

/-- The seller's tenant can take the projection: its name is one that transactions
    accept, and no other projection there has the hash. -/
def Deliverable (db : Db) (organizationId : String) (shown : PartyProjection) : Prop :=
  tenant organizationId = .ok () ∧
    ∀ p ∈ db.projections, p.organizationId = organizationId →
      p.projectionHash = shown.projectionHash →
      p.caseId = shown.caseId ∧ p.party = shown.party ∧ p.version = shown.version

/-- No call ends between its commit in the buyer's tenant and its publication: it neither
    crashes there nor does the publication raise. Cases of different sellers have
    different ids. -/
def Unbroken (s : ExchangeService) (w : World Store (Stage s.rt)) : Event Request Int → Prop
  | .start _ _ => True
  | .advance i _ =>
    match w.calls[i]? with
    | some (.publish organizationId shown _) => Deliverable w.store.db organizationId shown
    | some (.createCase request binding _) =>
      ∀ c ∈ w.store.db.cases, c.id = s.caseIdOf request binding.sellerOrganizationId →
        c.sellerOrganizationId = binding.sellerOrganizationId
    | _ => True
  | .crash i =>
    match w.calls[i]? with
    | some (.publish _ _ _) => False
    | _ => True

instance (s : ExchangeService) (w : World Store (Stage s.rt)) (e : Event Request Int) :
    Decidable (Unbroken s w e) := by
  unfold Unbroken Deliverable
  split
  · infer_instance
  · split <;> infer_instance
  · split <;> infer_instance

/-- A version of a case was published for the seller. -/
def Published (db : Db) (sellerOrganizationId caseId : String) (version : Nat) : Prop :=
  ∃ p ∈ db.projections, p.organizationId = sellerOrganizationId ∧ p.caseId = caseId ∧
    p.party = .seller ∧ p.version = version

/-- Some call is about to publish a version of a case for the seller. -/
def Awaited {rt : Runtime} (calls : List (Stage rt)) (sellerOrganizationId caseId : String)
    (version : Nat) : Prop :=
  ∃ shown ending, Stage.publish sellerOrganizationId shown ending ∈ calls ∧
    shown.caseId = caseId ∧ shown.party = .seller ∧ shown.version = version

structure Delivering (s : ExchangeService) (w : World Store (Stage s.rt)) : Prop where
  consistent : Consistent s.rt w.store.db
  issued : Issued w.store
  waits : ∀ stage ∈ w.calls, stage.Waits w.store.db
  routed : ∀ stage ∈ w.calls, stage.Routed w.store.db
  delivered : ∀ c ∈ w.store.db.cases, ∀ k, 1 < k → k ≤ c.version →
    Published w.store.db c.sellerOrganizationId c.id k ∨
      Awaited w.calls c.sellerOrganizationId c.id k

section Runs

variable {s : ExchangeService} {store : Store} {stage : Stage s.rt} {after : Stage s.rt × Store}

theorem mem_issued_finishWith {route route' : ExchangeRoute} {projection : PartyProjection}
    {db : Db} (h : route ∈ (s.finishWith (.issue route' projection) store db).2.issued) :
    route ∈ store.issued ∨ route = route' := by
  unfold ExchangeService.finishWith ExchangeService.finish at h
  dsimp only at h
  split at h
  · rcases List.mem_append.mp h with h | h
    · exact .inl h
    · exact .inr (List.mem_singleton.mp h)
  · exact .inl h

theorem Step.issued (hstep : Step s store stage after) (h : Consistent s.rt store.db)
    (hissued : Issued store) (hwaits : stage.Waits store.db) (hrouted : stage.Routed store.db)
    (hids : ∀ request binding startedAt, stage = .createCase request binding startedAt →
      ∀ c ∈ store.db.cases, c.id = s.caseIdOf request binding.sellerOrganizationId →
        c.sellerOrganizationId = binding.sellerOrganizationId) :
    Issued after.2 ∧ after.1.Routed after.2.db := by
  have hextends := (hstep.consistent h hwaits).2.1
  have hroutes : ∀ route ∈ store.issued, Matches after.2.db route :=
    fun route hroute => (hissued.routes route hroute).mono hextends
  cases hstep with
  | idle hfrom hto => exact ⟨hissued, hto.routed⟩
  | proceeds hto =>
    rcases hto with ⟨command, rfl, rfl⟩ | rfl
    · exact ⟨hissued, hrouted⟩
    · exact ⟨hissued, hrouted⟩
  | opens htransaction hcompiled =>
    obtain ⟨hcommits, hmatches⟩ :=
      commits_of_createCaseTransaction h hissued.released htransaction hcompiled
    refine ⟨⟨hroutes, ?_⟩, hmatches _⟩
    intro d hd
    rcases hcommits.cases d hd with hd | ⟨-, -, hversion, -⟩
    · exact hissued.released d hd
    · exact hversion ▸ hcommits.version
  | reopens htransaction hcompiled =>
    obtain ⟨rfl, c, hc, hid, horg⟩ := reopened_of_createCaseTransaction htransaction hcompiled
    refine ⟨⟨?_, hissued.released⟩, (finishWith_idle _ _ _).routed⟩
    intro route hroute
    rcases mem_issued_finishWith hroute with hroute | rfl
    · exact hissued.routes route hroute
    · exact ⟨c, hc, hid, horg, hids _ _ _ rfl c hc hid⟩
  | appends happend =>
    refine ⟨⟨hroutes, ?_⟩, hrouted.1.mono hextends, hrouted.2⟩
    intro c hc
    exact hissued.released c ((sameCases_of_appendCommand happend).cases ▸ hc)
  | works htransaction =>
    have hcommits := commits_of_transaction h hissued.released hrouted htransaction
    refine ⟨⟨hroutes, ?_⟩, trivial⟩
    intro d hd
    rcases hcommits.cases d hd with hd | ⟨-, -, hversion, -⟩
    · exact hissued.released d hd
    · exact hversion ▸ hcommits.version
  | @publishes organizationId shown ending record db' hpublish =>
    obtain ⟨-, -, hpublish⟩ := bind_eq_ok.mp hpublish
    have hcases : db'.cases = store.db.cases := by
      rcases publishProjection_eq_ok hpublish with ⟨rfl, -⟩ | ⟨rfl, -⟩
      · rfl
      · rfl
    refine ⟨⟨?_, fun c hc => hissued.released c (hcases ▸ hc)⟩, (finishWith_idle _ _ _).routed⟩
    intro route hroute
    cases ending with
    | «show» projection => exact hroutes route hroute
    | issue route' projection =>
      rcases mem_issued_finishWith hroute with hroute | rfl
      · exact hroutes route hroute
      · exact Matches.mono hrouted hextends
  | withholds hpublish => exact ⟨hissued, trivial⟩
  | hands hfrom => exact ⟨⟨hroutes, hissued.released⟩, trivial⟩

theorem Step.projections (hstep : Step s store stage after) (h : Consistent s.rt store.db)
    (hissued : Issued store) (hrouted : stage.Routed store.db) :
    ∀ p ∈ store.db.projections, p ∈ after.2.db.projections := by
  intro p hp
  cases hstep with
  | idle hfrom hto => exact hp
  | proceeds hto => exact hp
  | opens htransaction hcompiled =>
    exact (commits_of_createCaseTransaction h hissued.released htransaction
      hcompiled).1.projections p hp
  | reopens htransaction hcompiled =>
    obtain ⟨rfl, -⟩ := reopened_of_createCaseTransaction htransaction hcompiled
    exact hp
  | appends happend => exact (sameCases_of_appendCommand happend).projections ▸ hp
  | works htransaction =>
    exact (commits_of_transaction h hissued.released hrouted htransaction).projections p hp
  | publishes hpublish =>
    obtain ⟨-, -, hpublish⟩ := bind_eq_ok.mp hpublish
    exact mem_projections_publishProjection hpublish hp
  | withholds hpublish => exact hp
  | hands hfrom => exact hp

/-- A case after a step is an old one, or a commit has moved it and its projection waits. -/
theorem Step.cases (hstep : Step s store stage after) (h : Consistent s.rt store.db)
    (hissued : Issued store) (hrouted : stage.Routed store.db) :
    ∀ d ∈ after.2.db.cases, d ∈ store.db.cases ∨ ∃ shown ending,
      after.1 = .publish d.sellerOrganizationId shown ending ∧ shown.caseId = d.id ∧
        shown.party = .seller ∧ shown.version = d.version ∧
        (shown.version = 2 ∨ ∃ c ∈ store.db.cases, c.id = d.id ∧
          c.sellerOrganizationId = d.sellerOrganizationId ∧ c.version + 1 = shown.version) := by
  have hmoved : ∀ {db' : Db} {sellerOrganizationId : String} {shown : PartyProjection}
      {ending : Ending} {d : BilateralExchangeCase},
      Commits store.db db' sellerOrganizationId shown → d ∈ db'.cases →
      d ∈ store.db.cases ∨ ∃ shown' ending',
        (Stage.publish sellerOrganizationId shown ending : Stage s.rt) =
            .publish d.sellerOrganizationId shown' ending' ∧
          shown'.caseId = d.id ∧ shown'.party = .seller ∧ shown'.version = d.version ∧
          (shown'.version = 2 ∨ ∃ c ∈ store.db.cases, c.id = d.id ∧
            c.sellerOrganizationId = d.sellerOrganizationId ∧ c.version + 1 = shown'.version) := by
    intro db' sellerOrganizationId shown ending d hcommits hd
    rcases hcommits.cases d hd with hd | ⟨hid, rfl, hversion, hbefore⟩
    · exact .inl hd
    · exact .inr ⟨shown, ending, rfl, hid.symm, hcommits.party, hversion.symm, hbefore⟩
  intro d hd
  cases hstep with
  | idle hfrom hto => exact .inl hd
  | proceeds hto => exact .inl hd
  | opens htransaction hcompiled =>
    exact hmoved (commits_of_createCaseTransaction h hissued.released htransaction hcompiled).1 hd
  | reopens htransaction hcompiled =>
    obtain ⟨rfl, -⟩ := reopened_of_createCaseTransaction htransaction hcompiled
    exact .inl hd
  | appends happend => exact .inl ((sameCases_of_appendCommand happend).cases ▸ hd)
  | works htransaction =>
    exact hmoved (commits_of_transaction h hissued.released hrouted htransaction) hd
  | publishes hpublish =>
    obtain ⟨-, -, hpublish⟩ := bind_eq_ok.mp hpublish
    rcases publishProjection_eq_ok hpublish with ⟨rfl, -⟩ | ⟨rfl, -⟩
    · exact .inl hd
    · exact .inl hd
  | withholds hpublish => exact .inl hd
  | hands hfrom => exact .inl hd

theorem Step.delivers {organizationId : String} {shown : PartyProjection} {ending : Ending}
    (hstep : Step s store (.publish organizationId shown ending) after)
    (h : Consistent s.rt store.db) (hshown : ShownIn s.rt store.db shown)
    (hparty : shown.party = .seller) (hdeliverable : Deliverable store.db organizationId shown) :
    Published after.2.db organizationId shown.caseId shown.version := by
  cases hstep with
  | idle hfrom hto => exact absurd trivial hfrom
  | hands hfrom => exact absurd trivial hfrom
  | withholds hpublish =>
    obtain ⟨result, hok⟩ := h.exists_publishProjection hshown hdeliverable.2
    unfold ExchangeService.publishTransaction at hpublish
    rw [hdeliverable.1, ok_bind, hok] at hpublish
    cases hpublish
  | publishes hpublish =>
    obtain ⟨-, -, hpublish⟩ := bind_eq_ok.mp hpublish
    rcases publishProjection_eq_ok hpublish with ⟨rfl, hmem, horg, hcase, hp, hversion⟩ | ⟨rfl, rfl⟩
    · exact ⟨_, hmem, horg, hcase, hp.trans hparty, hversion⟩
    · exact ⟨_, List.mem_append_right _ (List.mem_singleton_self _), rfl, rfl, hparty, rfl⟩

theorem mem_set_of_ne {α : Type} {l : List α} {i : Nat} {a b : α} (ha : a ∈ l)
    (hi : l[i]? ≠ some a) : a ∈ l.set i b := by
  obtain ⟨j, hj⟩ := List.mem_iff_getElem?.mp ha
  have hne : i ≠ j := fun heq => hi (heq ▸ hj)
  exact List.mem_iff_getElem?.mpr ⟨j, (List.getElem?_set_ne hne).trans hj⟩

theorem mem_eraseIdx_of_ne {α : Type} {l : List α} {i : Nat} {a : α} (ha : a ∈ l)
    (hi : l[i]? ≠ some a) : a ∈ l.eraseIdx i := by
  obtain ⟨j, hj⟩ := List.mem_iff_getElem?.mp ha
  exact List.mem_eraseIdx_iff_getElem?.mpr ⟨j, fun heq => hi (heq ▸ hj), hj⟩

theorem Delivering.carry {w : World Store (Stage s.rt)} {i : Nat} (h : Delivering s w)
    (hi : w.calls[i]? = some stage) (hstep : Step s w.store stage after)
    (hdeliverable : ∀ organizationId shown ending, stage = .publish organizationId shown ending →
      Deliverable w.store.db organizationId shown)
    {sellerOrganizationId caseId : String} {version : Nat}
    (hbefore : Published w.store.db sellerOrganizationId caseId version ∨
      Awaited w.calls sellerOrganizationId caseId version) :
    Published after.2.db sellerOrganizationId caseId version ∨
      Awaited (w.calls.set i after.1) sellerOrganizationId caseId version := by
  have hmem : stage ∈ w.calls := List.mem_of_getElem? hi
  rcases hbefore with ⟨p, hp, hkeys⟩ | ⟨shown, ending, hcall, hcase, hparty, hversion⟩
  · exact .inl ⟨p, hstep.projections h.consistent h.issued (h.routed stage hmem) p hp, hkeys⟩
  · by_cases hsame : w.calls[i]? = some (.publish sellerOrganizationId shown ending)
    · -- The call that was awaited is the one that takes the step.
      obtain rfl := Option.some.inj (hi.symm.trans hsame)
      have hpublished := hstep.delivers h.consistent (h.waits _ hmem) hparty
        (hdeliverable _ _ _ rfl)
      rw [hcase, hversion] at hpublished
      exact .inl hpublished
    · exact .inr ⟨shown, ending, mem_set_of_ne hcall hsame, hcase, hparty, hversion⟩

theorem Delivering.step {w : World Store (Stage s.rt)} (e : Event Request Int)
    (h : Delivering s w) (hok : Unbroken s w e) : Delivering s (s.system.step w e) := by
  cases e with
  | start request time =>
    obtain ⟨hrouted, hnot⟩ := start_routed (s := s) request time h.issued
    refine ⟨h.consistent, h.issued, ?_, ?_, ?_⟩
    · intro stage hstage
      rcases List.mem_append.mp hstage with hstage | hstage
      · exact h.waits stage hstage
      · rw [List.mem_singleton.mp hstage]
        exact Stage.waits_of_not_publishes hnot
    · intro stage hstage
      rcases List.mem_append.mp hstage with hstage | hstage
      · exact h.routed stage hstage
      · rw [List.mem_singleton.mp hstage]
        exact hrouted
    · intro c hc k hk hkc
      rcases h.delivered c hc k hk hkc with hpublished | ⟨shown, ending, hcall, hkeys⟩
      · exact .inl hpublished
      · exact .inr ⟨shown, ending, List.mem_append_left _ hcall, hkeys⟩
  | advance i time =>
    simp only [System.step]
    split
    · next stage hi =>
      have hmem : stage ∈ w.calls := List.mem_of_getElem? hi
      have hstep : Step s w.store stage (s.next stage time w.store) := step_next stage time w.store
      simp only [Unbroken, hi] at hok
      have hdeliverable : ∀ organizationId shown ending,
          stage = .publish organizationId shown ending →
            Deliverable w.store.db organizationId shown := by
        rintro organizationId shown ending rfl
        exact hok
      have hids : ∀ request binding startedAt, stage = .createCase request binding startedAt →
          ∀ c ∈ w.store.db.cases, c.id = s.caseIdOf request binding.sellerOrganizationId →
            c.sellerOrganizationId = binding.sellerOrganizationId := by
        rintro request binding startedAt rfl
        exact hok
      obtain ⟨hconsistent, hextends, hwaits⟩ := hstep.consistent h.consistent (h.waits stage hmem)
      obtain ⟨hissued, hrouted⟩ := hstep.issued h.consistent h.issued (h.waits stage hmem)
        (h.routed stage hmem) hids
      refine ⟨hconsistent, hissued, ?_, ?_, ?_⟩
      · intro other hother
        rcases List.mem_or_eq_of_mem_set hother with hother | rfl
        · exact (h.waits other hother).mono hextends
        · exact hwaits
      · intro other hother
        rcases List.mem_or_eq_of_mem_set hother with hother | rfl
        · exact (h.routed other hother).mono hextends
        · exact hrouted
      · intro d hd k hk hkd
        rcases hstep.cases h.consistent h.issued (h.routed stage hmem) d hd with
          hold | ⟨shown, ending, hafter, hcase, hparty, hversion, hbefore⟩
        · exact h.carry hi hstep hdeliverable (h.delivered d hold k hk hkd)
        · by_cases hlast : k = d.version
          · -- The version that was just committed waits for this very call.
            have hin : (s.next stage time w.store).1 ∈
                w.calls.set i (s.next stage time w.store).1 := by
              obtain ⟨hlt, -⟩ := List.getElem?_eq_some_iff.mp hi
              exact List.mem_set hlt _
            refine .inr ⟨shown, ending, ?_, hcase, hparty, hversion.trans hlast.symm⟩
            rw [← hafter]
            exact hin
          · rcases hbefore with htwo | ⟨c, hc, hid, hseller, hnext⟩
            · omega
            · have hkc : k ≤ c.version := by omega
              rw [← hid, ← hseller]
              exact h.carry hi hstep hdeliverable (h.delivered c hc k hk hkc)
    · exact h
  | crash i =>
    refine ⟨h.consistent, h.issued, ?_, ?_, ?_⟩
    · exact fun stage hstage => h.waits stage (List.mem_of_mem_eraseIdx hstage)
    · exact fun stage hstage => h.routed stage (List.mem_of_mem_eraseIdx hstage)
    · intro c hc k hk hkc
      rcases h.delivered c hc k hk hkc with hpublished | ⟨shown, ending, hcall, hkeys⟩
      · exact .inl hpublished
      · refine .inr ⟨shown, ending, mem_eraseIdx_of_ne hcall (fun hi => ?_), hkeys⟩
        simp only [Unbroken, hi] at hok

theorem delivering_empty : Delivering s ⟨{}, []⟩ where
  consistent := consistent_empty
  issued := ⟨by simp, by simp⟩
  waits := by simp
  routed := by simp
  delivered := by simp

/-- In an unbroken run, whenever no call waits for a publication, the latest projection of
    the seller has the version and the state of the coordinator. -/
theorem seller_projection_converges (events : List (Event Request Int))
    (hunbroken : s.system.Along (Unbroken s) ⟨{}, []⟩ events)
    (hquiet : ∀ stage ∈ (s.system.run ⟨{}, []⟩ events).calls, ¬ stage.Publishes) :
    ∀ c ∈ (s.system.run ⟨{}, []⟩ events).store.db.cases, ∃ p,
      latestProjection c.sellerOrganizationId c.id .seller
        (s.system.run ⟨{}, []⟩ events).store.db = .ok p ∧
      p.version = c.coordinatorState.version ∧ p.state = c.coordinatorState.state := by
  have h : Delivering s (s.system.run ⟨{}, []⟩ events) :=
    System.run_induction (fun w e hw hok => hw.step e hok) delivering_empty hunbroken
  intro c hc
  have hlinear := h.consistent.linearized c hc
  -- Nothing is awaited, so the current version was published.
  have hpublished : Published (s.system.run ⟨{}, []⟩ events).store.db c.sellerOrganizationId c.id
      c.version := by
    rcases h.delivered c hc c.version (h.issued.released c hc) le_rfl with
      hpublished | ⟨shown, ending, hcall, -⟩
    · exact hpublished
    · exact absurd trivial (hquiet _ hcall)
  obtain ⟨p, hp, horg, hcase, hparty, hversion⟩ := hpublished
  rw [← hlinear.version, ← hlinear.state]
  unfold latestProjection
  have hmem : p ∈ (s.system.run ⟨{}, []⟩ events).store.db.projections.filter (fun q =>
      q.organizationId = c.sellerOrganizationId ∧ q.caseId = c.id ∧ q.party = .seller) := by
    rw [List.mem_filter]
    exact ⟨hp, by simp [horg, hcase, hparty]⟩
  split
  · next latest hlatest =>
    have hle := Table.le_of_latest hlatest hmem
    obtain ⟨hlmem, hlkeys⟩ := List.mem_filter.mp (Table.latest_mem hlatest)
    have hlcase : latest.caseId = c.id := by
      have hkeys : latest.organizationId = c.sellerOrganizationId ∧ latest.caseId = c.id ∧
          latest.party = .seller := by simpa using hlkeys
      exact hkeys.2.1
    obtain ⟨hbound, hstate⟩ :=
      h.consistent.projection_state hc (h.consistent.shown latest hlmem) hlcase
    have hsame : latest.version = c.version := by omega
    exact ⟨latest, rfl, hsame, hstate hsame⟩
  · next hnone =>
    rw [Table.latest_eq_none] at hnone
    rw [hnone] at hmem
    exact absurd hmem List.not_mem_nil

end Runs

/-! ## A retry after a crash -/

namespace Sample

/-- A service with one seller, for whose product the briefs of one expiry are shared. -/
def service : ExchangeService where
  rt := .ascii
  sellerDirectory := fun candidateId =>
    if candidateId = "candidate" then
      some ⟨"product", "org-seller", "Seller", "https://seller.example"⟩
    else none
  allowDevelopmentGuestBridge := false
  fromIsoformat := fun text =>
    if text = "2030-01-01T00:00:00+00:00" then some ⟨1893456000000000, true⟩ else none
  lower := Runtime.lowerAscii
  repr := fun text => "'" ++ text ++ "'"
  https := fun url => startsWith url "https://"

/-- The service with its digests on numbers -/
def evaluatedService : ExchangeService := { service with rt := .evaluated }

theorem service_eq : service = evaluatedService := by
  unfold evaluatedService
  rw [← Runtime.ascii_eq]
  rfl

def opening : CreateCase where
  organizationId := "org-buyer"
  actorId := "buyer"
  party := some .buyer
  idempotencyKey := "open"
  purchaseRequestId := "purchase"
  candidateId := "candidate"
  guestIdentity := false
  requirement := some ⟨1, ("expires_at", .str "2030-01-01T00:00:00+00:00") ::
    sellerSafeFields.map (fun field => (field, .null)), "sha256:brief"⟩

/-- A case is opened, and its projections are published. -/
def unbroken : List (Event Request Int) :=
  [.start (.createCase opening) 0, .advance 0 0, .advance 0 0]

/-- A case is opened, the call crashes after its commit and is retried. -/
def retried : List (Event Request Int) :=
  [.start (.createCase opening) 0, .advance 0 0, .crash 0,
    .start (.createCase opening) 1, .advance 0 1]

end Sample

/-- The call has returned successfully. -/
def Stage.succeeded {rt : Runtime} : Stage rt → Bool
  | .returned _ => true
  | _ => false

/-- The seller's latest projection has the version and the state of the coordinator. -/
def informed (db : Db) (c : BilateralExchangeCase) : Bool :=
  (latestProjection c.sellerOrganizationId c.id .seller db).toOption.any (fun p =>
    decide (p.version = c.coordinatorState.version ∧ p.state = c.coordinatorState.state))

theorem sample_runs :
    ((Sample.service.system.run ⟨{}, []⟩ Sample.retried).calls.map Stage.succeeded = [true] ∧
      (Sample.service.system.run ⟨{}, []⟩ Sample.retried).store.db.cases.map (fun c =>
        (c.version, informed (Sample.service.system.run ⟨{}, []⟩ Sample.retried).store.db c)) =
        [(2, false)]) ∧
    Sample.service.system.Along (Unbroken Sample.service) ⟨{}, []⟩ Sample.unbroken ∧
    (Sample.service.system.run ⟨{}, []⟩ Sample.unbroken).calls.map Stage.succeeded = [true] := by
  rw [Sample.service_eq]
  decide +kernel

/-- The retry of a call that crashed after its commit succeeds, and the seller is not
    informed of the case. -/
theorem retry_leaves_seller_uninformed :
    (Sample.service.system.run ⟨{}, []⟩ Sample.retried).calls.map Stage.succeeded = [true] ∧
      (Sample.service.system.run ⟨{}, []⟩ Sample.retried).store.db.cases.map (fun c =>
        (c.version, informed (Sample.service.system.run ⟨{}, []⟩ Sample.retried).store.db c)) =
        [(2, false)] :=
  sample_runs.1

/-- Without the crash the seller is informed. -/
theorem seller_projection_converges_sample :
    (Sample.service.system.run ⟨{}, []⟩ Sample.unbroken).store.db.cases.all
      (informed (Sample.service.system.run ⟨{}, []⟩ Sample.unbroken).store.db) = true := by
  refine List.all_eq_true.mpr (fun c hc => ?_)
  have hquiet : ∀ stage ∈ (Sample.service.system.run ⟨{}, []⟩ Sample.unbroken).calls,
      ¬ stage.Publishes := by
    intro stage hstage hpublishes
    have hsucceeded : stage.succeeded ∈ [true] := by
      rw [← sample_runs.2.2]
      exact List.mem_map_of_mem hstage
    cases stage with
    | publish organizationId shown ending => simp [Stage.succeeded] at hsucceeded
    | _ => exact hpublishes
  obtain ⟨p, hp, hsame⟩ := seller_projection_converges Sample.unbroken sample_runs.2.1 hquiet c hc
  rw [informed, hp]
  exact decide_eq_true hsame

end SiraApi
